import Mathlib.Data.List.Basic

set_option autoImplicit false

namespace Base64

def symbol (sextet : Nat) : Char :=
  if sextet < 26 then Char.ofNat (65 + sextet)
  else if sextet < 52 then Char.ofNat (71 + sextet)
  else if sextet < 62 then Char.ofNat (sextet - 4)
  else if sextet = 62 then '+'
  else '/'

def sextet (symbol : Char) : Nat :=
  if symbol.isUpper then symbol.toNat - 65
  else if symbol.isLower then symbol.toNat - 71
  else if symbol.isDigit then symbol.toNat + 4
  else if symbol = '+' then 62
  else 63

def encode : List Nat → List Char
  | [] => []
  | [a] => [symbol (a / 4), symbol (a % 4 * 16), '=', '=']
  | [a, b] => [symbol (a / 4), symbol (a % 4 * 16 + b / 16), symbol (b % 16 * 4), '=']
  | a :: b :: c :: rest =>
    symbol (a / 4) :: symbol (a % 4 * 16 + b / 16) :: symbol (b % 16 * 4 + c / 64) :: symbol
      (c % 64) :: encode rest

def decode : List Char → List Nat
  | w :: x :: y :: z :: rest =>
    if y = '=' then [sextet w * 4 + sextet x / 16]
    else if z = '=' then [sextet w * 4 + sextet x / 16, sextet x % 16 * 16 + sextet y / 4]
    else (sextet w * 4 + sextet x / 16) :: (sextet x % 16 * 16 + sextet y / 4) ::
      (sextet y % 4 * 64 + sextet z) :: decode rest
  | _ => []

theorem sextet_symbol {value : Nat} (below : value < 64) : sextet (symbol value) = value := by
  have all : ∀ value : Fin 64, sextet (symbol value) = value := by decide
  exact all ⟨value, below⟩

theorem symbol_ne_pad {value : Nat} (below : value < 64) : symbol value ≠ '=' := by
  have all : ∀ value : Fin 64, symbol value ≠ '=' := by decide
  exact all ⟨value, below⟩

theorem decode_encode (bytes : List Nat) (small : ∀ byte ∈ bytes, byte < 256) :
    decode (encode bytes) = bytes := by
  induction bytes using encode.induct with
  | case1 => rfl
  | case2 a =>
    have := small a (by simp)
    rw [encode, decode, if_pos rfl, sextet_symbol (by omega), sextet_symbol (by omega)]
    congr 1
    omega
  | case3 a b =>
    have := small a (by simp)
    have := small b (by simp)
    rw [encode, decode, if_neg (symbol_ne_pad (by omega)), if_pos rfl, sextet_symbol (by omega),
      sextet_symbol (by omega), sextet_symbol (by omega)]
    congr 1
    · omega
    · congr 1
      omega
  | case4 a b c rest ih =>
    have := small a (by simp)
    have := small b (by simp)
    have := small c (by simp)
    rw [encode, decode, if_neg (symbol_ne_pad (by omega)), if_neg (symbol_ne_pad (by omega)),
      sextet_symbol (by omega), sextet_symbol (by omega), sextet_symbol (by omega),
      sextet_symbol (by omega),
      ih fun byte member => small byte (by simp [member])]
    congr 1
    · omega
    · congr 1
      · omega
      · congr 1
        omega

theorem encode_length (bytes : List Nat) : (encode bytes).length = (bytes.length + 2) / 3 * 4 := by
  induction bytes using encode.induct with
  | case1 => rfl
  | case2 => simp [encode]
  | case3 => simp [encode]
  | case4 a b c rest ih =>
    simp only [encode, List.length_cons, ih]
    omega

def Symbolic (symbol : Char) : Prop := symbol.isAlphanum = true ∨ symbol = '+' ∨ symbol = '/' ∨
    symbol = '='

instance (symbol : Char) : Decidable (Symbolic symbol) := inferInstanceAs (Decidable (_ ∨ _))

theorem symbol_symbolic (value : Nat) : Symbolic (symbol value) := by
  have all : ∀ value : Fin 64, Symbolic (symbol value) := by decide
  by_cases below : value < 64
  · exact all ⟨value, below⟩
  · have last : symbol value = '/' := by
      unfold symbol
      rw [if_neg (by omega), if_neg (by omega), if_neg (by omega), if_neg (by omega)]
    rw [last]
    decide

theorem encode_symbolic (bytes : List Nat) : ∀ symbol ∈ encode bytes, Symbolic symbol := by
  have pad : Symbolic '=' := by decide
  induction bytes using encode.induct with
  | case1 => simp [encode]
  | case2 a => simp [encode, symbol_symbolic, pad]
  | case3 a b => simp [encode, symbol_symbolic, pad]
  | case4 a b c rest ih =>
    simp only [encode, List.forall_mem_cons, symbol_symbolic, true_and]
    exact ih

end Base64
