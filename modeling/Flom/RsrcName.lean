import Flom.Types
import Mathlib.Data.List.TakeWhile

set_option autoImplicit false

namespace Flom

inductive RsrcType where
  | null | simple | numeric | set | hier | sequence | timestamp
deriving DecidableEq, Repr

def defaultResourceName : Name := ['_', 'R', 'E', 'S', 'O', 'U', 'R', 'C', 'E']
def resourceSetSeparator : Char := '.'
def hierResourceSeparator : Char := '/'

def strsplit (text : Name) (separator : Char) : List Name :=
  if text = [] then [] else text.splitOn separator

def longMax : Nat := 2 ^ 63 - 1

def decimalValue (digits : Name) : Nat :=
  digits.foldl (fun value digit => value * 10 + (digit.toNat - '0'.toNat)) 0

def isSpace (c : Char) : Bool :=
  c = ' ' || c = '\t' || c = '\n' || c = '\r' || c.toNat = 11 || c.toNat = 12

/-- strtol in base ten on a 64-bit long: it saturates instead of failing. -/
def strtol (text : Name) : Int :=
  match text.dropWhile isSpace with
  | '-' :: rest => -(min (decimalValue (rest.takeWhile Char.isDigit)) (longMax + 1) : Nat)
  | '+' :: rest => (min (decimalValue (rest.takeWhile Char.isDigit)) longMax : Nat)
  | rest => (min (decimalValue (rest.takeWhile Char.isDigit)) longMax : Nat)

theorem decimalValue_eq (digits : Name) : decimalValue digits = Nat.ofDigitChars 10 digits 0 := by
  simp only [decimalValue, Nat.ofDigitChars_eq_foldl, Nat.mul_comm]

theorem digit_ne {digit other : Char} (isDigit : digit.isDigit = true)
    (no : other.isDigit = false) :
    digit ≠ other := by
  rintro rfl
  exact absurd isDigit (Bool.eq_false_iff.mp no)

theorem digit_not_space {digit : Char} (isDigit : digit.isDigit = true) :
    isSpace digit = false := by
  have bounds : 48 ≤ digit.toNat ∧ digit.toNat ≤ 57 := Char.isDigit_iff_toNat.mp isDigit
  have other : ∀ blank : Char, blank.toNat < 48 → digit ≠ blank := by
    rintro blank low rfl
    omega
  simp only [isSpace, other ' ' (by decide), other '\t' (by decide), other '\n' (by decide),
    other '\r' (by decide), decide_false, Bool.false_or, Bool.or_eq_false_iff,
    decide_eq_false_iff_not]
  omega

theorem strtol_digits {digits : Name} (some : digits ≠ [])
    (every : ∀ digit ∈ digits, digit.isDigit = true) :
    strtol digits = (min (decimalValue digits) longMax : Nat) := by
  have whole := List.takeWhile_eq_self_iff.mpr every
  cases digits with
  | nil => exact absurd rfl some
  | cons digit rest =>
    have isDigit := every digit List.mem_cons_self
    have blank : isSpace digit = false := digit_not_space isDigit
    rw [strtol, List.dropWhile_cons_of_neg (by simp [blank])]
    split
    · next same => exact absurd (List.cons.inj same).1 (digit_ne isDigit rfl)
    · next same => exact absurd (List.cons.inj same).1 (digit_ne isDigit rfl)
    · rw [whole]

def identifier (text : Name) : Bool :=
  match text with
  | [] => false
  | first :: rest => first.isAlpha && rest.all Char.isAlphanum

def timestampFirst (c : Char) : Bool := c = '%' || c = '#' || c.isAlpha

def timestampNext (c : Char) : Bool :=
  c = '%' || c = '#' || c = '\\' || c = '.' || c = ':' || c.isAlphanum

def bracketed (first next : Char → Bool) (line : Name) : Option (Name × Name) :=
  match line.span next with
  | (head :: tail, '[' :: rest) =>
    match rest.span Char.isDigit with
    | (digit :: digits, [']']) =>
      if first head then some (head :: tail, digit :: digits) else none
    | _ => none
  | _ => none

def matchNumeric (line : Name) : Option (Name × Name) :=
  bracketed Char.isAlpha Char.isAlphanum line

def matchSequence (line : Name) : Option (Name × Name) :=
  match line with
  | '_' :: kind :: '_' :: rest => if kind = 's' || kind = 'S' then matchNumeric rest else none
  | _ => none

def matchTimestamp (line : Name) : Option (Name × Name) :=
  match line with
  | '_' :: 't' :: '_' :: rest => bracketed timestampFirst timestampNext rest
  | _ => none

def matchSimple (line : Name) : Bool := line = defaultResourceName || identifier line

def matchSet (line : Name) : Bool :=
  let elements := line.splitOn resourceSetSeparator
  1 < elements.length && elements.all identifier

/-- The bracket expression excludes the backslash along with the separator it was meant to escape.
-/
def matchHier (line : Name) : Bool :=
  match line with
  | [] => false
  | first :: rest => first = hierResourceSeparator &&
      (rest.splitOn hierResourceSeparator).all fun level => level ≠ [] && level.all (· ≠ '\\')

def matchType (type : RsrcType) (line : Name) : Bool :=
  match type with
  | .null => line = ['_']
  | .simple => matchSimple line
  | .numeric => (matchNumeric line).isSome
  | .set => matchSet line
  | .hier => matchHier line
  | .sequence => (matchSequence line).isSome
  | .timestamp => (matchTimestamp line).isSome

/-- The expressions are compiled with REG_NEWLINE, so each of them is tried on every line. -/
def rsrcLines (name : Name) : List Name := name.splitOn '\n'

def rsrcTypes : List RsrcType := [.simple, .numeric, .set, .hier, .sequence, .timestamp]

def rsrcGetType (name : Name) : RsrcType :=
  (rsrcTypes.find? fun type => (rsrcLines name).any (matchType type)).getD .null

def rsrcGetTransactional (name : Name) : Bool :=
  rsrcGetType name = .sequence && name[1]? = some 'S'

def matchGroups (type : RsrcType) (line : Name) : Option (Name × Name) :=
  match type with
  | .numeric => matchNumeric line
  | .sequence => matchSequence line
  | .timestamp => matchTimestamp line
  | _ => none

def rsrcGroups (name : Name) (type : RsrcType) : Option (Name × Name) :=
  (rsrcLines name).findSome? (matchGroups type)

def rsrcGetNumber (name : Name) (type : RsrcType) : Except Rc Int32 :=
  match rsrcGroups name type with
  | some (_, digits) => .ok (Int32.ofInt (strtol (digits.take 999)))
  | none => .error .regexecError

def rsrcGetInfix (name : Name) (type : RsrcType) : Except Rc Name :=
  match rsrcGroups name type with
  | some (format, _) => .ok (format.take 999)
  | none => .error .regexecError

theorem rsrcGetType_line {name : Name} {type : RsrcType} (typed : type ≠ .null)
    (found : rsrcGetType name = type) :
    ∃ line ∈ rsrcLines name, matchType type line = true := by
  unfold rsrcGetType at found
  cases first : rsrcTypes.find? fun type => (rsrcLines name).any (matchType type) with
  | none =>
    rw [first] at found
    exact absurd found.symm typed
  | some other =>
    rw [first, Option.getD_some] at found
    rw [← found]
    have some := List.find?_some first
    exact List.any_eq_true.mp some

theorem rsrcGroups_typed {name : Name} {type : RsrcType}
    (counted : type = .numeric ∨ type = .sequence ∨ type = .timestamp)
    (found : rsrcGetType name = type) :
    ∃ groups, rsrcGroups name type = some groups := by
  obtain ⟨line, member, matched⟩ := rsrcGetType_line
    (by rcases counted with rfl | rfl | rfl <;> simp) found
  have some_groups : (matchGroups type line).isSome = true := by
    rcases counted with rfl | rfl | rfl <;> exact matched
  rw [← Option.isSome_iff_exists, rsrcGroups, List.isSome_findSome?]
  exact List.any_eq_true.mpr ⟨line, member, some_groups⟩

theorem rsrcGetNumber_error {name : Name} {type : RsrcType} {rc : Rc}
    (failed : rsrcGetNumber name type = .error rc) : rc = .regexecError := by
  unfold rsrcGetNumber at failed
  split at failed
  · cases failed
  · exact (Except.error.inj failed).symm

theorem error_of_number {Made : Type} {name : Name} {type : RsrcType} {made : Int32 → Made}
    {rc : Rc} (failed : (do return made (← rsrcGetNumber name type) : Except Rc Made) = .error rc) :
    rc = .regexecError := by
  cases total : rsrcGetNumber name type with
  | error other =>
    rw [total] at failed
    obtain rfl : other = rc := Except.error.inj failed
    exact rsrcGetNumber_error total
  | ok value =>
    rw [total] at failed
    cases failed

theorem rsrcGetInfix_error {name : Name} {type : RsrcType} {rc : Rc}
    (failed : rsrcGetInfix name type = .error rc) : rc = .regexecError := by
  unfold rsrcGetInfix at failed
  split at failed
  · cases failed
  · exact (Except.error.inj failed).symm

def rsrcGetElements (name : Name) : List Name := strsplit name resourceSetSeparator

end Flom
