import Flom.Resource
import Flom.RsrcGrammar
import Flom.Slots

set_option autoImplicit false

namespace Flom

def RsrcType.counted (type : RsrcType) : Prop :=
  type = .numeric ∨ type = .sequence ∨ type = .timestamp

instance (type : RsrcType) : Decidable type.counted := inferInstanceAs (Decidable (_ ∨ _ ∨ _))

def Resource.totalQuantity : Resource → Option Int32
  | .numeric rsrc => some rsrc.data.totalQuantity
  | .sequence rsrc => some rsrc.data.totalQuantity
  | .timestamp rsrc => some rsrc.data.totalQuantity
  | _ => none

def declaredDigits (name : Name) : Name := ((rsrcGroups name (rsrcGetType name)).getD ([], [])).2

structure QuantityHonoured (name : Name) : Prop where
  stored : ∀ number, rsrcGetNumber name (rsrcGetType name) = .ok number →
    number.toInt = decimalValue (declaredDigits name)
  started : ∀ resource, resourceInit (rsrcGetType name) name = .ok resource →
    ∀ total, resource.totalQuantity = some total → 0 ≤ total.toInt ∧
    total.toInt = decimalValue (declaredDigits name)

theorem bracketed_digits {first next : Char → Bool} {line : Name} {groups : Name × Name}
    (found : bracketed first next line = some groups) :
    groups.2 ≠ [] ∧ ∀ digit ∈ groups.2, digit.isDigit = true := by
  unfold bracketed at found
  split at found
  · split at found
    · next digit digits numbered =>
      obtain ⟨_, numbers⟩ := eq_of_span numbered
      split_ifs at found
      obtain rfl := Option.some.inj found
      exact ⟨List.cons_ne_nil _ _, numbers⟩
    · cases found
  · cases found

theorem matchGroups_digits {type : RsrcType} {line : Name} {groups : Name × Name}
    (found : matchGroups type line = some groups) : groups.2 ≠ [] ∧ ∀ digit ∈ groups.2,
    digit.isDigit = true := by
  cases type with
  | numeric => exact bracketed_digits found
  | sequence =>
    simp only [matchGroups, matchSequence] at found
    split at found
    · split_ifs at found
      exact bracketed_digits found
    · cases found
  | timestamp =>
    simp only [matchGroups, matchTimestamp] at found
    split at found
    · exact bracketed_digits found
    · cases found
  | _ => cases found

theorem rsrcGroups_digits {name : Name} {type : RsrcType} {groups : Name × Name}
    (found : rsrcGroups name type = some groups) : groups.2 ≠ [] ∧ ∀ digit ∈ groups.2,
    digit.isDigit = true := by
  obtain ⟨line, _, matched⟩ := List.exists_of_findSome?_eq_some found
  exact matchGroups_digits matched

theorem decimalValue_take (digits : Name) (count : Nat) :
    decimalValue digits =
      10 ^ (digits.length - count) * decimalValue (digits.take count) + decimalValue
        (digits.drop count) := by
  have split : digits = digits.take count ++ digits.drop count :=
    (List.take_append_drop count digits).symm
  have length : (digits.drop count).length = digits.length - count := List.length_drop
  conv_lhs => rw [split]
  simp only [decimalValue_eq, Nat.ofDigitChars_append]
  rw [Nat.ofDigitChars_eq_ofDigitChars_zero, length]

theorem int32_ofInt_natCast_lt {value : Nat} {bound : Nat} (small : value < 2 ^ 31) :
    (Int32.ofInt (min value bound : Nat)).toInt = (min value bound : Nat) :=
  (int32_ofInt_toInt_iff _).mpr ⟨by omega, by omega⟩

theorem stored_iff {digits : Name} (some : digits ≠ [])
    (every : ∀ digit ∈ digits, digit.isDigit = true) :
    (Int32.ofInt (strtol (digits.take 999))).toInt = decimalValue digits ↔
      decimalValue digits = 0 ∨ digits.length ≤ 999 ∧ decimalValue digits < 2 ^ 31 := by
  have head : strtol (digits.take 999) = (min (decimalValue (digits.take 999)) longMax : Nat) := by
    apply strtol_digits
    · cases digits with
      | nil => exact absurd rfl some
      | cons digit rest => simp
    · exact fun digit member => every digit (List.mem_of_mem_take member)
  have bound := (Int32.ofInt (strtol (digits.take 999))).toInt_lt
  have large : 2 ^ 31 ≤ longMax := by decide
  rw [head] at bound ⊢
  obtain short | long := le_or_gt digits.length 999
  · rw [List.take_of_length_le short] at bound ⊢
    constructor
    · intro same
      exact .inr ⟨short, by omega⟩
    · intro small
      have fits : decimalValue digits < 2 ^ 31 := by omega
      rw [int32_ofInt_natCast_lt fits]
      omega
  · have whole := decimalValue_take digits 999
    obtain ⟨more, length⟩ : ∃ more, digits.length - 999 = more + 1 :=
      ⟨digits.length - 1000, by omega⟩
    have shifted : 10 * decimalValue (digits.take 999) ≤ decimalValue digits := by
      have power : 10 ≤ 10 ^ (digits.length - 999) := by
        rw [length, Nat.pow_succ]
        exact Nat.le_mul_of_pos_left 10 (Nat.pow_pos (by decide))
      have := Nat.mul_le_mul_right (decimalValue (digits.take 999)) power
      omega
    constructor
    · intro same
      have fits : decimalValue (digits.take 999) < 2 ^ 31 := by omega
      rw [int32_ofInt_natCast_lt fits] at same
      exact .inl (by omega)
    · rintro (zero | ⟨short, _⟩)
      · have none : decimalValue (digits.take 999) = 0 := by omega
        rw [none, zero, Nat.zero_min]
        rfl
      · exact absurd short (not_le.mpr long)

theorem resourceInit_total {type : RsrcType} {name : Name} {resource : Resource} {total : Int32}
    (started : resourceInit type name = .ok resource)
    (quantity : resource.totalQuantity = some total) :
    rsrcGetNumber name type = .ok total := by
  cases type with
  | null => cases started
  | simple | set =>
    obtain rfl := Except.ok.inj started
    cases quantity
  | hier =>
    obtain ⟨rsrc, _, rfl⟩ := except_map_ok started
    cases quantity
  | numeric =>
    obtain ⟨rsrc, made, rfl⟩ := except_map_ok started
    obtain ⟨number, read, rfl⟩ := resourceNumericInit_ok made
    rw [read, ← Option.some.inj quantity]
  | sequence =>
    obtain ⟨rsrc, made, rfl⟩ := except_map_ok started
    obtain ⟨number, read, rfl⟩ := resourceSequenceInit_eq made
    rw [read, ← Option.some.inj quantity]
  | timestamp =>
    obtain ⟨rsrc, made, rfl⟩ := except_map_ok started
    obtain ⟨_, number, _, read, _, rfl⟩ := resourceTimestampInit_eq made
    rw [read, ← Option.some.inj quantity]

theorem quantity_honoured_iff (name : Name) (counted : (rsrcGetType name).counted) :
    QuantityHonoured name ↔
      decimalValue (declaredDigits name) = 0 ∨
        (declaredDigits name).length ≤ 999 ∧ decimalValue (declaredDigits name) < 2 ^ 31 := by
  obtain ⟨groups, found⟩ := rsrcGroups_typed counted rfl
  have digits : declaredDigits name = groups.2 := by rw [declaredDigits, found, Option.getD_some]
  obtain ⟨some, every⟩ := rsrcGroups_digits found
  have number : rsrcGetNumber name (rsrcGetType name) = .ok
      (Int32.ofInt (strtol (groups.2.take 999))) := by
    rw [rsrcGetNumber, found]
  rw [digits, ← stored_iff some every]
  constructor
  · intro honoured
    rw [honoured.stored _ number, digits]
  · intro same
    have stored : ∀ read, rsrcGetNumber name (rsrcGetType name) = .ok read →
        read.toInt = decimalValue (declaredDigits name) := by
      intro read ok
      rw [← Except.ok.inj (number.symm.trans ok), same, digits]
    refine ⟨stored, fun resource started total quantity => ?_⟩
    have read := stored total (resourceInit_total started quantity)
    exact ⟨by rw [read]; exact Int.natCast_nonneg _, read⟩

def tenName : Name := ['R', '[', '1', '0', ']']

theorem quantity_honoured_iff_ten :
    QuantityHonoured tenName ↔
      decimalValue (declaredDigits tenName) = 0 ∨
        (declaredDigits tenName).length ≤ 999 ∧ decimalValue (declaredDigits tenName) < 2 ^ 31 :=
  quantity_honoured_iff tenName (by decide)

def hugeName : Name := ['R', '[', '2', '1', '4', '7', '4', '8', '3', '6', '4', '8', ']']

theorem declared_quantity_wraps :
    rsrcGetType hugeName = .numeric ∧ decimalValue (declaredDigits hugeName) = 2147483648 ∧
      rsrcGetNumber hugeName .numeric = .ok (-2147483648) ∧ ¬QuantityHonoured hugeName := by
  have type : rsrcGetType hugeName = .numeric := by decide
  have number : rsrcGetNumber hugeName .numeric = .ok (-2147483648) := by decide
  have declared : decimalValue (declaredDigits hugeName) = 2147483648 := by decide
  refine ⟨type, declared, number, fun honoured => ?_⟩
  have same := honoured.stored (-2147483648) (by rw [type, number])
  rw [declared] at same
  exact absurd same (by decide)

end Flom
