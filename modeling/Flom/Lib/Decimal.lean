import Mathlib.Data.Nat.Digits.Defs
import Mathlib.Data.List.TakeDrop

set_option autoImplicit false

namespace Decimal

def fixedDigits : Nat → Nat → List Char
  | 0, _ => []
  | width + 1, number => fixedDigits width (number / 10) ++ [(number % 10).digitChar]

@[simp] theorem fixedDigits_length (width number : Nat) :
    (fixedDigits width number).length = width := by
  induction width generalizing number with
  | zero => rfl
  | succ width ih => simp [fixedDigits, ih]

theorem fixedDigits_isDigit {width number : Nat} {letter : Char}
    (mem : letter ∈ fixedDigits width number) :
    letter.isDigit := by
  induction width generalizing number with
  | zero => simp [fixedDigits] at mem
  | succ width ih =>
    rcases List.mem_append.mp mem with before | last
    · exact ih before
    · rw [List.mem_singleton.mp last]
      simp [Nat.mod_lt]

theorem digitChar_inj {first second : Nat} (firstLt : first < 10) (secondLt : second < 10)
    (same : first.digitChar = second.digitChar) : first = second := by
  have distinct : ∀ one other : Fin 10, one.1.digitChar = other.1.digitChar → one = other := by
    decide
  exact congrArg Fin.val (distinct ⟨first, firstLt⟩ ⟨second, secondLt⟩ same)

theorem fixedDigits_zero (width : Nat) : fixedDigits width 0 = List.replicate width '0' := by
  induction width with
  | zero => rfl
  | succ width ih => rw [fixedDigits, Nat.zero_div, ih, List.replicate_succ']; rfl

theorem fixedDigits_padded {width number : Nat} (fits : number < 10 ^ (width + 1)) :
    fixedDigits (width + 1) number =
      List.replicate (width + 1 - (Nat.toDigits 10 number).length) '0' ++
        Nat.toDigits 10 number := by
  induction width generalizing number with
  | zero =>
    have single : number < 10 := by simpa using fits
    rw [Nat.toDigits_of_lt_base single]
    simp [fixedDigits, Nat.mod_eq_of_lt single]
  | succ width ih =>
    rw [fixedDigits]
    by_cases single : number < 10
    · rw [Nat.toDigits_of_lt_base single, Nat.div_eq_of_lt single, Nat.mod_eq_of_lt single,
        fixedDigits_zero]
      simp
    · have smaller : number / 10 < 10 ^ (width + 1) := by
        rw [Nat.pow_succ] at fits
        omega
      rw [Nat.toDigits_of_base_le (by decide) (Nat.le_of_not_lt single), ih smaller]
      simp

theorem take_fixedDigits {kept width : Nat} (le : kept ≤ width) (number : Nat) :
    (fixedDigits width number).take kept = fixedDigits kept (number / 10 ^ (width - kept)) := by
  induction width generalizing number with
  | zero =>
    obtain rfl : kept = 0 := Nat.le_zero.mp le
    rfl
  | succ width ih =>
    rcases Nat.le_succ_iff.mp le with shorter | rfl
    · rw [fixedDigits, List.take_append_of_le_length (by simpa using shorter), ih shorter,
        Nat.div_div_eq_div_mul,
        Nat.succ_sub shorter, Nat.pow_succ']
    · simp [List.take_of_length_le]

theorem fixedDigits_inj {width first second : Nat} (firstFits : first < 10 ^ width)
    (secondFits : second < 10 ^ width) : fixedDigits width first = fixedDigits width second ↔
    first = second := by
  refine ⟨fun same => ?_, fun same => same ▸ rfl⟩
  induction width generalizing first second with
  | zero => simp_all
  | succ width ih =>
    rw [Nat.pow_succ] at firstFits secondFits
    obtain ⟨front, last⟩ := List.append_inj' same rfl
    have quotients : first / 10 = second / 10 := ih (by omega) (by omega) front
    have remainders : first % 10 = second % 10 :=
      digitChar_inj (Nat.mod_lt _ (by decide)) (Nat.mod_lt _ (by decide))
        (List.singleton_inj.mp last)
    omega

theorem toDigits_inj {first second : Nat} (same : Nat.toDigits 10 first = Nat.toDigits 10 second) :
    first = second := by
  have firstFits : first < 10 ^ (first + second + 1) := by
    have := Nat.lt_pow_self (n := first + second + 1) (show 1 < 10 by decide)
    omega
  have secondFits : second < 10 ^ (first + second + 1) := by
    have := Nat.lt_pow_self (n := first + second + 1) (show 1 < 10 by decide)
    omega
  apply (fixedDigits_inj firstFits secondFits).mp
  rw [fixedDigits_padded firstFits, fixedDigits_padded secondFits, same]

theorem toDigits_fits (number : Nat) : number < 10 ^ (Nat.toDigits 10 number).length :=
  (Nat.length_toDigits_le_iff (by decide) Nat.length_toDigits_pos).mp (le_refl _)

def decimal (least number : Nat) : List Char :=
  fixedDigits (max least (Nat.toDigits 10 number).length) number

theorem decimal_length (least number : Nat) :
    (decimal least number).length = max least (Nat.toDigits 10 number).length :=
  fixedDigits_length _ _

theorem decimal_length_short {least number : Nat} (some : 0 < least) (fits : number < 10 ^ least) :
    (decimal least number).length = least := by
  rw [decimal_length]
  exact max_eq_left ((Nat.length_toDigits_le_iff (by decide) some).mpr fits)

theorem decimal_length_mono {least first second : Nat} (le : first ≤ second) :
    (decimal least first).length ≤ (decimal least second).length := by
  have fits := le.trans_lt (toDigits_fits second)
  have shorter := (Nat.length_toDigits_le_iff (by decide) Nat.length_toDigits_pos).mpr fits
  rw [decimal_length, decimal_length]
  exact max_le_max (le_refl _) shorter

theorem decimal_inj {least first second : Nat} (same : decimal least first = decimal least second) :
    first = second := by
  have widths := congrArg List.length same
  rw [decimal_length, decimal_length] at widths
  have fits : ∀ number, number < 10 ^ max least (Nat.toDigits 10 number).length := fun number =>
    (toDigits_fits number).trans_le (Nat.pow_le_pow_right (by decide) (le_max_right _ _))
  unfold decimal at same
  rw [widths] at same
  exact (fixedDigits_inj (widths ▸ fits first) (fits second)).mp same

end Decimal
