import Flom.Lib.Decimal
import Flom.ResourceTimestamp
import Mathlib.Data.List.Chain
import Mathlib.Data.List.Find

set_option autoImplicit false

namespace Flom

inductive FormatPiece
  | fraction (width : Nat) (positive : 0 < width)
  | letter (char : Char)
deriving DecidableEq, Repr

def FormatPiece.source : FormatPiece → Name
  | .fraction width _ => microFormat width
  | .letter char => [char]

def FormatPiece.width : FormatPiece → Nat
  | .fraction width _ => width
  | .letter _ => 0

def FormatPiece.rendered (seconds : Name) : FormatPiece → Name
  | .fraction width _ => '.' :: (seconds.take (min width 6) ++ List.replicate (width - 6) 'f')
  | .letter char => [char]

def FormatPiece.Apart : FormatPiece → FormatPiece → Prop
  | .fraction _ _, following => following ≠ .letter 'f'
  | .letter char, following => char = '#' → following ≠ .letter 'f'

instance (piece following : FormatPiece) : Decidable (piece.Apart following) :=
  match piece with
  | .fraction _ _ => inferInstanceAs (Decidable (following ≠ .letter 'f'))
  | .letter char => inferInstanceAs (Decidable (char = '#' → following ≠ .letter 'f'))

def formatPieces : Name → List FormatPiece
  | [] => []
  | char :: rest =>
    let width := (rest.takeWhile (· = 'f')).length
    if positive : char = '#' ∧ 0 < width then .fraction width positive.2 ::
      (formatPieces rest).drop width
    else .letter char :: formatPieces rest

theorem formatPieces_letters (width : Nat) (rest : Name) :
    formatPieces (List.replicate width 'f' ++ rest) =
      List.replicate width (.letter 'f') ++ formatPieces rest := by
  induction width with
  | zero => rfl
  | succ width ih =>
    have plain :
      ¬('f' = '#' ∧ 0 < ((List.replicate width 'f' ++ rest).takeWhile (· = 'f')).length) := by simp
    rw [List.replicate_succ, List.cons_append, formatPieces, dif_neg plain, ih]
    rfl

theorem formatPieces_fraction {width : Nat} (positive : 0 < width) {after : Name}
    (stop : after.head? ≠ some 'f') :
    formatPieces (microFormat width ++ after) = .fraction width positive :: formatPieces after := by
  have run :
      (List.replicate width 'f' ++ after).takeWhile (· = 'f') = List.replicate width 'f' := by
    rw [List.takeWhile_append_of_pos (by simp)]
    cases after with
    | nil => simp
    | cons char rest =>
      have other : char ≠ 'f' := by simpa using stop
      simp [other]
  have found : '#' = '#' ∧ 0 <
      ((List.replicate width 'f' ++ after).takeWhile (· = 'f')).length := by
    simpa [run] using positive
  rw [microFormat, List.cons_append, formatPieces, dif_pos found, formatPieces_letters]
  simp [run]

theorem formatPieces_letter {char : Char} {rest : Name}
    (apart : char = '#' → rest.head? ≠ some 'f') :
    formatPieces (char :: rest) = .letter char :: formatPieces rest := by
  have plain : ¬(char = '#' ∧ 0 < (rest.takeWhile (· = 'f')).length) := by
    rintro ⟨hash, run⟩
    cases rest with
    | nil => simp at run
    | cons next rest => simp_all
  rw [formatPieces, dif_neg plain]

theorem fraction_run (text : Name) :
    ∃ width after, text = List.replicate width 'f' ++ after ∧ after.head? ≠ some 'f' := by
  induction text with
  | nil => exact ⟨0, [], rfl, by simp⟩
  | cons char rest ih =>
    by_cases same : char = 'f'
    · obtain ⟨width, after, rfl, stop⟩ := ih
      exact ⟨width + 1, after, by rw [same]; rfl, stop⟩
    · exact ⟨0, char :: rest, rfl, by simpa using same⟩

theorem format_induction {motive : Name → Prop} (nil : motive [])
    (fraction : ∀ width after, 0 < width → after.head? ≠ some 'f' → motive after →
      motive (microFormat width ++ after))
    (letter : ∀ char rest, (char = '#' → rest.head? ≠ some 'f') → motive rest →
      motive (char :: rest)) (format : Name) : motive format := by
  induction size : format.length using Nat.strong_induction_on generalizing format with
  | _ bound ih =>
    cases format with
    | nil => exact nil
    | cons char rest =>
      obtain ⟨width, after, rfl, stop⟩ := fraction_run rest
      by_cases found : char = '#' ∧ 0 < width
      · obtain ⟨rfl, positive⟩ := found
        apply fraction width after positive stop
        have smaller : after.length < bound := by
          rw [← size, List.length_cons, List.length_append]
          omega
        exact ih after.length smaller after rfl
      · apply letter char
        · intro hash
          obtain rfl : width = 0 := by simpa [hash] using found
          exact stop
        · exact ih _ (by simp [← size]) _ rfl

theorem formatPieces_source (format : Name) :
    (formatPieces format).flatMap FormatPiece.source = format := by
  induction format using format_induction with
  | nil => rfl
  | fraction width after positive stop ih =>
    rw [formatPieces_fraction positive stop, List.flatMap_cons, ih]
    rfl
  | letter char rest apart ih =>
    rw [formatPieces_letter apart, List.flatMap_cons, ih]
    rfl

theorem formatPieces_head {format : Name}
    (head : (formatPieces format).head? = some (.letter 'f')) :
    format.head? = some 'f' := by
  induction format using format_induction with
  | nil => simp [formatPieces] at head
  | fraction width after positive stop _ => simp [formatPieces_fraction positive stop] at head
  | letter char rest apart _ => simpa [formatPieces_letter apart] using head

theorem formatPieces_apart (format : Name) : (formatPieces format).IsChain FormatPiece.Apart := by
  induction format using format_induction with
  | nil => exact List.isChain_nil
  | fraction width after positive stop ih =>
    rw [formatPieces_fraction positive stop, List.isChain_cons]
    refine ⟨fun following first same => stop ?_, ih⟩
    exact formatPieces_head (by rw [first, same])
  | letter char rest apart ih =>
    rw [formatPieces_letter apart, List.isChain_cons]
    refine ⟨fun following first hash same => apart hash ?_, ih⟩
    exact formatPieces_head (by rw [first, same])

theorem run_starts {digits width : Nat} {after : Name} (stop : after.head? ≠ some 'f') :
    List.replicate digits 'f' <+: List.replicate width 'f' ++ after ↔ digits ≤ width := by
  induction digits generalizing width with
  | zero => simp
  | succ digits ih =>
    cases width with
    | zero =>
      cases after with
      | nil => simp
      | cons char rest =>
        have other : 'f' ≠ char := by simpa [eq_comm] using stop
        simp [List.replicate_succ, other]
    | succ width => simp [List.replicate_succ, ih]

theorem microFormat_starts {digits width : Nat} {after : Name} (stop : after.head? ≠ some 'f') :
    microFormat digits <+: microFormat width ++ after ↔ digits ≤ width := by
  rw [microFormat, microFormat, List.cons_append, List.cons_prefix_cons, run_starts stop]
  simp

theorem microFormat_missing {digits : Nat} (positive : 0 < digits) {char : Char} {rest : Name}
    (apart : char = '#' → rest.head? ≠ some 'f') : ¬microFormat digits <+: char :: rest := by
  intro found
  obtain ⟨hash, run⟩ := List.cons_prefix_cons.mp found
  have none : digits ≤ 0 := (@run_starts digits 0 rest (apart hash.symm)).mp run
  omega

def FormatPiece.current (seconds : Name) (done : Nat → Bool) : FormatPiece → Name
  | .fraction width positive =>
    if done width then rendered seconds (.fraction width positive) else source
      (.fraction width positive)
  | .letter char => [char]

theorem current_head {seconds : Name} {done : Nat → Bool} {format : Name}
    (head : ((formatPieces format).flatMap (FormatPiece.current seconds done)).head? = some 'f') :
    format.head? = some 'f' := by
  induction format using format_induction with
  | nil => simp [formatPieces] at head
  | fraction width after positive stop _ =>
    rw [formatPieces_fraction positive stop, List.flatMap_cons, FormatPiece.current] at head
    split at head <;> simp [FormatPiece.rendered, FormatPiece.source, microFormat] at head
  | letter char rest apart _ => simpa [formatPieces_letter apart, FormatPiece.current] using head

theorem substituteFraction_found (digits : Nat) (seconds : Name) (fuel : Nat) (after : Name) :
    substituteFraction digits seconds (fuel + 1) (microFormat digits ++ after) =
      '.' :: (seconds.take digits ++ substituteFraction digits seconds fuel after) := by
  have found : (microFormat digits).isPrefixOf (microFormat digits ++ after) := by simp
  rw [microFormat, List.cons_append] at *
  rw [substituteFraction, microFormat, if_pos found, List.drop_left' (by simp)]

theorem substituteFraction_kept {digits : Nat} {seconds : Name} {fuel : Nat} {char : Char}
    {rest : Name} (missing : ¬microFormat digits <+: char :: rest) :
    substituteFraction digits seconds (fuel + 1) (char :: rest) =
      char :: substituteFraction digits seconds fuel rest := by
  rw [substituteFraction, if_neg (by simpa using missing)]

theorem substituteFraction_skip {digits : Nat} {seconds clean : Name} (plain : '#' ∉ clean)
    (fuel : Nat) (rest : Name) :
    substituteFraction digits seconds (clean.length + fuel) (clean ++ rest) =
      clean ++ substituteFraction digits seconds fuel rest := by
  induction clean with
  | nil => simp
  | cons char clean ih =>
    have other : '#' ≠ char := fun same => plain (same ▸ List.mem_cons_self)
    have step : (char :: clean).length + fuel = clean.length + fuel + 1 := by simp; omega
    rw [step, List.cons_append, substituteFraction]
    simp [microFormat, other, ih fun mem => plain (List.mem_cons_of_mem _ mem)]

theorem substituteFraction_enough {digits : Nat} {seconds clean rest changed : Name}
    (plain : '#' ∉ clean) {fuel : Nat} (enough : (clean ++ rest).length ≤ fuel)
    (after : ∀ left, rest.length ≤ left → substituteFraction digits seconds left rest = changed) :
    substituteFraction digits seconds fuel (clean ++ rest) = clean ++ changed := by
  obtain ⟨left, rfl⟩ : ∃ left, fuel = clean.length + left :=
    Nat.exists_eq_add_of_le (by simp at enough; omega)
  rw [substituteFraction_skip plain, after left (by simp at enough; omega)]

theorem rendered_plain {seconds : Name} (plain : '#' ∉ seconds) {width : Nat}
    (positive : 0 < width) :
    '#' ∉ FormatPiece.rendered seconds (.fraction width positive) := by
  intro mem
  simp only [FormatPiece.rendered, List.mem_cons, List.mem_append, List.mem_replicate] at mem
  rcases mem with dot | digit | run
  · simp at dot
  · exact plain (List.mem_of_mem_take digit)
  · simp at run

theorem substituteFraction_pass {digits : Nat} {seconds : Name} (some : 0 < digits)
    (plain : '#' ∉ seconds) {done : Nat → Bool}
    (exact : ∀ width, done width = false → digits ≤ width → min width 6 = digits) (format : Name)
    (fuel : Nat) (enough : ((formatPieces format).flatMap (FormatPiece.current seconds done)).length
      ≤ fuel) :
    substituteFraction digits seconds fuel
      ((formatPieces format).flatMap (FormatPiece.current seconds done)) =
        (formatPieces format).flatMap
          (FormatPiece.current seconds fun width => done width || decide (digits ≤ width)) := by
  induction format using format_induction generalizing fuel with
  | nil => cases fuel <;> rfl
  | fraction width after positive stop ih =>
    rw [formatPieces_fraction positive stop, List.flatMap_cons, List.flatMap_cons] at *
    have next := fun head => stop (@current_head seconds done after head)
    by_cases already : done width
    · rw [FormatPiece.current, FormatPiece.current, if_pos already, if_pos (by simp [already])] at *
      exact substituteFraction_enough (rendered_plain plain positive) enough ih
    · rw [FormatPiece.current, FormatPiece.current, if_neg already] at *
      obtain ⟨left, rfl⟩ : ∃ left, fuel = left + 1 :=
        Nat.exists_eq_add_of_le' (by simp [FormatPiece.source, microFormat] at enough; omega)
      by_cases wide : digits ≤ width
      · have number := exact width (by simpa using already) wide
        have shape : microFormat width = microFormat digits ++ List.replicate
            (width - digits) 'f' := by
          rw [microFormat, microFormat, List.cons_append, List.replicate_append_replicate]
          rw [Nat.add_sub_cancel' wide]
        have same : width - digits = width - 6 := by omega
        rw [if_pos (by simp [wide]), FormatPiece.rendered, FormatPiece.source, shape,
          List.append_assoc,
          substituteFraction_found, number, same]
        simp only [List.cons_append, List.append_assoc]
        congr 2
        apply substituteFraction_enough (by simp) _ ih
        simp [FormatPiece.source, microFormat] at enough ⊢
        omega
      · rw [if_neg (by simp [already, wide])]
        have missing : ¬microFormat digits <+: '#' :: (List.replicate width 'f' ++ _) :=
          (microFormat_starts next).not.mpr wide
        rw [FormatPiece.source, microFormat, List.cons_append, substituteFraction_kept missing,
          List.cons_append]
        congr 1
        apply substituteFraction_enough (by simp) _ ih
        simpa [FormatPiece.source, microFormat] using enough
  | letter char rest apart ih =>
    rw [formatPieces_letter apart, List.flatMap_cons, List.flatMap_cons] at *
    obtain ⟨left, rfl⟩ : ∃ left, fuel = left + 1 :=
      Nat.exists_eq_add_of_le' (by simp [FormatPiece.current] at enough; omega)
    have missing := microFormat_missing some fun hash head =>
      apart hash (@current_head seconds done rest head)
    simp only [FormatPiece.current, List.cons_append, List.nil_append, List.length_cons] at *
    rw [substituteFraction_kept missing, ih left (by omega)]

def widerThan (least width : Nat) : Bool := decide (least ≤ width)

def passedText (seconds : Name) (least : Nat) (format : Name) : Name :=
  (formatPieces format).flatMap (FormatPiece.current seconds (widerThan least))

theorem substituteFraction_next {digits : Nat} {seconds : Name} (some : 0 < digits)
    (short : digits < 6) (plain : '#' ∉ seconds) (format : Name) :
    substituteFraction digits seconds (passedText seconds (digits + 1) format).length
      (passedText seconds (digits + 1) format) = passedText seconds digits format := by
  have exact : ∀ width, widerThan (digits + 1) width = false → digits ≤ width →
      min width 6 = digits := by
    intro width below wide
    simp only [widerThan, decide_eq_false_iff_not] at below
    omega
  have both : (fun width => widerThan (digits + 1) width || decide (digits ≤ width)) =
      widerThan digits := by
    funext width
    simp only [widerThan, ← Bool.decide_or, decide_eq_decide]
    omega
  exact (substituteFraction_pass some plain exact format _ (le_refl _)).trans
    (by rw [both, passedText])

theorem substituteFraction_first {seconds : Name} (plain : '#' ∉ seconds) (format : Name) :
    substituteFraction 6 seconds format.length format = passedText seconds 6 format := by
  have whole :
      (formatPieces format).flatMap (FormatPiece.current seconds fun _ => false) = format := by
    have same : FormatPiece.current seconds (fun _ => false) = FormatPiece.source := by
      funext piece
      cases piece <;> rfl
    rw [same, formatPieces_source]
  have pass := @substituteFraction_pass 6 seconds (by decide) plain (fun _ => false)
    (fun width _ wide => by omega) format _ (le_refl _)
  rw [whole] at pass
  simp only [Bool.false_or] at pass
  exact pass

theorem microSeconds_digits {usec : Int} (high : usec < 1000000) :
    microSeconds usec = Decimal.fixedDigits 6 usec.toNat := by
  rw [microSeconds, Decimal.fixedDigits_padded (by omega)]

theorem microSeconds_plain {usec : Int} (high : usec < 1000000) : '#' ∉ microSeconds usec := by
  intro mem
  rw [microSeconds_digits high] at mem
  exact absurd (Decimal.fixedDigits_isDigit mem) (by decide)

theorem timestampFormat_pieces (format : Name) {usec : Int} (high : usec < 1000000) :
    timestampFormat format usec =
      (formatPieces format).flatMap (FormatPiece.rendered (Decimal.fixedDigits 6 usec.toNat)) := by
  have plain := microSeconds_plain high
  have all : FormatPiece.current (microSeconds usec) (widerThan 1) =
      FormatPiece.rendered (Decimal.fixedDigits 6 usec.toNat) := by
    funext piece
    rw [← microSeconds_digits high]
    cases piece with
    | fraction width positive => exact if_pos (decide_eq_true positive)
    | letter char => rfl
  simp only [timestampFormat, List.foldl_cons, List.foldl_nil]
  rw [substituteFraction_first plain, substituteFraction_next (show 0 < 5 by decide)
    (by decide) plain,
    substituteFraction_next (show 0 < 4 by decide) (by decide) plain,
    substituteFraction_next (show 0 < 3 by decide) (by decide) plain,
    substituteFraction_next (show 0 < 2 by decide) (by decide) plain,
    substituteFraction_next (show 0 < 1 by decide) (by decide) plain, passedText, all]

theorem rendered_length {seconds : Name} (six : seconds.length = 6) (piece : FormatPiece) :
    (piece.rendered seconds).length = piece.source.length := by
  cases piece with
  | fraction width positive =>
    simp [FormatPiece.rendered, FormatPiece.source, microFormat, six]
    omega
  | letter char => rfl

theorem timestampFormat_length (format : Name) {usec : Int} (high : usec < 1000000) :
    (timestampFormat format usec).length = format.length := by
  rw [timestampFormat_pieces format high]
  conv_rhs => rw [← formatPieces_source format]
  rw [List.length_flatMap, List.length_flatMap]
  congr 1
  exact List.map_congr_left fun piece _ => rendered_length (by simp) piece

theorem infix_skip {digits : Nat} {clean rest : Name} (plain : '#' ∉ clean) :
    microFormat digits <:+: clean ++ rest ↔ microFormat digits <:+: rest := by
  induction clean with
  | nil => rfl
  | cons char clean ih =>
    have other : '#' ≠ char := fun same => plain (same ▸ List.mem_cons_self)
    rw [List.cons_append, List.infix_cons_iff, ih fun mem => plain (List.mem_cons_of_mem _ mem)]
    simp [microFormat, other]

theorem microFormat_infix {digits : Nat} (some : 0 < digits) (format : Name) :
    microFormat digits <:+: format ↔ ∃ piece ∈ formatPieces format, digits ≤ piece.width := by
  induction format using format_induction with
  | nil => simp [microFormat, formatPieces]
  | fraction width after positive stop ih =>
    have skip : microFormat digits <:+: List.replicate width 'f' ++ after ↔
        microFormat digits <:+: after :=
      infix_skip (by simp)
    have split : microFormat digits <:+: microFormat width ++ after ↔
        digits ≤ width ∨ microFormat digits <:+: after := by
      rw [← microFormat_starts stop, ← skip]
      exact List.infix_cons_iff
    rw [formatPieces_fraction positive stop, split, ih, List.exists_mem_cons_iff]
    rfl
  | letter char rest apart ih =>
    have narrow : ¬digits ≤ (FormatPiece.letter char).width := Nat.not_le.mpr some
    rw [formatPieces_letter apart, List.infix_cons_iff, ih, List.exists_mem_cons_iff]
    simp [microFormat_missing some apart, narrow]

theorem widest_search {longest : Nat} (positive : 0 < longest) :
    [6, 5, 4, 3, 2, 1].find? (fun digits => decide (digits ≤ longest)) = some (min longest 6) := by
  match longest, positive with
  | 1, _ | 2, _ | 3, _ | 4, _ | 5, _ => rfl
  | more + 6, _ => simp

theorem timestampInterval_longest {format : Name} {longest : FormatPiece}
    (mem : longest ∈ formatPieces format) (positive : 0 < longest.width)
    (most : ∀ piece ∈ formatPieces format, piece.width ≤ longest.width) :
    timestampInterval format = ⟨0, 10 ^ (6 - min longest.width 6)⟩ := by
  have found : ∀ digits ∈ [6, 5, 4, 3, 2, 1],
      decide (microFormat digits <:+: format) = decide (digits ≤ longest.width) := by
    intro digits listed
    have some : 0 < digits := by revert digits; decide
    rw [decide_eq_decide, microFormat_infix some]
    constructor
    · rintro ⟨piece, mem, wide⟩
      exact wide.trans (most piece mem)
    · intro wide
      exact ⟨longest, mem, wide⟩
  have search : [6, 5, 4, 3, 2, 1].find? (fun digits => decide (microFormat digits <:+: format)) =
      some (min longest.width 6) := by
    rw [List.find?_congr found, widest_search positive]
  simp only [timestampInterval, search]

theorem rendered_inj {first second : Name} (piece : FormatPiece) :
    piece.rendered first = piece.rendered second ↔
      first.take (min piece.width 6) = second.take (min piece.width 6) := by
  cases piece <;> simp [FormatPiece.rendered, FormatPiece.width]

theorem quotient_crosses {first second step : Int} (positive : 0 < step) (le : first ≤ second) :
    first / step ≠ second / step ↔ ∃ multiple : Int, first < multiple * step ∧
    multiple * step ≤ second := by
  constructor
  · intro different
    have order := Int.ediv_le_ediv positive le
    refine ⟨second / step, ?_, Int.ediv_mul_le second positive.ne'⟩
    exact (Int.ediv_lt_iff_lt_mul positive).mp (by omega)
  · rintro ⟨multiple, above, below⟩
    have before := (Int.ediv_lt_iff_lt_mul positive).mpr above
    have reached := (Int.le_ediv_iff_mul_le positive).mpr below
    omega

theorem take_fixedDigits_inj {kept first second : Nat} (le : kept ≤ 6) (firstFits : first < 1000000)
    (secondFits : second < 1000000) :
    (Decimal.fixedDigits 6 first).take kept = (Decimal.fixedDigits 6 second).take kept ↔
      first / 10 ^ (6 - kept) = second / 10 ^ (6 - kept) := by
  have fits : ∀ number, number < 1000000 → number / 10 ^ (6 - kept) < 10 ^ kept := by
    intro number below
    rw [Nat.div_lt_iff_lt_mul (Nat.pow_pos (by decide)), ← Nat.pow_add, Nat.add_sub_cancel' le]
    exact below
  rw [Decimal.take_fixedDigits le, Decimal.take_fixedDigits le]
  exact Decimal.fixedDigits_inj (fits first firstFits) (fits second secondFits)

theorem longest_fraction_changes {format : Name} {longest : FormatPiece}
    (mem : longest ∈ formatPieces format) (positive : 0 < longest.width)
    (most : ∀ piece ∈ formatPieces format, piece.width ≤ longest.width) {usec later : Int}
    (low : 0 ≤ usec) (order : usec ≤ later) (high : later < 1000000) :
    longest.rendered (Decimal.fixedDigits 6 usec.toNat) ≠ longest.rendered
      (Decimal.fixedDigits 6 later.toNat) ↔
        ∃ multiple : Int, usec < multiple * (timestampInterval format).usec ∧
          multiple * (timestampInterval format).usec ≤ later := by
  have step : (0 : Int) < 10 ^ (6 - min longest.width 6) := Int.pow_pos (by decide)
  rw [timestampInterval_longest mem positive most, ← quotient_crosses step order, Ne, rendered_inj,
    take_fixedDigits_inj (Nat.min_le_right _ _) (by omega) (by omega), ← Int.toNat_of_nonneg low,
    ← Int.toNat_of_nonneg (low.trans order)]
  norm_cast

theorem fraction_rendering (format : Name) (usec : Int) (low : 0 ≤ usec) (high : usec < 1000000) :
    (formatPieces format).flatMap FormatPiece.source = format ∧
      (formatPieces format).IsChain FormatPiece.Apart ∧
      timestampFormat format usec =
        (formatPieces format).flatMap (FormatPiece.rendered (Decimal.fixedDigits 6 usec.toNat)) ∧
      (timestampFormat format usec).length = format.length ∧
      ∀ longest ∈ formatPieces format, 0 < longest.width →
        (∀ piece ∈ formatPieces format, piece.width ≤ longest.width) →
        ∀ later, usec ≤ later → later < 1000000 →
          (longest.rendered (Decimal.fixedDigits 6 usec.toNat) ≠
              longest.rendered (Decimal.fixedDigits 6 later.toNat) ↔
            ∃ multiple : Int, usec < multiple * (timestampInterval format).usec ∧
              multiple * (timestampInterval format).usec ≤ later) := by
  refine ⟨formatPieces_source format, formatPieces_apart format, timestampFormat_pieces format high,
    timestampFormat_length format high, ?_⟩
  intro longest mem positive most later order bound
  exact longest_fraction_changes mem positive most low order bound

theorem fraction_rendering_hundredths :
    timestampFormat ['%', 'S', '#', 'f', 'f', '#'] 129999 = ['%', 'S', '.', '1', '2', '#'] ∧
      ∃ multiple : Int, 129999 < multiple * 10000 ∧ multiple * 10000 ≤ 130000 := by
  have rendering := fraction_rendering ['%', 'S', '#', 'f', 'f', '#'] 129999 (by decide) (by decide)
  refine ⟨rendering.2.2.1.trans (by decide), ?_⟩
  have changes := rendering.2.2.2.2 (.fraction 2 (by decide)) (by decide) (by decide)
    (by decide) 130000
  exact (changes (by decide) (by decide)).mp (by decide)

end Flom
