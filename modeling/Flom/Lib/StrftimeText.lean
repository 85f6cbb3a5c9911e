import Flom.Lib.Strftime
import Mathlib.Data.List.Forall2

set_option autoImplicit false

namespace Strftime

open Calendar Decimal

section

variable {A : Type} {counted : A → Bool}

/-- How two texts at the same place of a longer one are told apart: the later one counts no less.
-/
structure Readable (counted : A → Bool) (early late : List A) : Prop where
  grows : early.countP counted ≤ late.countP counted
  apart : early.countP counted = late.countP counted → ∀ rest rest', early ++ rest = late ++ rest' →
    early = late

variable {early late : List A} {earlies lates : List (List A)}

theorem Readable.refl (text : List A) : Readable counted text text :=
  ⟨le_refl _, fun _ _ _ _ => rfl⟩

theorem readable_of_length (all : ∀ item ∈ early, counted item = true)
    (all' : ∀ item ∈ late, counted item = true) (le : early.length ≤ late.length) :
    Readable counted early late := by
  have count := List.countP_eq_length.mpr all
  have count' := List.countP_eq_length.mpr all'
  refine ⟨by omega, fun equal rest rest' same => (List.append_inj same (by omega)).1⟩

theorem readable_of_prefix (none : early.countP counted = 0) (none' : late.countP counted = 0)
    (free : early <+: late ∨ late <+: early → early = late) : Readable counted early late := by
  refine ⟨by omega, fun _ rest rest' same => free ?_⟩
  exact List.prefix_or_prefix_of_prefix ⟨rest, rfl⟩ ⟨rest', same.symm⟩

theorem countP_flatten_le (readable : List.Forall₂ (Readable counted) earlies lates) :
    earlies.flatten.countP counted ≤ lates.flatten.countP counted := by
  induction readable with
  | nil => exact le_refl _
  | cons first _ ih =>
    rw [List.flatten_cons, List.flatten_cons, List.countP_append, List.countP_append]
    exact Nat.add_le_add first.grows ih

theorem flatten_inj (readable : List.Forall₂ (Readable counted) earlies lates)
    (same : earlies.flatten = lates.flatten) : earlies = lates := by
  induction readable with
  | nil => rfl
  | @cons early late _ _ first rest ih =>
    rw [List.flatten_cons, List.flatten_cons] at same
    have whole := congrArg (List.countP counted) same
    rw [List.countP_append, List.countP_append] at whole
    have grows := first.grows
    have later := countP_flatten_le rest
    obtain rfl : early = late := first.apart (by omega) _ _ same
    rw [ih (List.append_cancel_left same)]

end

def nonLetter (char : Char) : Bool := decide (char.val < 'A'.val)

theorem nonLetter_of_digit {char : Char} (digit : char.isDigit = true) : nonLetter char = true := by
  simp only [Char.isDigit, Bool.and_eq_true, decide_eq_true_eq] at digit
  exact decide_eq_true (UInt32.lt_of_le_of_lt digit.2 (by decide))

theorem decimal_nonLetter {least number : Nat} {char : Char} (mem : char ∈ decimal least number) :
    nonLetter char = true := nonLetter_of_digit (fixedDigits_isDigit mem)

section

variable {plus : Bool} {least first second : Nat}

theorem signedDecimal_nonLetter {char : Char} (mem : char ∈ signedDecimal plus least first) :
    nonLetter char = true := by
  rcases List.mem_append.mp mem with sign | digit
  · split_ifs at sign
    · rw [List.mem_singleton.mp sign]
      decide
    · cases sign
  · exact decimal_nonLetter digit

theorem signedDecimal_short (fits : first < 10 ^ least) :
    signedDecimal plus least first = decimal least first := by
  rw [signedDecimal, if_neg (by omega), List.nil_append]

theorem signedDecimal_length_mono (le : first ≤ second) :
    (signedDecimal plus least first).length ≤ (signedDecimal plus least second).length := by
  have digits := @decimal_length_mono least _ _ le
  simp only [signedDecimal, List.length_append]
  split_ifs with one other
  · exact Nat.add_le_add_left digits _
  · exact absurd ⟨one.1, one.2.trans le⟩ other
  · rw [List.length_nil, List.length_singleton]
    omega
  · exact Nat.add_le_add_left digits _

theorem signedDecimal_inj
    (same : signedDecimal plus least first = signedDecimal plus least second) :
    first = second := by
  have mixed {short long : Nat} (fits : short < 10 ^ least) (large : 10 ^ least ≤ long)
      (equal : decimal least short = '+' :: decimal least long) : False := by
    have lengths := congrArg List.length equal
    have longer := @decimal_length_mono least _ _ (fits.le.trans large)
    simp at lengths
    omega
  unfold signedDecimal at same
  split_ifs at same with one other other
  · exact decimal_inj (List.append_cancel_left same)
  · exact absurd (mixed (not_le.mp fun large => other ⟨one.1, large⟩) one.2 same.symm) id
  · exact absurd (mixed (not_le.mp fun large => one ⟨other.1, large⟩) other.2 same) id
  · exact decimal_inj same

end

theorem blankDecimal_nonLetter {number : Nat} {char : Char} (mem : char ∈ blankDecimal number) :
    nonLetter char = true := by
  unfold blankDecimal at mem
  split_ifs at mem
  · rcases List.mem_cons.mp mem with rfl | digit
    · decide
    · exact decimal_nonLetter digit
  · exact decimal_nonLetter mem

theorem blankDecimal_length {number : Nat} (fits : number < 100) :
    (blankDecimal number).length = 2 := by
  unfold blankDecimal
  split_ifs
  · rw [List.length_cons, decimal_length_short (by decide) (by omega)]
  · exact decimal_length_short (by decide) (by omega)

theorem blankDecimal_inj {first second : Nat} (same : blankDecimal first = blankDecimal second) :
    first = second := by
  have mixed {short long : Nat} (equal : ' ' :: decimal 1 short = decimal 2 long) : False := by
    have blank : ' ' ∈ decimal 2 long := equal ▸ List.mem_cons_self
    exact absurd (fixedDigits_isDigit blank) (by decide)
  unfold blankDecimal at same
  split_ifs at same
  · exact decimal_inj (List.cons_inj_right _ |>.mp same)
  · exact absurd (mixed same) id
  · exact absurd (mixed same.symm) id
  · exact decimal_inj same

theorem yearStart_1969 : yearStart 1969 = -365 := by decide

section

variable {zone : Zone} {time time' : BrokenTime} {earlier later : Int}

theorem localtime_number (counted : 0 ≤ earlier) : -2 ≤ (localtime zone earlier).date.number := by
  have near := zone.near
  simp only [localtime, number_of, Zone.offset]
  omega

theorem localtime_year (counted : 0 ≤ earlier) : 1969 ≤ (localtime zone earlier).date.year := by
  by_contra before
  have starts := yearStart_lt (show (localtime zone earlier).date.year < 1969 by omega)
  have number := @localtime_number zone _ counted
  have last := (localtime zone earlier).date.last
  rw [yearStart_1969] at starts
  unfold Date.number at number
  omega

theorem localtime_number_le (le : earlier ≤ later) :
    (localtime zone earlier).date.number ≤ (localtime zone later).date.number := by
  simp only [localtime, number_of]
  omega

theorem value_le {field : Field} (grows : field.grows = true) (le : earlier ≤ later) :
    value zone (localtime zone earlier) field ≤ value zone (localtime zone later) field := by
  have numbers := @localtime_number_le zone _ _ le
  have years := year_le numbers
  cases field with
  | date field =>
    cases field with
    | year => exact years
    | century => exact Int.ediv_le_ediv (by decide) years
    | isoYear => exact isoYear_le numbers
    | _ => cases grows
  | epoch => simpa [value, mktime_localtime] using le
  | _ => cases grows

theorem value_grown_nonneg {field : Field} (grows : field.grows = true) (counted : 0 ≤ earlier) :
    0 ≤ value zone (localtime zone earlier) field := by
  have year := @localtime_year zone _ counted
  cases field with
  | date field =>
    cases field with
    | year =>
      simp only [value, Date.value]
      omega
    | century =>
      simp only [value, Date.value]
      omega
    | isoYear =>
      have near := isoYear_near (localtime zone earlier).date
      simp only [value, Date.value]
      omega
    | _ => cases grows
  | epoch => simpa [value, mktime_localtime] using counted
  | _ => cases grows

theorem value_steady {field : Field} (steady : field.grows = false) :
    0 ≤ value zone time field ∧ value zone time field < 10 ^ field.digits := by
  have first := time.first
  have last := time.last
  cases field with
  | date field =>
    have month := month_bounds time.date
    have monthDay := monthDay_bounds time.date
    have weekday := weekday_bounds time.date
    have weeks := weeks_bounds time.date
    have isoWeek := isoWeek_bounds time.date
    have := time.date.first
    have := time.date.last
    have := yearLength_cases time.date.year
    cases field <;> simp [Field.grows] at steady <;> simp only [value, Date.value, Field.digits] <;>
      omega
  | epoch => cases steady
  | _ => simp only [value, Field.digits]; omega

theorem value_nonneg (field : Field) (counted : 0 ≤ earlier) :
    0 ≤ value zone (localtime zone earlier) field := by
  by_cases grows : field.grows = true
  · exact value_grown_nonneg grows counted
  · exact (value_steady (Bool.eq_false_iff.mpr grows)).1

theorem value_fits {field : Field} (steady : field.grows = false) :
    (value zone time field).toNat < 10 ^ field.digits := by
  obtain ⟨low, high⟩ := @value_steady zone time _ steady
  exact (Int.toNat_lt low).mpr (by exact_mod_cast high)

theorem digits_pos (field : Field) : 0 < field.digits := by
  unfold Field.digits
  split <;> decide

theorem number_readable (field : Field) (plus : Bool) (le : earlier ≤ later) :
    Readable nonLetter ((Spec.number field plus).text zone (localtime zone earlier))
      ((Spec.number field plus).text zone (localtime zone later)) := by
  refine readable_of_length (fun char => signedDecimal_nonLetter)
    (fun char => signedDecimal_nonLetter) ?_
  by_cases grows : field.grows = true
  · exact signedDecimal_length_mono (Int.toNat_le_toNat (value_le grows le))
  · have fits : ∀ time, (value zone time field).toNat < 10 ^ field.digits := fun time =>
      value_fits (Bool.eq_false_iff.mpr grows)
    simp [Spec.text, Spec.field, Spec.write, signedDecimal_short, fits,
      decimal_length_short (digits_pos field)]

theorem names_apart (names : Names) :
    (∀ index < names.texts.length, (names.texts.getD index []).countP nonLetter = 0) ∧
      ∀ index < names.texts.length, ∀ other < names.texts.length,
        names.texts.getD index [] <+: names.texts.getD other [] → index = other := by
  cases names <;> decide

theorem names_value (names : Names) :
    0 ≤ value zone time names.field - names.first ∧
      (value zone time names.field - names.first).toNat < names.texts.length := by
  have month := month_bounds time.date
  have weekday := weekday_bounds time.date
  have first := time.first
  have last := time.last
  cases names <;> simp only [Names.field, Names.first, Names.texts, value, Date.value, weekdayNames,
    monthNames,
    List.length_map, List.length_cons, List.length_nil] <;> omega

theorem names_text (names : Names) :
    (Spec.name names).text zone time = names.texts.getD
      (value zone time names.field - names.first).toNat [] := rfl

theorem names_eq_of_prefix {names : Names}
    (free : (Spec.name names).text zone time <+: (Spec.name names).text zone time') :
    value zone time names.field = value zone time' names.field := by
  obtain ⟨low, bound⟩ := @names_value zone time names
  obtain ⟨low', bound'⟩ := @names_value zone time' names
  have same := (names_apart names).2 _ bound _ bound' free
  omega

theorem text_readable (spec : Spec) (le : earlier ≤ later) :
    Readable nonLetter (spec.text zone (localtime zone earlier))
      (spec.text zone (localtime zone later)) := by
  cases spec with
  | number field plus => exact number_readable field plus le
  | blankDay =>
    have day (time : BrokenTime) : (Spec.blankDay.text zone time).length = 2 := by
      have bounds := monthDay_bounds time.date
      apply blankDecimal_length
      simp only [Spec.field, Option.map_some, Option.getD_some, value, Date.value]
      omega
    refine readable_of_length (fun char => blankDecimal_nonLetter)
      (fun char => blankDecimal_nonLetter) ?_
    rw [day, day]
  | isoWeekday =>
    refine readable_of_length (fun char => decimal_nonLetter) (fun char => decimal_nonLetter) ?_
    change (decimal 1 _).length ≤ (decimal 1 _).length
    rw [decimal_length_short (by decide) (by omega), decimal_length_short (by decide) (by omega)]
  | name names =>
    have letters : ∀ time, ((Spec.name names).text zone time).countP nonLetter = 0 := fun time =>
      (names_apart names).1 _ (@names_value zone time names).2
    refine readable_of_prefix (letters _) (letters _) fun free => ?_
    rcases free with front | front
    · rw [names_text, names_text, names_eq_of_prefix front]
    · rw [names_text, names_text, names_eq_of_prefix front]
  | plain char => exact Readable.refl _
  | zoneName => exact Readable.refl _
  | zoneOffset => exact Readable.refl _

theorem text_inj {spec : Spec} {field : Field} (shown : spec.field = some field)
    (counted : 0 ≤ earlier) (counted' : 0 ≤ later)
    (same : spec.text zone (localtime zone earlier) = spec.text zone (localtime zone later)) :
    value zone (localtime zone earlier) field = value zone (localtime zone later) field := by
  have low := @value_nonneg zone earlier field counted
  have low' := @value_nonneg zone later field counted'
  cases spec with
  | number number plus =>
    obtain rfl : number = field := Option.some.inj shown
    have numbers := signedDecimal_inj same
    simp only [Spec.field, Option.map_some, Option.getD_some] at numbers
    omega
  | blankDay =>
    obtain rfl : Field.date .monthDay = field := Option.some.inj shown
    have numbers := blankDecimal_inj same
    simp only [Spec.field, Option.map_some, Option.getD_some] at numbers
    omega
  | isoWeekday =>
    obtain rfl : Field.date .weekday = field := Option.some.inj shown
    have numbers := decimal_inj same
    have bounds := weekday_bounds (localtime zone earlier).date
    have bounds' := weekday_bounds (localtime zone later).date
    simp only [Spec.field, Option.map_some, Option.getD_some, value, Date.value] at *
    omega
  | name names =>
    obtain rfl : names.field = field := Option.some.inj shown
    exact names_eq_of_prefix (same ▸ List.prefix_rfl)
  | plain char => cases shown
  | zoneName => cases shown
  | zoneOffset => cases shown

end

def inert (char : Char) : Bool := !List.contains ['E', 'O'] char && (conversions.lookup char).isNone

theorem inert_iff {char : Char} :
    inert char = true ↔ (char ≠ 'E' ∧ char ≠ 'O') ∧ conversions.lookup char = none := by
  simp [inert]

def CharAlike (loose : Char → Bool) (char char' : Char) : Prop :=
  char = char' ∨ loose char = true ∧ loose char' = true

inductive SpecAlike (loose : Char → Bool) : Spec → Spec → Prop
  | refl (spec : Spec) : SpecAlike loose spec spec
  | plain (char char' : Char) (first : loose char = true) (other : loose char' = true) :
      SpecAlike loose (.plain char) (.plain char')

section

variable {loose : Char → Bool} (within : ∀ char, loose char = true → inert char = true)

def SpecsAlike (loose : Char → Bool) (format format' : List Char)
    (read read' : Option (List Spec)) : Prop :=
  read = none ∧ read' = none ∨
    ∃ specs specs', read = some specs ∧ read' = some specs' ∧
    List.Forall₂ (SpecAlike loose) specs specs' ∧
      (specs = specs' → format = format')

theorem specsAlike_skip {format format' : List Char} {read read' : Option (List Spec)} (char : Char)
    (alike : SpecsAlike loose format format' read read') :
    SpecsAlike loose (char :: format) (char :: format') read read' := by
  obtain none | ⟨specs, specs', read, read', pairs, same⟩ := alike
  · exact .inl none
  · exact .inr ⟨specs, specs', read, read', pairs, fun equal => by rw [same equal]⟩

theorem specsAlike_cons {format format' : List Char} {read read' : Option (List Spec)} (char : Char)
    (front : List Spec) (alike : SpecsAlike loose format format' read read') :
    SpecsAlike loose (char :: format) (char :: format') (read.map (front ++ ·))
      (read'.map (front ++ ·)) := by
  obtain ⟨rfl, rfl⟩ | ⟨specs, specs', rfl, rfl, pairs, same⟩ := alike
  · exact .inl ⟨rfl, rfl⟩
  · refine .inr ⟨front ++ specs, front ++ specs', rfl, rfl, ?_, fun equal => ?_⟩
    · exact List.rel_append (List.forall₂_same.mpr fun spec _ => .refl spec) pairs
    · rw [same (List.append_cancel_left equal)]

theorem specsAlike_bind {format format' : List Char} {read read' : Option (List Spec)} (char : Char)
    (found : Option (List Spec)) (alike : SpecsAlike loose format format' read read') :
    SpecsAlike loose (char :: format) (char :: format')
      (found.bind fun front => read.map (front ++ ·))
        (found.bind fun front => read'.map (front ++ ·)) := by
  cases found with
  | none => exact .inl ⟨rfl, rfl⟩
  | some front => exact specsAlike_cons char front alike

include within

theorem specsFrom_alike {format format' : List Char}
    (alike : List.Forall₂ (CharAlike loose) format format') (mode : Mode) :
    SpecsAlike loose format format' (specsFrom mode format) (specsFrom mode format') := by
  induction alike generalizing mode with
  | nil =>
    cases mode with
    | text => exact .inr ⟨[], [], rfl, rfl, .nil, fun _ => rfl⟩
    | percent => exact .inl ⟨rfl, rfl⟩
    | modified modifier => exact .inl ⟨rfl, rfl⟩
  | @cons char char' format format' related _ ih =>
    obtain rfl | ⟨first, other⟩ := related
    · cases mode with
      | text =>
        simp only [specsFrom]
        split_ifs
        · exact specsAlike_skip char (ih .percent)
        · exact specsAlike_cons char [.plain char] (ih .text)
      | percent =>
        simp only [specsFrom]
        split_ifs
        · exact specsAlike_skip char (ih (.modified char))
        · exact specsAlike_bind char _ (ih .text)
      | modified modifier =>
        simp only [specsFrom]
        split_ifs
        · exact specsAlike_bind char _ (ih .text)
        · exact .inl ⟨rfl, rfl⟩
    · obtain ⟨⟨notE, notO⟩, unused⟩ := inert_iff.mp (within char first)
      obtain ⟨⟨notE', notO'⟩, unused'⟩ := inert_iff.mp (within char' other)
      have percent {char : Char} (unused : conversions.lookup char = none) : char ≠ '%' := by
        rintro rfl
        cases unused
      cases mode with
      | text =>
        simp only [specsFrom, percent unused, percent unused', if_false]
        obtain ⟨none, none'⟩ | ⟨specs, specs', read, read', pairs, same⟩ := ih .text
        · exact .inl ⟨by rw [none]; rfl, by rw [none']; rfl⟩
        · refine .inr
            ⟨_, _, by rw [read]; rfl, by rw [read']; rfl, .cons (.plain _ _ first other) pairs, ?_⟩
          intro equal
          obtain ⟨head, tail⟩ := List.cons.inj equal
          rw [Spec.plain.inj head, same tail]
      | percent => exact .inl (by simp [specsFrom, notE, notO, notE', notO', unused, unused'])
      | modified modifier => exact .inl (by simp [specsFrom, unused, unused'])

theorem shows_alike {format format' : List Char}
    (alike : List.Forall₂ (CharAlike loose) format format') :
    (specs format = none ↔ specs format' = none) ∧ ∀ field,
    shows format field = shows format' field := by
  have fields {specs specs' : List Spec} (pairs : List.Forall₂ (SpecAlike loose) specs specs')
      (field : Field) :
      (specs.any fun spec => spec.field = some field) = specs'.any fun spec =>
      spec.field = some field := by
    induction pairs with
    | nil => rfl
    | cons pair _ ih =>
      rw [List.any_cons, List.any_cons, ih]
      cases pair <;> rfl
  unfold shows specs
  obtain ⟨none, none'⟩ | ⟨front, front', read, read', pairs, _⟩ :=
    specsFrom_alike within alike .text
  · simp [none, none']
  · exact ⟨by simp [read, read'], fun field => by simpa [read, read'] using fields pairs field⟩

end

theorem digit_inert (char : Char) (digit : char.isDigit = true) : inert char = true := by
  have range : 48 ≤ char.toNat ∧ char.toNat ≤ 57 := by
    simp only [Char.isDigit, Bool.and_eq_true, decide_eq_true_eq] at digit
    exact digit
  have listed : ∀ digit : Fin 10, inert (Char.ofNat (48 + digit.1)) = true := by decide
  have here := listed ⟨char.toNat - 48, by omega⟩
  dsimp only at here
  rwa [Nat.add_sub_cancel' range.1, Char.ofNat_toNat] at here

theorem pair_readable {zone : Zone} {earlier later : Int} (le : earlier ≤ later) {spec spec' : Spec}
    (alike : SpecAlike Char.isDigit spec spec') :
    Readable nonLetter (spec.text zone (localtime zone earlier))
      (spec'.text zone (localtime zone later)) := by
  cases alike with
  | refl => exact text_readable spec le
  | plain char char' first other =>
    refine readable_of_length ?_ ?_ (le_refl _) <;> intro letter mem <;>
      rw [List.mem_singleton.mp mem]
    · exact nonLetter_of_digit first
    · exact nonLetter_of_digit other

theorem specs_eq {zone : Zone} {earlier later : Int} {specs specs' : List Spec}
    (pairs : List.Forall₂ (SpecAlike Char.isDigit) specs specs')
    (same : specs.map (Spec.text zone (localtime zone earlier)) =
      specs'.map (Spec.text zone (localtime zone later))) :
    specs = specs' := by
  induction pairs with
  | nil => rfl
  | cons pair _ ih =>
    rw [List.map_cons, List.map_cons] at same
    obtain ⟨head, tail⟩ := List.cons.inj same
    rw [ih tail]
    cases pair with
    | refl => rfl
    | plain char char' => rw [List.cons.inj head |>.1]

-- Whoever knows the format reads every field of it off the text.
theorem strftime_inj {zone : Zone} {format format' : List Char} {earlier later : Int}
    (alike : List.Forall₂ (CharAlike Char.isDigit) format format') (defined : specs format ≠ none)
    (counted : 0 ≤ earlier) (le : earlier ≤ later)
    (same : strftime zone format earlier = strftime zone format' later) :
    format = format' ∧ ∀ field, shows format field = true →
      value zone (localtime zone earlier) field = value zone (localtime zone later) field := by
  obtain ⟨none, _⟩ | ⟨front, front', read, read', pairs, whole⟩ :=
    specsFrom_alike digit_inert alike .text
  · exact absurd none defined
  have readable : List.Forall₂ (Readable nonLetter)
      (front.map (Spec.text zone (localtime zone earlier)))
      (front'.map (Spec.text zone (localtime zone later))) := by
    rw [List.forall₂_map_left_iff, List.forall₂_map_right_iff]
    exact pairs.imp fun _ _ pair => pair_readable le pair
  have texts : front.map (Spec.text zone (localtime zone earlier)) =
      front'.map (Spec.text zone (localtime zone later)) := by
    apply flatten_inj readable
    simpa [strftime, specs, read, read', List.flatMap_def] using same
  obtain rfl := specs_eq pairs texts
  refine ⟨whole rfl, fun field shown => ?_⟩
  obtain ⟨spec, member, here⟩ : ∃ spec ∈ front, spec.field = some field := by
    simpa [shows, specs, read] using shown
  exact text_inj here counted (counted.trans le) (List.map_inj_left.mp texts spec member)

theorem strftime_congr {zone : Zone} {format : List Char} {first second : Int}
    (same : ∀ field, shows format field = true →
      value zone (localtime zone first) field = value zone (localtime zone second) field) :
    strftime zone format first = strftime zone format second := by
  unfold strftime
  rw [List.flatMap_def, List.flatMap_def]
  congr 1
  refine List.map_congr_left fun spec member => ?_
  unfold Spec.text
  cases shown : spec.field with
  | none => rfl
  | some field =>
    have here : shows format field = true := List.any_eq_true.mpr ⟨spec, member, by simp [shown]⟩
    rw [Option.map_some, Option.map_some, same field here]

end Strftime
