import Flom.Lib.StrftimeTold
import Flom.TimestampFraction
import Flom.TimestampText

set_option autoImplicit false

namespace Flom

open Strftime (Zone CharAlike inert inert_iff digit_inert specs shows strftime strftime_inj
    strftime_congr tellsDate tellsHour Agree)

def fractionChar (char : Char) : Bool := char.isDigit || ['#', 'f', '.'].contains char

theorem fractionChar_inert (char : Char) (mem : fractionChar char = true) : inert char = true := by
  simp only [fractionChar, Bool.or_eq_true, List.contains_iff_mem] at mem
  obtain digit | sign := mem
  · exact digit_inert char digit
  · simp only [List.mem_cons, List.not_mem_nil, or_false] at sign
    obtain rfl | rfl | rfl := sign <;> decide

section

variable {loose : Char → Bool}

theorem alike_of_length {front front' : Name} (length : front.length = front'.length)
    (all : ∀ char ∈ front, loose char = true) (all' : ∀ char ∈ front', loose char = true) :
    List.Forall₂ (CharAlike loose) front front' := by
  rw [List.forall₂_iff_get]
  exact ⟨length, fun index bound bound' =>
    .inr ⟨all _ (List.get_mem _ _), all' _ (List.get_mem _ _)⟩⟩

theorem alike_refl (text : Name) : List.Forall₂ (CharAlike loose) text text :=
  List.forall₂_same.mpr fun _ _ => .inl rfl

theorem alike_flatMap {pieces : List FormatPiece} {text text' : FormatPiece → Name}
    (alike : ∀ piece, List.Forall₂ (CharAlike loose) (text piece) (text' piece)) :
    List.Forall₂ (CharAlike loose) (pieces.flatMap text) (pieces.flatMap text') := by
  induction pieces with
  | nil => exact .nil
  | cons piece rest ih => exact List.rel_append (alike piece) ih

end

theorem fixedDigits_take_digit {usec : Int} {width : Nat} {char : Char}
    (mem : char ∈ (Decimal.fixedDigits 6 usec.toNat).take width) : char.isDigit = true :=
  Decimal.fixedDigits_isDigit (List.mem_of_mem_take mem)

theorem rendered_alike (usec usec' : Int) (piece : FormatPiece) :
    List.Forall₂ (CharAlike Char.isDigit) (piece.rendered (Decimal.fixedDigits 6 usec.toNat))
      (piece.rendered (Decimal.fixedDigits 6 usec'.toNat)) := by
  cases piece with
  | letter char => exact alike_refl _
  | fraction width positive =>
    refine .cons (.inl rfl) (List.rel_append ?_ (alike_refl _))
    exact alike_of_length (by simp) (fun _ => fixedDigits_take_digit) fun _ =>
      fixedDigits_take_digit

theorem source_alike (usec : Int) (piece : FormatPiece) :
    List.Forall₂ (CharAlike fractionChar) piece.source
      (piece.rendered (Decimal.fixedDigits 6 usec.toNat)) := by
  cases piece with
  | letter char => exact alike_refl _
  | fraction width positive =>
    apply alike_of_length
    · exact (rendered_length (by simp) (.fraction width positive)).symm
    · intro char mem
      rcases List.mem_cons.mp mem with rfl | letter
      · decide
      · rw [(List.mem_replicate.mp letter).2]
        decide
    · intro char mem
      rcases List.mem_cons.mp mem with rfl | other
      · decide
      rcases List.mem_append.mp other with digit | letter
      · rw [fractionChar, fixedDigits_take_digit digit, Bool.true_or]
      · rw [(List.mem_replicate.mp letter).2]
        decide

theorem timestampFormat_alike (format : Name) {usec usec' : Int} (high : usec < 1000000)
    (high' : usec' < 1000000) :
    List.Forall₂ (CharAlike Char.isDigit) (timestampFormat format usec)
      (timestampFormat format usec') := by
  rw [timestampFormat_pieces format high, timestampFormat_pieces format high']
  exact alike_flatMap (rendered_alike usec usec')

theorem timestampFormat_shows (format : Name) {usec : Int} (high : usec < 1000000) :
    (specs (timestampFormat format usec) = none ↔ specs format = none) ∧
      ∀ field, shows (timestampFormat format usec) field = shows format field := by
  have alike : List.Forall₂ (CharAlike fractionChar) format (timestampFormat format usec) := by
    rw [timestampFormat_pieces format high]
    conv => lhs; rw [← formatPieces_source format]
    exact alike_flatMap (source_alike usec)
  obtain ⟨defined, same⟩ := Strftime.shows_alike fractionChar_inert alike
  exact ⟨defined.symm, fun field => (same field).symm⟩

theorem rendered_eq {pieces : List FormatPiece} {seconds seconds' : Name} (six : seconds.length = 6)
    (six' : seconds'.length = 6)
    (same : pieces.flatMap (FormatPiece.rendered seconds) =
      pieces.flatMap (FormatPiece.rendered seconds')) :
    ∀ piece ∈ pieces, piece.rendered seconds = piece.rendered seconds' := by
  induction pieces with
  | nil => exact fun _ mem => absurd mem List.not_mem_nil
  | cons first rest ih =>
    rw [List.flatMap_cons, List.flatMap_cons] at same
    obtain ⟨head, tail⟩ := List.append_inj same
      ((rendered_length six first).trans (rendered_length six' first).symm)
    rw [List.forall_mem_cons]
    exact ⟨head, ih tail⟩

theorem timestampInterval_cases {format : Name} (defined : timestampInterval format ≠ ⟨0, 0⟩) :
    (∃ digits piece, 0 < digits ∧ digits ≤ 6 ∧ piece ∈ formatPieces format ∧
      digits ≤ FormatPiece.width piece ∧
        timestampInterval format = ⟨0, 10 ^ (6 - digits)⟩) ∨
      timestampInterval format = ⟨1, 0⟩ ∨ timestampInterval format = ⟨60, 0⟩ ∨
      timestampInterval format = ⟨3600, 0⟩ := by
  unfold timestampInterval at *
  split
  · next digits found =>
    have bounds : ∀ digits ∈ [6, 5, 4, 3, 2, 1], 0 < digits ∧ digits ≤ 6 := by decide
    obtain ⟨positive, few⟩ := bounds digits (List.mem_of_find?_eq_some found)
    have present : microFormat digits <:+: format := by simpa using List.find?_some found
    obtain ⟨piece, mem, wide⟩ := microFormat_infix positive format |>.mp present
    exact .inl ⟨digits, piece, positive, few, mem, wide, rfl⟩
  · next none =>
    simp only [none] at defined
    split_ifs at defined ⊢
    · exact .inr (.inl rfl)
    · exact .inr (.inr (.inl rfl))
    · exact .inr (.inr (.inr rfl))
    · exact absurd rfl defined

theorem timestampInterval_seconds {format : Name} (defined : timestampInterval format ≠ ⟨0, 0⟩) :
    (timestampInterval format).sec = 0 ∨ (timestampInterval format).sec = 1 ∨
      (timestampInterval format).sec = 60 ∨ (timestampInterval format).sec = 3600 := by
  obtain ⟨_, _, _, _, _, _, interval⟩ | interval | interval | interval :=
    timestampInterval_cases defined <;>
    simp [interval]

theorem fraction_eq {format : Name} {digits : Nat} {piece : FormatPiece} (few : digits ≤ 6)
    (mem : piece ∈ formatPieces format) (wide : digits ≤ piece.width) {usec usec' : Int}
    (low : 0 ≤ usec) (low' : 0 ≤ usec') (high : usec < 1000000) (high' : usec' < 1000000)
    (same : timestampFormat format usec = timestampFormat format usec') :
    usec / 10 ^ (6 - digits) = usec' / 10 ^ (6 - digits) := by
  rw [timestampFormat_pieces format high, timestampFormat_pieces format high'] at same
  have equal := (rendered_inj piece).mp (rendered_eq (by simp) (by simp) same piece mem)
  have front := congrArg (List.take digits) equal
  rw [List.take_take, List.take_take, min_eq_left (le_min wide few),
    take_fixedDigits_inj few (by omega) (by omega)] at front
  rw [← Int.toNat_of_nonneg low, ← Int.toNat_of_nonneg low']
  exact_mod_cast front

/-- Does a text in that zone tell the intervals of the format apart? -/
def formatTells (zone : Zone) (format : Name) (interval : Timeval) : Bool :=
  shows format .epoch ||
    tellsDate format && tellsHour format &&
      (shows format .minute || decide (interval.sec = 3600 ∧ zone.quarters % 4 = 0)) &&
      (shows format .second || decide (60 ≤ interval.sec))

theorem formatTells_iff {zone : Zone} {format : Name} {interval : Timeval} :
    formatTells zone format interval = true ↔
      shows format .epoch = true ∨
        tellsDate format = true ∧ tellsHour format = true ∧
          (shows format .minute = true ∨ interval.sec = 3600 ∧ zone.quarters % 4 = 0) ∧
          (shows format .second = true ∨ 60 ≤ interval.sec) := by
  simp [formatTells, and_assoc]

section

variable {zone : Zone} {format : Name}

theorem told_seconds {interval : Timeval} (tells : formatTells zone format interval = true)
    {first second : Int} (agree : Agree zone format (Strftime.localtime zone first)
      (Strftime.localtime zone second)) :
    (interval.sec < 60 → first = second) ∧ (interval.sec = 60 → first / 60 = second / 60) ∧
      (interval.sec = 3600 → first / 3600 = second / 3600) := by
  obtain epoch | ⟨date, hour, minute, seconds⟩ := formatTells_iff.mp tells
  · obtain rfl := Strftime.epoch_told agree epoch
    exact ⟨fun _ => rfl, fun _ => rfl, fun _ => rfl⟩
  · have hours := Strftime.hour_told agree date hour
    obtain shown | ⟨hourly, whole⟩ := minute
    · have minutes := Strftime.minute_told agree date hour shown
      refine ⟨fun short => ?_, fun _ => minutes, fun _ => by omega⟩
      obtain second | long := seconds
      · exact Strftime.second_told agree minutes second
      · omega
    · simp only [Zone.offset] at hours
      exact ⟨fun short => by omega, fun short => by omega, fun _ => by omega⟩

theorem separates_of_tells (accepted : timestampInterval format ≠ ⟨0, 0⟩)
    (defined : specs format ≠ none)
    (tells : formatTells zone format (timestampInterval format) = true) :
    TextSeparates (strftime zone) format (timestampInterval format) 0 := by
  intro earlier later normal normal' counted _ after same
  have grain := timestampInterval_grain accepted
  have order : earlier.micros < later.micros := by
    by_contra reverse
    exact absurd (roundDown_mono grain (not_lt.mp reverse)) (not_le.mpr after)
  obtain ⟨texts, fields⟩ := strftime_inj (timestampFormat_alike format normal.2 normal'.2)
    ((timestampFormat_shows format normal.2).1.not.mpr defined) counted
      (micros_sec_le normal normal' order.le) same
  have agree : Agree zone format (Strftime.localtime zone earlier.sec)
      (Strftime.localtime zone later.sec) :=
    fun field shown => fields field (((timestampFormat_shows format normal.2).2 field).trans shown)
  obtain ⟨short, minutes, hours⟩ := told_seconds tells agree
  rw [roundDown_lt grain] at after
  obtain ⟨digits, piece, _, few, mem, wide, interval⟩ | interval | interval | interval :=
    timestampInterval_cases accepted <;> rw [interval] at short minutes hours after
  · have whole : (10 : Int) ^ (6 - digits) * 10 ^ digits = 1000000 := by
      rw [← pow_add, Nat.sub_add_cancel few]
      rfl
    have fractions := fraction_eq few mem wide normal.1 normal'.1 normal.2 normal'.2 texts
    rw [show Timeval.micros ⟨0, 10 ^ (6 - digits)⟩ = 10 ^ (6 - digits) by simp [Timeval.micros],
      fraction_slot (by positivity) whole, fraction_slot (by positivity) whole, fractions,
      short (show (0 : Int) < 60 by decide)] at after
    exact lt_irrefl _ after
  · rw [seconds_slot 1 normal, seconds_slot 1 normal', short (by decide)] at after
    exact lt_irrefl _ after
  · rw [seconds_slot 60 normal, seconds_slot 60 normal', minutes rfl] at after
    exact lt_irrefl _ after
  · rw [seconds_slot 3600 normal, seconds_slot 3600 normal', hours rfl] at after
    exact lt_irrefl _ after

section

variable (accepted : timestampInterval format ≠ ⟨0, 0⟩)
  (separates : TextSeparates (strftime zone) format (timestampInterval format) 1)

include accepted separates

theorem agree_one_interval {first second : Int} (late : 86400 ≤ first) (order : first < second)
    (agree : Agree zone format (Strftime.localtime zone first) (Strftime.localtime zone second)) :
    ((timestampInterval format).sec = 1 ∨ (timestampInterval format).sec = 60 ∨
        (timestampInterval format).sec = 3600) ∧
      first / (timestampInterval format).sec = second / (timestampInterval format).sec := by
  have grain := timestampInterval_grain accepted
  have normal (sec : Int) : Timeval.Normalized ⟨sec, 0⟩ :=
    ⟨le_refl (0 : Int), show (0 : Int) < 1000000 by decide⟩
  have same : stampText (strftime zone) format ⟨first, 0⟩ = stampText
      (strftime zone) format ⟨second, 0⟩ :=
    strftime_congr fun field shown => agree field (by
      rwa [(timestampFormat_shows format (show (0 : Int) < 1000000 by decide)).2 field] at shown)
  have started : 1 ≤ first := by omega
  have within := separates ⟨first, 0⟩ ⟨second, 0⟩ (normal _) (normal _) started
  rw [roundDown_lt grain] at within
  have kinds := timestampInterval_seconds accepted
  generalize timestampInterval format = interval at *
  cases grain with
  | fraction usec parts positive whole =>
    have step : Timeval.micros ⟨0, usec⟩ = usec := by simp [Timeval.micros]
    rw [step] at within
    have apart := fraction_slot_lt positive whole (normal first) (normal second) order
    exact absurd same (within (fun none => absurd none positive.ne') apart)
  | seconds sec positive =>
    have some : sec = 1 ∨ sec = 60 ∨ sec = 3600 := kinds.resolve_left positive.ne'
    refine ⟨some, le_antisymm (Int.ediv_le_ediv positive order.le) (not_lt.mp fun after => ?_)⟩
    rw [seconds_slot sec (normal first), seconds_slot sec (normal second)] at within
    refine within (fun _ => ?_) after same
    have counted : 1 ≤ first / sec := Int.le_ediv_of_mul_le positive (by omega)
    rw [Timeval.roundDown, seconds_slot sec (normal first)]
    exact Int.mul_pos (show 0 < first / sec by omega) (Grain.seconds sec positive).micros_pos

theorem tells_date (epoch : shows format .epoch = false) : tellsDate format = true := by
  by_contra missing
  obtain ⟨first, second, late, order, agree⟩ :=
    Strftime.date_untold epoch (Bool.eq_false_iff.mpr missing)
  obtain ⟨kind | kind | kind, same⟩ :=
      agree_one_interval accepted separates late (by omega) agree <;>
    rw [kind] at same <;> omega

theorem tells_hour (epoch : shows format .epoch = false) : tellsHour format = true := by
  by_contra missing
  obtain ⟨first, second, late, order, agree⟩ :=
    Strftime.hour_untold epoch (Bool.eq_false_iff.mpr missing)
  obtain ⟨kind | kind | kind, same⟩ :=
      agree_one_interval accepted separates late (by omega) agree <;>
    rw [kind] at same <;> omega

-- A whole hour of UTC is one of the zone unless the zone is some quarters away.
theorem tells_minute (epoch : shows format .epoch = false)
    (minute : shows format .minute = false) :
    (timestampInterval format).sec = 3600 ∧ zone.quarters % 4 = 0 := by
  obtain ⟨first, late, place, agree⟩ :=
    Strftime.minute_untold epoch minute 59 (by decide) (by decide)
  obtain ⟨kind | kind | kind, same⟩ :=
      agree_one_interval accepted separates late (by omega) agree <;>
    rw [kind] at same
  · omega
  · omega
  · refine ⟨kind, ?_⟩
    simp only [Zone.offset] at place
    omega

theorem tells_second (epoch : shows format .epoch = false)
    (second : shows format .second = false) : 60 ≤ (timestampInterval format).sec := by
  obtain ⟨first, late, agree⟩ := Strftime.second_untold epoch second
  obtain ⟨kind | kind | kind, same⟩ :=
      agree_one_interval accepted separates late (by omega) agree <;>
    rw [kind] at same ⊢ <;> omega

theorem tells_of_separates : formatTells zone format (timestampInterval format) = true := by
  rw [formatTells_iff, or_iff_not_imp_left]
  intro shown
  have epoch : shows format .epoch = false := Bool.eq_false_iff.mpr shown
  refine ⟨tells_date accepted separates epoch, tells_hour accepted separates epoch, ?_, ?_⟩
  · rw [or_iff_not_imp_left]
    exact fun minute => tells_minute accepted separates epoch (Bool.eq_false_iff.mpr minute)
  · rw [or_iff_not_imp_left]
    exact fun second => tells_second accepted separates epoch (Bool.eq_false_iff.mpr second)

end

end

def indiaZone : Zone := ⟨['I', 'S', 'T'], 22, by decide⟩

def dayRsrc : TimestampRsrc :=
  ⟨['_', 't', '_', '%', 'G', '%', 'V', '%', 'a', '%', 'T', '[', '1', ']'],
    ⟨['%', 'G', '%', 'V', '%', 'a', '%', 'T'], 1, 0, ⟨0, 0⟩, ⟨1, 0⟩, [], []⟩, []⟩

def hourRsrc : TimestampRsrc :=
  ⟨['_', 't', '_', '%', 'H', '[', '1', ']'], ⟨['%', 'H'], 1, 0, ⟨0, 0⟩, ⟨3600, 0⟩, [], []⟩, []⟩

/-- In a zone at +05:30 an hour counted in UTC changes in the middle of a local one. -/
def halfHourCalls : List TimestampCall :=
  [lockCall (strftime indiaZone) 1 ⟨37800, 0⟩ ⟨37800, 0⟩,
    cleanCall (strftime indiaZone) 1 ⟨39000, 0⟩,
    lockCall (strftime indiaZone) 2 ⟨39600, 0⟩ ⟨39600, 0⟩]

end Flom
