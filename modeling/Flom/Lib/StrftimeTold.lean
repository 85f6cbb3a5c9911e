import Flom.Lib.StrftimeText

set_option autoImplicit false

namespace Strftime

open Calendar

def tellsDate (format : List Char) : Bool := determines fun field => shows format (.date field)

def tellsHour (format : List Char) : Bool :=
  shows format .hour || shows format .hour12 && shows format .half

def Agree (zone : Zone) (format : List Char) (time time' : BrokenTime) : Prop :=
  ∀ field, shows format field = true → value zone time field = value zone time' field

section

variable {zone : Zone} {format : List Char} {first second : Int}
  (agree : Agree zone format (localtime zone first) (localtime zone second))

include agree

theorem epoch_told (epoch : shows format .epoch = true) : first = second := by
  simpa [value, mktime_localtime] using agree .epoch epoch

theorem date_told (date : tellsDate format = true) :
    (first + zone.offset) / 86400 = (second + zone.offset) / 86400 := by
  have dates : (localtime zone first).date = (localtime zone second).date :=
    determined (fun field shown => agree (.date field) shown) date
  simpa [localtime] using congrArg Date.number dates

theorem hour_told (date : tellsDate format = true) (hour : tellsHour format = true) :
    (first + zone.offset) / 3600 = (second + zone.offset) / 3600 := by
  have day := date_told agree date
  simp only [tellsHour, Bool.or_eq_true, Bool.and_eq_true] at hour
  obtain hour | ⟨hour12, half⟩ := hour
  · have hours := agree .hour hour
    simp only [value, localtime] at hours
    omega
  · have hours := agree .hour12 hour12
    have halves := agree .half half
    simp only [value, localtime] at hours halves
    omega

theorem minute_told (date : tellsDate format = true) (hour : tellsHour format = true)
    (minute : shows format .minute = true) : first / 60 = second / 60 := by
  have hours := hour_told agree date hour
  have minutes := agree .minute minute
  simp only [value, localtime, Zone.offset] at hours minutes
  omega

theorem second_told (minute : first / 60 = second / 60) (shown : shows format .second = true) :
    first = second := by
  have seconds := agree .second shown
  simp only [value, localtime, Zone.offset] at seconds
  omega

end

theorem localtime_mktime (zone : Zone) (time : BrokenTime) :
    localtime zone (mktime zone time) = time := by
  obtain ⟨date, second, first, last⟩ := time
  have day : (mktime zone ⟨date, second, first, last⟩ + zone.offset) / 86400 = date.number := by
    simp only [mktime]
    omega
  have rest : (mktime zone ⟨date, second, first, last⟩ + zone.offset) % 86400 = second := by
    simp only [mktime]
    omega
  simp only [localtime, day, rest, of_number]

section

variable {zone : Zone} {format : List Char} (epoch : shows format .epoch = false)

include epoch

theorem agree_mktime {time time' : BrokenTime}
    (same : ∀ field, shows format field = true → field ≠ .epoch →
    value zone time field = value zone time' field) :
    Agree zone format (localtime zone (mktime zone time)) (localtime zone (mktime zone time')) := by
  intro field shown
  rw [localtime_mktime, localtime_mktime]
  refine same field shown ?_
  rintro rfl
  rw [epoch] at shown
  cases shown

theorem date_untold (untold : tellsDate format = false) :
    ∃ first second, 86400 ≤ first ∧ first + 86400 ≤ second ∧
      Agree zone format (localtime zone first) (localtime zone second) := by
  obtain ⟨date, date', after, _, order, same⟩ := undetermined untold
  let midnight (date : Date) : BrokenTime := ⟨date, 0, by decide, by decide⟩
  refine ⟨mktime zone (midnight date), mktime zone (midnight date'), ?_, ?_, agree_mktime epoch ?_⟩
  · have start : yearStart 1971 = 365 := by decide
    have begins : yearStart 1971 ≤ yearStart date.year := by
      unfold yearStart
      omega
    have first := date.first
    have near := zone.near
    simp only [mktime, midnight, Date.number, Zone.offset]
    omega
  · simp only [mktime, midnight]
    omega
  · intro field shown notEpoch
    cases field with
    | date field => exact same field shown
    | epoch => exact absurd rfl notEpoch
    | _ => rfl

def newYear : Date := Date.of 365

theorem clock_untold {time time' : BrokenTime} (date : time.date = newYear)
    (date' : time'.date = newYear)
    (same : ∀ field, shows format field = true → (∀ date, field ≠ .date date) → field ≠ .epoch →
      value zone time field = value zone time' field) :
    ∃ first, 86400 ≤ first ∧ (first + zone.offset) % 86400 = time.second ∧
      Agree zone format (localtime zone first)
        (localtime zone (first + (time'.second - time.second))) := by
  have number : newYear.number = 365 := number_of 365
  have low := time.first
  have high := time.last
  have moved : mktime zone time + (time'.second - time.second) = mktime zone time' := by
    simp only [mktime, date, date']
    omega
  refine ⟨mktime zone time, ?_, ?_, ?_⟩
  · have near := zone.near
    simp only [mktime, date, number, Zone.offset]
    omega
  · simp only [mktime]
    omega
  · rw [moved]
    refine agree_mktime epoch fun field shown notEpoch => ?_
    cases field with
    | date field => simp only [value, date, date']
    | epoch => exact absurd rfl notEpoch
    | _ => exact same _ shown (by simp) (by simp)

def newYearTime (second : Int) (first : 0 ≤ second) (last : second < 86400) : BrokenTime :=
  ⟨newYear, second, first, last⟩

-- Whole hours differ in nothing but the fields of the hour.
theorem hours_untold {time time' : BrokenTime} {hours : Int} (date : time.date = newYear)
    (date' : time'.date = newYear) (one : time.second = 3600) (later : time'.second = 3600 * hours)
    (after : 1 < hours)
    (same : ∀ field ∈ [Field.hour, .hour12, .half], shows format field = true →
      value zone time field = value zone time' field) :
    ∃ first second, 86400 ≤ first ∧ first + 3600 ≤ second ∧
      Agree zone format (localtime zone first) (localtime zone second) := by
  obtain ⟨first, late, _, agree⟩ := clock_untold epoch date date' (by
    intro field shown notDate notEpoch
    cases field with
    | date field => exact absurd rfl (notDate field)
    | epoch => exact absurd rfl notEpoch
    | minute | second =>
      simp only [value, one, later]
      omega
    | _ => exact same _ (by decide) shown)
  exact ⟨first, _, late, by omega, agree⟩

theorem hour_untold (untold : tellsHour format = false) :
    ∃ first second, 86400 ≤ first ∧ first + 3600 ≤ second ∧
      Agree zone format (localtime zone first) (localtime zone second) := by
  simp only [tellsHour, Bool.or_eq_false_iff, Bool.and_eq_false_iff] at untold
  let one := newYearTime 3600 (by decide) (by decide)
  obtain ⟨hour, hour12 | half⟩ := untold
  · let two := newYearTime 7200 (by decide) (by decide)
    refine @hours_untold zone format epoch one two 2 rfl rfl rfl rfl (by decide) ?_
    simp only [List.forall_mem_cons, hour, hour12]
    exact ⟨nofun, nofun, fun _ => rfl, nofun⟩
  · let thirteen := newYearTime 46800 (by decide) (by decide)
    refine @hours_untold zone format epoch one thirteen 13 rfl rfl rfl rfl (by decide) ?_
    simp only [List.forall_mem_cons, hour, half]
    exact ⟨nofun, fun _ => rfl, nofun, nofun⟩

theorem minute_untold (untold : shows format .minute = false) (minutes : Int) (some : 0 < minutes)
    (few : minutes < 60) :
    ∃ first, 86400 ≤ first ∧ (first + zone.offset) % 3600 = 0 ∧
      Agree zone format (localtime zone first) (localtime zone (first + 60 * minutes)) := by
  let one := newYearTime 3600 (by decide) (by decide)
  let later := newYearTime (3600 + 60 * minutes) (by omega) (by omega)
  obtain ⟨first, late, place, agree⟩ := @clock_untold zone format epoch one later rfl rfl (by
    intro field shown notDate notEpoch
    cases field with
    | date field => exact absurd rfl (notDate field)
    | epoch => exact absurd rfl notEpoch
    | minute => simp [untold] at shown
    | _ =>
      simp only [value, one, later, newYearTime]
      omega)
  rw [show later.second - one.second = 60 * minutes by simp only [later, one, newYearTime]; omega]
    at agree
  refine ⟨first, late, ?_, agree⟩
  simp only [one, newYearTime] at place
  omega

theorem second_untold (untold : shows format .second = false) :
    ∃ first, 86400 ≤ first ∧ Agree zone format (localtime zone first)
      (localtime zone (first + 1)) := by
  obtain ⟨first, late, _, agree⟩ := @clock_untold zone format epoch
      (newYearTime 3600 (by decide) (by decide)) (newYearTime 3601 (by decide) (by decide)) rfl rfl
      (by
      intro field shown notDate notEpoch
      cases field with
      | date field => exact absurd rfl (notDate field)
      | epoch => exact absurd rfl notEpoch
      | second => simp [untold] at shown
      | _ => rfl)
  exact ⟨first, late, agree⟩

end

end Strftime
