import Mathlib.Algebra.Order.Ring.Int
import Mathlib.Tactic.SplitIfs

set_option autoImplicit false

namespace Calendar

def leapDay (year : Int) : Int := if year % 4 = 0 ∧ (year % 100 ≠ 0 ∨ year % 400 = 0) then 1 else 0

def yearLength (year : Int) : Int := 365 + leapDay year

/-- The days from the first of January 1970 to that of the year. -/
def yearStart (year : Int) : Int :=
  365 * (year - 1970) + (year - 1969) / 4 - (year - 1901) / 100 + (year - 1601) / 400

theorem leapDay_cases (year : Int) : leapDay year = 0 ∨ leapDay year = 1 := by
  unfold leapDay
  split_ifs
  · exact .inr rfl
  · exact .inl rfl

theorem yearLength_cases (year : Int) : yearLength year = 365 ∨ yearLength year = 366 := by
  unfold yearLength
  have := leapDay_cases year
  omega

theorem yearStart_succ (year : Int) : yearStart (year + 1) = yearStart year + yearLength year := by
  unfold yearStart yearLength leapDay
  split_ifs <;> omega

theorem yearStart_lt {year later : Int} (before : year < later) :
    yearStart year + yearLength year ≤ yearStart later := by
  rw [← yearStart_succ]
  unfold yearStart
  omega

/-- A day of the proleptic Gregorian calendar; `day` counts from the first of January. -/
@[ext] structure Date where
  year : Int
  day : Int
  first : 0 ≤ day
  last : day < yearLength year
deriving DecidableEq

def Date.number (date : Date) : Int := yearStart date.year + date.day

def guessYear (number : Int) : Int := 1970 + 400 * number / 146097

theorem guessYear_near (number : Int) :
    yearStart (guessYear number - 1) ≤ number ∧ number < yearStart (guessYear number + 2) := by
  unfold guessYear yearStart
  omega

def yearOf (number : Int) : Int :=
  let guess := guessYear number
  if number < yearStart guess then guess - 1
  else if yearStart (guess + 1) ≤ number then guess + 1
  else guess

theorem yearOf_bounds (number : Int) :
    yearStart (yearOf number) ≤ number ∧
      number < yearStart (yearOf number) + yearLength (yearOf number) := by
  obtain ⟨low, high⟩ := guessYear_near number
  rw [← yearStart_succ]
  unfold yearOf
  dsimp only
  split_ifs with early late
  · rw [Int.sub_add_cancel]
    exact ⟨low, early⟩
  · rw [Int.add_assoc]
    exact ⟨late, high⟩
  · exact ⟨Int.not_lt.mp early, Int.not_le.mp late⟩

def Date.of (number : Int) : Date where
  year := yearOf number
  day := number - yearStart (yearOf number)
  first := by have := yearOf_bounds number; omega
  last := by have := yearOf_bounds number; omega

@[simp] theorem number_of (number : Int) : (Date.of number).number = number := by
  simp [Date.number, Date.of]

theorem year_le {date later : Date} (le : date.number ≤ later.number) : date.year ≤ later.year := by
  by_contra after
  have starts := yearStart_lt (not_le.mp after)
  have := date.first
  have := later.last
  unfold Date.number at le
  omega

theorem number_inj {date other : Date} (same : date.number = other.number) : date = other := by
  have year : date.year = other.year := le_antisymm (year_le same.le) (year_le same.ge)
  ext
  · exact year
  · unfold Date.number at same
    rw [year] at same
    omega

theorem of_number (date : Date) : Date.of date.number = date := number_inj (number_of date.number)

/-- The months from the last to the first, each with the day of the year it starts with. -/
def monthStarts (leap : Int) : List (Int × Int) :=
  [(12, 334 + leap), (11, 304 + leap), (10, 273 + leap), (9, 243 + leap), (8, 212 + leap),
    (7, 181 + leap), (6, 151 + leap),
    (5, 120 + leap), (4, 90 + leap), (3, 59 + leap), (2, 31), (1, 0)]

def monthOf (leap day : Int) : Int × Int :=
  ((monthStarts leap).find? fun start => decide (start.2 ≤ day)).getD (1, 0)

theorem monthStarts_table {leap : Int} (known : leap = 0 ∨ leap = 1) :
    ((monthStarts leap).Pairwise fun start other => other.2 < start.2) ∧
      ∀ start ∈ monthStarts leap, 1 ≤ start.1 ∧ start.1 ≤ 12 ∧
        (∀ other ∈ monthStarts leap, (start.1 ≤ other.1 ↔ start.2 ≤ other.2) ∧
          (start.2 < other.2 → start.2 + 28 ≤ other.2)) ∧
        (start.2 + 31 = 365 + leap ∨ ∃ other ∈ monthStarts leap, start.2 < other.2 ∧
            other.2 ≤ start.2 + 31) := by
  obtain rfl | rfl := known <;> decide

theorem monthOf_spec {leap day : Int} (known : leap = 0 ∨ leap = 1) (first : 0 ≤ day) :
    monthOf leap day ∈ monthStarts leap ∧
      ∀ start ∈ monthStarts leap, start.2 ≤ day ↔ start.2 ≤ (monthOf leap day).2 := by
  have january : (1, 0) ∈ monthStarts leap := by simp [monthStarts]
  cases found : (monthStarts leap).find? fun start => decide (start.2 ≤ day) with
  | none =>
    have none := List.find?_eq_none.mp found (1, 0) january
    simp [first] at none
  | some month =>
    obtain ⟨starts, later, earlier, split, all⟩ := List.find?_eq_some_iff_append.mp found
    have sorted := (monthStarts_table known).1
    have started : month.2 ≤ day := of_decide_eq_true starts
    rw [monthOf, found, Option.getD_some]
    refine ⟨List.mem_of_find?_eq_some found, fun start member =>
      ⟨fun begun => ?_, fun le => le.trans started⟩⟩
    rw [split] at member sorted
    obtain above | below := List.mem_append.mp member
    · simpa [begun] using all start above
    · obtain rfl | below := List.mem_cons.mp below
      · exact le_refl _
      · exact (List.rel_of_pairwise_cons (List.pairwise_append.mp sorted).2.1 below).le

def Date.month (date : Date) : Int := (monthOf (leapDay date.year) date.day).1

def Date.monthDay (date : Date) : Int := date.day - (monthOf (leapDay date.year) date.day).2 + 1

def Date.weekday (date : Date) : Int := (date.number + 4) % 7

def Date.sundayWeek (date : Date) : Int := (date.day + 7 - date.weekday) / 7

def Date.mondayWeek (date : Date) : Int := (date.day + 7 - (date.weekday + 6) % 7) / 7

/-- A week belongs to the year that its Thursday is in, which may be the one before or after. -/
def Date.thursday (date : Date) : Int := date.day + 3 - (date.weekday + 6) % 7

def Date.isoYear (date : Date) : Int :=
  if date.thursday < 0 then date.year - 1
  else if yearLength date.year ≤ date.thursday then date.year + 1
  else date.year

def Date.isoWeek (date : Date) : Int :=
  let day :=
    if date.thursday < 0 then date.thursday + yearLength (date.year - 1)
    else if yearLength date.year ≤ date.thursday then date.thursday - yearLength date.year
    else date.thursday
  day / 7 + 1

theorem month_spec (date : Date) :
    monthOf (leapDay date.year) date.day ∈ monthStarts (leapDay date.year) ∧
      ∀ start ∈ monthStarts (leapDay date.year), (start.1 ≤ date.month ↔ start.2 ≤ date.day) := by
  obtain ⟨member, begun⟩ := monthOf_spec (leapDay_cases date.year) date.first
  refine ⟨member, fun start known => ?_⟩
  rw [begun start known]
  exact (((monthStarts_table (leapDay_cases date.year)).2 start known).2.2.1 _ member).1

theorem month_bounds (date : Date) : 1 ≤ date.month ∧ date.month ≤ 12 := by
  obtain ⟨low, high, _⟩ := (monthStarts_table (leapDay_cases date.year)).2 _ (month_spec date).1
  exact ⟨low, high⟩

theorem january_iff (date : Date) : date.month = 1 ↔ date.day < 31 := by
  have february := (month_spec date).2 (2, 31) (by simp [monthStarts])
  have := (month_bounds date).1
  dsimp only at february
  omega

theorem december_iff (date : Date) : date.month = 12 ↔ yearLength date.year - 31 ≤ date.day := by
  have december := (month_spec date).2 (12, 334 + leapDay date.year) (by simp [monthStarts])
  have := (month_bounds date).2
  unfold yearLength
  dsimp only at december
  omega

theorem monthDay_of_start {date : Date} {month : Int × Int}
    (known : month ∈ monthStarts (leapDay date.year)) (same : date.month = month.1) :
    date.monthDay = date.day - month.2 + 1 := by
  have table := (monthStarts_table (leapDay_cases date.year)).2
  have member := (month_spec date).1
  have below := ((table _ member).2.2.1 month known).1.mp same.le
  have above := ((table month known).2.2.1 _ member).1.mp same.ge
  unfold Date.monthDay
  omega

theorem monthDay_january {date : Date} (early : date.day < 31) : date.monthDay = date.day + 1 := by
  have first := @monthDay_of_start date (1, 0) (by simp [monthStarts])
    ((january_iff date).mpr early)
  simpa using first

theorem monthDay_december {date : Date} (late : yearLength date.year - 31 ≤ date.day) :
    date.monthDay = date.day - (yearLength date.year - 31) + 1 := by
  rw [@monthDay_of_start date (12, 334 + leapDay date.year) (by simp [monthStarts])
    ((december_iff date).mpr late)]
  unfold yearLength
  omega

theorem monthDay_bounds (date : Date) : 1 ≤ date.monthDay ∧ date.monthDay ≤ 31 := by
  obtain ⟨member, begun⟩ := monthOf_spec (leapDay_cases date.year) date.first
  have low := (begun _ member).mpr (le_refl _)
  have last := date.last
  unfold yearLength at last
  unfold Date.monthDay
  obtain whole | ⟨next, known, after, near⟩ :=
    ((monthStarts_table (leapDay_cases date.year)).2 _ member).2.2.2
  · omega
  · have := (begun next known).not.mpr (not_le.mpr after)
    omega

theorem day_eq_of_near {date other : Date} (year : date.year = other.year)
    (monthDay : date.monthDay = other.monthDay)
    (near : date.day - other.day < 28 ∧ other.day - date.day < 28) : date.day = other.day := by
  have table := (monthStarts_table (leapDay_cases date.year)).2
  have member := (month_spec date).1
  have member' := (month_spec other).1
  rw [← year] at member'
  have below := ((table _ member).2.2.1 _ member').2
  have above := ((table _ member').2.2.1 _ member).2
  unfold Date.monthDay at monthDay
  rw [← year] at monthDay
  omega

theorem weekday_bounds (date : Date) : 0 ≤ date.weekday ∧ date.weekday < 7 := by
  unfold Date.weekday
  omega

theorem thursday_near (date : Date) : date.day - 3 ≤ date.thursday ∧
    date.thursday ≤ date.day + 3 := by
  unfold Date.thursday
  omega

inductive Date.Side (date : Date) : Prop
  | early (thursday : date.thursday < 0) (year : date.isoYear = date.year - 1)
      (week : 52 ≤ date.isoWeek) (last : date.isoWeek ≤ 53)
  | middle (first : 0 ≤ date.thursday) (last : date.thursday < yearLength date.year)
      (year : date.isoYear = date.year) (week : date.isoWeek = date.thursday / 7 + 1)
  | late (thursday : yearLength date.year ≤ date.thursday) (year : date.isoYear = date.year + 1)
      (week : date.isoWeek = 1)

theorem date_side (date : Date) : date.Side := by
  have := thursday_near date
  have := date.first
  have := date.last
  have := yearLength_cases (date.year - 1)
  have := yearLength_cases date.year
  by_cases early : date.thursday < 0
  · refine .early early (by rw [Date.isoYear, if_pos early]) ?_ ?_ <;>
      rw [Date.isoWeek, if_pos early] <;>
      unfold yearLength at * <;> omega
  · by_cases late : yearLength date.year ≤ date.thursday
    · refine .late late (by rw [Date.isoYear, if_neg early, if_pos late]) ?_
      rw [Date.isoWeek, if_neg early, if_pos late]
      omega
    · exact .middle (not_lt.mp early) (not_le.mp late)
        (by rw [Date.isoYear, if_neg early, if_neg late])
        (by rw [Date.isoWeek, if_neg early, if_neg late])

theorem isoWeek_bounds (date : Date) : 1 ≤ date.isoWeek ∧ date.isoWeek ≤ 53 := by
  have := yearLength_cases date.year
  cases date_side date with
  | early _ _ week last => omega
  | middle first last _ week => omega
  | late _ _ week => omega

theorem weeks_bounds (date : Date) :
    (0 ≤ date.sundayWeek ∧ date.sundayWeek ≤ 53) ∧ 0 ≤ date.mondayWeek ∧ date.mondayWeek ≤ 53 := by
  have := weekday_bounds date
  have := date.first
  have := date.last
  have := yearLength_cases date.year
  unfold Date.sundayWeek Date.mondayWeek
  omega

theorem iso_thursday (date : Date) :
    ∃ day, 0 ≤ day ∧ day < yearLength date.isoYear ∧ date.isoWeek = day / 7 + 1 ∧
      yearStart date.isoYear + day = date.number + 3 - (date.number + 3) % 7 := by
  have whole : date.thursday = date.day + 3 - (date.number + 3) % 7 := by
    unfold Date.thursday Date.weekday
    omega
  have near := thursday_near date
  have first := date.first
  have last := date.last
  have before := yearStart_succ (date.year - 1)
  have after := yearStart_succ date.year
  rw [Int.sub_add_cancel] at before
  have := yearLength_cases (date.year - 1)
  have := yearLength_cases (date.year + 1)
  unfold Date.number at *
  cases date_side date with
  | early thursday year week =>
    refine ⟨date.thursday + yearLength (date.year - 1), ?_, ?_, ?_, ?_⟩
    · omega
    · rw [year]
      omega
    · rw [Date.isoWeek, if_pos thursday]
    · rw [year]
      omega
  | middle low high year week =>
    exact ⟨date.thursday, low, by rwa [year], week, by rw [year]; omega⟩
  | late thursday year week =>
    refine ⟨date.thursday - yearLength date.year, by omega, ?_, by omega, ?_⟩
    · rw [year]
      omega
    · rw [year]
      omega

theorem isoYear_le {date later : Date} (le : date.number ≤ later.number) :
    date.isoYear ≤ later.isoYear := by
  obtain ⟨day, low, high, _, thursday⟩ := iso_thursday date
  obtain ⟨day', low', high', _, thursday'⟩ := iso_thursday later
  by_contra after
  have := yearStart_lt (not_le.mp after)
  omega

inductive DateField where
  | year | century | yearOfCentury | isoYear | isoYearOfCentury
  | month | monthDay | yearDay | weekday | sundayWeek | mondayWeek | isoWeek
deriving DecidableEq, Repr

def Date.value (date : Date) : DateField → Int
  | .year => date.year
  | .century => date.year / 100
  | .yearOfCentury => date.year % 100
  | .isoYear => date.isoYear
  | .isoYearOfCentury => date.isoYear % 100
  | .month => date.month
  | .monthDay => date.monthDay
  | .yearDay => date.day + 1
  | .weekday => date.weekday
  | .sundayWeek => date.sundayWeek
  | .mondayWeek => date.mondayWeek
  | .isoWeek => date.isoWeek

section

variable {date other : Date}

theorem eq_of_day (year : date.year = other.year) (day : date.day = other.day) : date = other :=
  Date.ext year day

theorem eq_of_month (year : date.year = other.year) (month : date.month = other.month)
    (monthDay : date.monthDay = other.monthDay) : date = other := by
  obtain ⟨start, member, here⟩ : ∃ start ∈ monthStarts (leapDay date.year), date.month = start.1 :=
    ⟨_, (month_spec date).1, rfl⟩
  have begun := monthDay_of_start member here
  have begun' := @monthDay_of_start other start (year ▸ member) (month ▸ here)
  exact eq_of_day year (by omega)

theorem near_of_week {shift : Int} (year : date.year = other.year)
    (week : (date.day + 7 - (date.weekday + shift) % 7) / 7 =
      (other.day + 7 - (other.weekday + shift) % 7) / 7) :
    date.day - (date.weekday + shift) % 7 = other.day - (other.weekday + shift) % 7 := by
  unfold Date.weekday Date.number at *
  rw [year] at *
  omega

-- A week of a year, whatever its first weekday, has a month's day once.
theorem eq_of_week {shift : Int} (year : date.year = other.year)
    (week : (date.day + 7 - (date.weekday + shift) % 7) / 7 =
      (other.day + 7 - (other.weekday + shift) % 7) / 7)
    (rest : date.weekday = other.weekday ∨ date.monthDay = other.monthDay) : date = other := by
  have near := near_of_week year week
  obtain weekday | monthDay := rest
  · rw [weekday] at near
    exact eq_of_day year (by omega)
  · exact eq_of_day year (day_eq_of_near year monthDay (by omega))

theorem eq_of_sundayWeek (year : date.year = other.year) (week : date.sundayWeek = other.sundayWeek)
    (rest : date.weekday = other.weekday ∨ date.monthDay = other.monthDay) : date = other := by
  have whole (date : Date) : (date.weekday + 0) % 7 = date.weekday := by
    have := weekday_bounds date
    omega
  refine @eq_of_week date other 0 year ?_ rest
  rw [whole, whole]
  exact week

theorem eq_of_mondayWeek (year : date.year = other.year) (week : date.mondayWeek = other.mondayWeek)
    (rest : date.weekday = other.weekday ∨ date.monthDay = other.monthDay) : date = other :=
  eq_of_week year week rest

theorem near_of_isoWeek (year : date.isoYear = other.isoYear)
    (week : date.isoWeek = other.isoWeek) :
    date.number - (date.number + 3) % 7 = other.number - (other.number + 3) % 7 := by
  obtain ⟨day, _, _, here, thursday⟩ := iso_thursday date
  obtain ⟨day', _, _, here', thursday'⟩ := iso_thursday other
  rw [year] at thursday
  omega

theorem eq_of_isoWeek (year : date.isoYear = other.isoYear) (week : date.isoWeek = other.isoWeek)
    (weekday : date.weekday = other.weekday) : date = other := by
  have near := near_of_isoWeek year week
  unfold Date.weekday at weekday
  exact number_inj (by omega)

theorem weekday_next_year (next : other.year = date.year + 1)
    (same : other.day = date.day ∨
      other.day - yearLength other.year = date.day - yearLength date.year) :
    date.weekday ≠ other.weekday := by
  have step := yearStart_succ date.year
  have := yearLength_cases date.year
  have := yearLength_cases other.year
  unfold Date.weekday Date.number
  rw [next] at *
  omega

-- Every 400 years the first of January is a Saturday.
theorem weekday_century {cycle : Int} (year : date.year = 400 * cycle) :
    date.weekday = (date.day + 6) % 7 := by
  unfold Date.weekday Date.number yearStart
  rw [year]
  omega

structure Date.Early (date : Date) : Prop where
  thursday : date.thursday < 0
  month : date.month = 1
  monthDay : date.monthDay = date.day + 1
  day : date.day ≤ 2
  sundayWeek : date.sundayWeek ≤ 1
  mondayWeek : date.mondayWeek ≤ 1
  isoWeek : 52 ≤ date.isoWeek

structure Date.Late (date : Date) : Prop where
  thursday : yearLength date.year ≤ date.thursday
  month : date.month = 12
  monthDay : date.monthDay = date.day - yearLength date.year + 32
  day : yearLength date.year - 3 ≤ date.day
  sundayWeek : 51 ≤ date.sundayWeek
  mondayWeek : 51 ≤ date.mondayWeek
  isoWeek : date.isoWeek = 1

theorem early_of_thursday (thursday : date.thursday < 0) : date.Early := by
  have near := thursday_near date
  have := weekday_bounds date
  have := date.first
  have day : date.day ≤ 2 := by omega
  refine ⟨thursday, (january_iff date).mpr (by omega), monthDay_january (by omega), day, ?_, ?_, ?_⟩
  · unfold Date.sundayWeek
    omega
  · unfold Date.mondayWeek
    omega
  · cases date_side date with
    | early _ _ week => exact week
    | middle first => omega
    | late after =>
      have := yearLength_cases date.year
      omega

theorem late_of_thursday (thursday : yearLength date.year ≤ date.thursday) : date.Late := by
  have near := thursday_near date
  have := weekday_bounds date
  have := yearLength_cases date.year
  have day : yearLength date.year - 3 ≤ date.day := by omega
  refine ⟨thursday, (december_iff date).mpr (by omega), ?_, day, ?_, ?_, ?_⟩
  · rw [monthDay_december (by omega)]
    omega
  · unfold Date.sundayWeek
    omega
  · unfold Date.mondayWeek
    omega
  · cases date_side date with
    | early before => omega
    | middle _ last => omega
    | late _ _ week => exact week

inductive SameSide (date other : Date) : Prop
  | calendar (weekday : date.weekday = other.weekday) (monthDay : date.monthDay = other.monthDay)
      (rest : date.month = other.month ∨ date.sundayWeek = other.sundayWeek ∨
        date.mondayWeek = other.mondayWeek)
  | week (isoWeek : date.isoWeek = other.isoWeek)
      (rest : date.monthDay = other.monthDay ∨ date.day = other.day ∨ date.month = other.month ∨
        date.sundayWeek = other.sundayWeek ∨ date.mondayWeek = other.mondayWeek)

theorem SameSide.symm (same : SameSide date other) : SameSide other date := by
  cases same with
  | calendar weekday monthDay rest =>
    exact .calendar weekday.symm monthDay.symm (rest.imp Eq.symm (Or.imp Eq.symm Eq.symm))
  | week isoWeek rest =>
    exact .week isoWeek.symm
      (rest.imp Eq.symm (Or.imp Eq.symm (Or.imp Eq.symm (Or.imp Eq.symm Eq.symm))))

theorem not_early_late (same : SameSide date other) (early : date.Early) (late : other.Late) :
    False := by
  obtain ⟨_, month, monthDay, day, sunday, monday, week⟩ := early
  obtain ⟨_, month', monthDay', day', sunday', monday', week'⟩ := late
  have := yearLength_cases other.year
  cases same with
  | calendar _ _ rest => omega
  | week isoWeek => omega

theorem early_other (early : date.Early)
    (rest : date.month = other.month ∨ date.sundayWeek = other.sundayWeek ∨
      date.mondayWeek = other.mondayWeek) : other.day < 31 := by
  have := weekday_bounds other
  obtain month | sunday | monday := rest
  · exact (january_iff other).mp (month ▸ early.month)
  · have := early.sundayWeek
    unfold Date.sundayWeek at *
    omega
  · have := early.mondayWeek
    unfold Date.mondayWeek at *
    omega

theorem late_other (late : date.Late)
    (rest : date.month = other.month ∨ date.sundayWeek = other.sundayWeek ∨
      date.mondayWeek = other.mondayWeek) : yearLength other.year - 31 ≤ other.day := by
  have := yearLength_cases other.year
  have := weekday_bounds other
  obtain month | sunday | monday := rest
  · exact (december_iff other).mp (month ▸ late.month)
  · have := late.sundayWeek
    unfold Date.sundayWeek at *
    omega
  · have := late.mondayWeek
    unfold Date.mondayWeek at *
    omega

theorem not_early_middle (same : SameSide date other) (early : date.Early)
    (first : 0 ≤ other.thursday) (week : other.isoWeek = other.thursday / 7 + 1) : False := by
  have := yearLength_cases other.year
  have := other.last
  cases same with
  | calendar weekday monthDay rest =>
    have := monthDay_january (early_other early rest)
    have := early.monthDay
    have := early.thursday
    unfold Date.thursday at *
    omega
  | week isoWeek rest =>
    have far : 354 ≤ other.day := by
      have := thursday_near other
      have := early.isoWeek
      omega
    obtain monthDay | day | rest := rest
    · have := monthDay_december (show yearLength other.year - 31 ≤ other.day by omega)
      have := early.monthDay
      have := early.day
      omega
    · have := early.day
      omega
    · have := early_other early rest
      omega

theorem not_late_middle (same : SameSide date other) (late : date.Late)
    (last : other.thursday < yearLength other.year)
    (week : other.isoWeek = other.thursday / 7 + 1) : False := by
  have := yearLength_cases date.year
  have := yearLength_cases other.year
  cases same with
  | calendar weekday monthDay rest =>
    have := monthDay_december (late_other late rest)
    have := late.monthDay
    have := late.thursday
    unfold Date.thursday at *
    omega
  | week isoWeek rest =>
    have near : other.day ≤ 9 := by
      have := thursday_near other
      have := late.isoWeek
      omega
    obtain monthDay | day | rest := rest
    · have := monthDay_january (show other.day < 31 by omega)
      have := late.monthDay
      have := late.day
      omega
    · have := late.day
      omega
    · have := late_other late rest
      omega

theorem side_eq (same : SameSide date other) :
    date.isoYear - date.year = other.isoYear - other.year := by
  cases date_side date with
  | early thursday year =>
    have early := early_of_thursday thursday
    cases date_side other with
    | early _ year' => omega
    | middle first last _ week => exact absurd (not_early_middle same early first week) id
    | late thursday' => exact absurd (not_early_late same early (late_of_thursday thursday')) id
  | middle first last year week =>
    cases date_side other with
    | early thursday' =>
      exact absurd (not_early_middle same.symm (early_of_thursday thursday') first week) id
    | middle _ _ year' => omega
    | late thursday' =>
      exact absurd (not_late_middle same.symm (late_of_thursday thursday') last week) id
  | late thursday year =>
    have late := late_of_thursday thursday
    cases date_side other with
    | early thursday' =>
      exact absurd (not_early_late same.symm (early_of_thursday thursday') late) id
    | middle _ last _ week => exact absurd (not_late_middle same late last week) id
    | late _ year' => omega

theorem isoYear_near (date : Date) : date.year - 1 ≤ date.isoYear ∧
    date.isoYear ≤ date.year + 1 := by
  cases date_side date <;> omega

theorem near_numbers (near : date.number - (date.number + 3) % 7 =
      other.number - (other.number + 3) % 7) (before : date.year < other.year) :
    yearLength date.year - 6 ≤ date.day ∧ other.day ≤ 5 := by
  have := yearStart_lt before
  have := date.last
  have := other.first
  unfold Date.number at near
  omega

theorem year_eq_of_near (near : date.number - (date.number + 3) % 7 =
      other.number - (other.number + 3) % 7)
    (rest : date.monthDay = other.monthDay ∨ date.day = other.day) : date.year = other.year := by
  have ends {first second : Date} (edge : yearLength first.year - 6 ≤ first.day ∧ second.day ≤ 5) :
      first.monthDay ≠ second.monthDay ∧ first.day ≠ second.day := by
    have := yearLength_cases first.year
    have := @monthDay_december first (by omega)
    have := @monthDay_january second (by omega)
    omega
  obtain before | same | after := lt_trichotomy date.year other.year
  · have := ends (near_numbers near before)
    omega
  · exact same
  · have := ends (near_numbers near.symm after)
    omega

theorem eq_of_near (near : date.number - (date.number + 3) % 7 =
      other.number - (other.number + 3) % 7)
    (rest : date.monthDay = other.monthDay ∨ date.day = other.day) : date = other := by
  have year := year_eq_of_near near rest
  obtain monthDay | day := rest
  · refine eq_of_day year (day_eq_of_near year monthDay ?_)
    unfold Date.number at near
    rw [year] at near
    omega
  · exact eq_of_day year day

theorem eq_of_weekday_isoYear (weekday : date.weekday = other.weekday) (day : date.day = other.day)
    (year : date.isoYear = other.isoYear) : date = other := by
  have near := isoYear_near date
  have near' := isoYear_near other
  have next {first second : Date} (same : first.day = second.day)
      (after : second.year = first.year + 1) :
      first.weekday ≠ second.weekday := weekday_next_year after (.inl same.symm)
  obtain same | one | other_one | two | other_two : date.year = other.year ∨
    other.year = date.year + 1 ∨
      date.year = other.year + 1 ∨ other.year = date.year + 2 ∨ date.year = other.year + 2 := by
        omega
  · exact eq_of_day same day
  · exact absurd weekday (next day one)
  · exact absurd weekday.symm (next day.symm other_one)
  all_goals
    have := yearLength_cases date.year
    have := yearLength_cases other.year
    have := thursday_near date
    have := thursday_near other
    cases date_side date <;> cases date_side other <;> omega

theorem century_middle_late (weekday : date.weekday = other.weekday) (day : date.day = other.day)
    (century : date.year / 100 = other.year / 100)
    (isoYear : date.isoYear % 100 = other.isoYear % 100)
    (last : date.thursday < yearLength date.year) (middle : date.isoYear = date.year)
    (late : yearLength other.year ≤ other.thursday) (next : other.isoYear = other.year + 1) :
    date.isoYear = other.isoYear := by
  by_contra apart
  have begins : date.year % 100 = 0 := by omega
  have thursday : date.thursday = other.thursday := by
    unfold Date.thursday
    rw [weekday, day]
  have := yearLength_cases date.year
  have := yearLength_cases other.year
  have leap : leapDay date.year = 1 := by
    have : yearLength date.year = 366 := by omega
    unfold yearLength at this
    omega
  have cycle : date.year % 400 = 0 := by
    unfold leapDay at leap
    split_ifs at leap with found <;> omega
  have saturday := @weekday_century date (date.year / 400) (by omega)
  unfold Date.thursday at *
  omega

theorem eq_of_weekday_century (weekday : date.weekday = other.weekday) (day : date.day = other.day)
    (century : date.year / 100 = other.year / 100)
    (isoYear : date.isoYear % 100 = other.isoYear % 100) :
    date = other := by
  have thursday : date.thursday = other.thursday := by
    unfold Date.thursday
    rw [weekday, day]
  have := yearLength_cases date.year
  have := yearLength_cases other.year
  refine eq_of_weekday_isoYear weekday day ?_
  cases date_side date with
  | early _ year => cases date_side other <;> omega
  | middle _ last year =>
    cases date_side other with
    | early => omega
    | middle => omega
    | late late next => exact century_middle_late weekday day century isoYear last year late next
  | late late next =>
    cases date_side other with
    | early => omega
    | middle _ last year =>
      exact (century_middle_late weekday.symm day.symm century.symm isoYear.symm last year late
        next).symm
    | late => omega

theorem year_eq_of_side (side : date.isoYear - date.year = other.isoYear - other.year)
    (year : date.isoYear = other.isoYear ∨
      date.year / 100 = other.year / 100 ∧ date.isoYear % 100 = other.isoYear % 100) :
      date.year = other.year := by
  have := isoYear_near date
  have := isoYear_near other
  omega

end

section

variable (has : DateField → Bool)

def showsSide : Bool :=
  has .weekday && has .monthDay && (has .month || has .sundayWeek || has .mondayWeek) ||
    has .isoWeek && (has .monthDay || has .yearDay || has .month || has .sundayWeek ||
      has .mondayWeek)

def showsIsoCentury : Bool := has .isoYear || has .century && has .isoYearOfCentury

def showsYear : Bool :=
  has .year || has .century && has .yearOfCentury || has .isoYear && has .yearOfCentury ||
    showsSide has && showsIsoCentury has

def showsIsoYear : Bool := has .isoYear || showsYear has && (has .isoYearOfCentury || showsSide has)

def determines : Bool :=
  showsYear has && (has .yearDay || has .month && has .monthDay ||
      (has .sundayWeek || has .mondayWeek) && (has .weekday || has .monthDay)) ||
    showsIsoYear has && has .isoWeek && (has .weekday || has .monthDay || has .yearDay) ||
    has .weekday && has .yearDay && showsIsoCentury has

variable {has} {date other : Date}
  (same : ∀ field, has field = true → date.value field = other.value field)

include same

theorem same_day (shows : has .yearDay = true) : date.day = other.day := by
  have equal : date.day + 1 = other.day + 1 := same _ shows
  omega

theorem sameSide (shows : showsSide has = true) : SameSide date other := by
  simp only [showsSide, Bool.or_eq_true, Bool.and_eq_true] at shows
  obtain ⟨⟨weekday, monthDay⟩, rest⟩ | ⟨isoWeek, rest⟩ := shows
  · refine .calendar (same _ weekday) (same _ monthDay) ?_
    obtain (month | sunday) | monday := rest
    · exact .inl (same _ month)
    · exact .inr (.inl (same _ sunday))
    · exact .inr (.inr (same _ monday))
  · refine .week (same _ isoWeek) ?_
    obtain (((monthDay | yearDay) | month) | sunday) | monday := rest
    · exact .inl (same _ monthDay)
    · exact .inr (.inl (same_day same yearDay))
    · exact .inr (.inr (.inl (same _ month)))
    · exact .inr (.inr (.inr (.inl (same _ sunday))))
    · exact .inr (.inr (.inr (.inr (same _ monday))))

theorem sameIsoCentury (shows : showsIsoCentury has = true) :
    date.isoYear = other.isoYear ∨ date.year / 100 = other.year / 100 ∧
    date.isoYear % 100 = other.isoYear % 100 := by
  simp only [showsIsoCentury, Bool.or_eq_true, Bool.and_eq_true] at shows
  obtain isoYear | ⟨century, isoYear⟩ := shows
  · exact .inl (same .isoYear isoYear)
  · exact .inr ⟨same .century century, same .isoYearOfCentury isoYear⟩

theorem sameYear (shows : showsYear has = true) : date.year = other.year := by
  simp only [showsYear, Bool.or_eq_true, Bool.and_eq_true] at shows
  obtain ((year | ⟨century, rest⟩) | ⟨isoYear, rest⟩) | ⟨side, isoCentury⟩ := shows
  · exact same _ year
  · have hundreds : date.year / 100 = other.year / 100 := same _ century
    have ones : date.year % 100 = other.year % 100 := same _ rest
    omega
  · have here : date.isoYear = other.isoYear := same _ isoYear
    have ones : date.year % 100 = other.year % 100 := same _ rest
    have := isoYear_near date
    have := isoYear_near other
    omega
  · exact year_eq_of_side (side_eq (sameSide same side)) (sameIsoCentury same isoCentury)

theorem sameIsoYear (shows : showsIsoYear has = true) : date.isoYear = other.isoYear := by
  simp only [showsIsoYear, Bool.or_eq_true, Bool.and_eq_true] at shows
  obtain isoYear | ⟨year, rest⟩ := shows
  · exact same _ isoYear
  · have equal := sameYear same year
    obtain ones | side := rest
    · have ones : date.isoYear % 100 = other.isoYear % 100 := same _ ones
      have := isoYear_near date
      have := isoYear_near other
      omega
    · have := side_eq (sameSide same side)
      omega

theorem determined (shows : determines has = true) : date = other := by
  simp only [determines, Bool.or_eq_true, Bool.and_eq_true] at shows
  obtain (⟨year, day⟩ | ⟨⟨isoYear, isoWeek⟩, day⟩) | ⟨⟨weekday, day⟩, isoCentury⟩ := shows
  · have year := sameYear same year
    obtain (yearDay | ⟨month, monthDay⟩) | ⟨week, rest⟩ := day
    · exact eq_of_day year (same_day same yearDay)
    · exact eq_of_month year (same _ month) (same _ monthDay)
    · have rest : date.weekday = other.weekday ∨ date.monthDay = other.monthDay :=
        rest.imp (same _) (same _)
      obtain sunday | monday := week
      · exact eq_of_sundayWeek year (same _ sunday) rest
      · exact eq_of_mondayWeek year (same _ monday) rest
  · have isoYear := sameIsoYear same isoYear
    have near := near_of_isoWeek isoYear (same _ isoWeek)
    obtain (weekday | monthDay) | yearDay := day
    · exact eq_of_isoWeek isoYear (same _ isoWeek) (same _ weekday)
    · exact eq_of_near near (.inl (same _ monthDay))
    · exact eq_of_near near (.inr (same_day same yearDay))
  · have day : date.day = other.day := same_day same day
    obtain isoYear | ⟨century, isoYear⟩ := sameIsoCentury same isoCentury
    · exact eq_of_weekday_isoYear (same _ weekday) day isoYear
    · exact eq_of_weekday_century (same _ weekday) day century isoYear

end

/-- Two dates each, and the fields that do not tell them apart; the fields of no other two dates
are more. -/
def ambiguities : List (Date × Date × List DateField) :=
  [(⟨2000, 0, by decide, by decide⟩, ⟨2099, 359, by decide, by decide⟩,
      [.weekday, .isoWeek, .century, .isoYearOfCentury]),
    (⟨1972, 0, by decide, by decide⟩, ⟨1972, 364, by decide, by decide⟩,
      [.weekday, .isoWeek, .year, .century, .yearOfCentury]),
    (⟨1975, 362, by decide, by decide⟩, ⟨1976, 361, by decide, by decide⟩,
      [.weekday, .month, .sundayWeek, .mondayWeek, .century, .isoYear, .isoYearOfCentury]),
    (⟨1971, 3, by decide, by decide⟩, ⟨1971, 10, by decide, by decide⟩,
      [.weekday, .month, .year, .century, .yearOfCentury, .isoYear, .isoYearOfCentury]),
    (⟨1971, 31, by decide, by decide⟩, ⟨1971, 59, by decide, by decide⟩,
      [.weekday, .monthDay, .year, .century, .yearOfCentury, .isoYear, .isoYearOfCentury]),
    (⟨1972, 2, by decide, by decide⟩, ⟨1977, 2, by decide, by decide⟩,
      [.weekday, .month, .monthDay, .yearDay, .sundayWeek, .mondayWeek, .isoWeek, .century]),
    (⟨1976, 0, by decide, by decide⟩, ⟨1977, 0, by decide, by decide⟩,
      [.month, .monthDay, .yearDay, .sundayWeek, .mondayWeek, .century, .isoYear,
      .isoYearOfCentury]),
    (⟨1971, 0, by decide, by decide⟩, ⟨2371, 0, by decide, by decide⟩,
      [.weekday, .month, .monthDay, .yearDay, .sundayWeek, .mondayWeek, .isoWeek, .yearOfCentury,
      .isoYearOfCentury]),
    (⟨1971, 0, by decide, by decide⟩, ⟨1971, 1, by decide, by decide⟩,
      [.month, .sundayWeek, .mondayWeek, .isoWeek, .year, .century, .yearOfCentury, .isoYear,
      .isoYearOfCentury])]

theorem ambiguities_agree :
    ∀ entry ∈ ambiguities, 1970 < entry.1.year ∧ 1970 < entry.2.1.year ∧
    entry.1.number < entry.2.1.number ∧
      ∀ field ∈ entry.2.2, entry.1.value field = entry.2.1.value field := by
  decide

theorem exists_field {motive : DateField → Prop} :
    (∃ field, motive field) ↔ motive .year ∨ motive .century ∨ motive .yearOfCentury ∨
    motive .isoYear ∨
      motive .isoYearOfCentury ∨ motive .month ∨ motive .monthDay ∨ motive .yearDay ∨
      motive .weekday ∨
      motive .sundayWeek ∨ motive .mondayWeek ∨ motive .isoWeek := by
  constructor
  · rintro ⟨field, holds⟩
    cases field <;> simp [holds]
  · rintro (holds | holds | holds | holds | holds | holds | holds | holds | holds | holds | holds
      | holds) <;>
      exact ⟨_, holds⟩

theorem ambiguous {has : DateField → Bool} (missing : determines has = false) :
    ∃ entry ∈ ambiguities, ∀ field, has field = true → field ∈ entry.2.2 := by
  by_contra none
  have outside : ∀ entry ∈ ambiguities, ∃ field, has field = true ∧ field ∉ entry.2.2 := by
    intro entry member
    by_contra within
    exact none ⟨entry, member, fun field shown => by_contra fun out => within ⟨field, shown, out⟩⟩
  simp only [exists_field] at outside
  simp [ambiguities] at outside
  simp only [determines, showsIsoYear, showsYear, showsIsoCentury, showsSide] at missing
  grind

theorem undetermined {has : DateField → Bool} (missing : determines has = false) :
    ∃ date other : Date, 1970 < date.year ∧ 1970 < other.year ∧ date.number < other.number ∧
      ∀ field, has field = true → date.value field = other.value field := by
  obtain ⟨entry, listed, covers⟩ := ambiguous missing
  obtain ⟨after, after', order, agree⟩ := ambiguities_agree entry listed
  exact ⟨entry.1, entry.2.1, after, after', order, fun field shown =>
    agree field (covers field shown)⟩

end Calendar
