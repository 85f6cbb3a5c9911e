import Flom.TimestampHistory

set_option autoImplicit false

namespace Flom

def DeadlineExact (interval last : Timeval) : Prop :=
  ∀ data : TimestampData, data.interval = interval → data.lastTimestamp = last →
    (resourceTimestampNextDeadline data).Normalized ∧
      last.micros < (resourceTimestampNextDeadline data).micros ∧
      (timestampSlots data = true → (timestampNow data).Normalized →
        last.micros ≤ (timestampNow data).micros →
        (resourceTimestampCanLock data = true ↔
          (resourceTimestampNextDeadline data).micros ≤ (timestampNow data).micros))

theorem micros_le_iff {first second : Timeval} (normal : first.Normalized)
    (normal' : second.Normalized) :
    first.micros ≤ second.micros ↔
      first.sec < second.sec ∨ first.sec = second.sec ∧ first.usec ≤ second.usec := by
  obtain ⟨low, high⟩ := normal
  obtain ⟨low', high'⟩ := normal'
  simp only [Timeval.micros]
  omega

section

variable {data : TimestampData} {usec parts sec : Int}

def fractionEnd (interval usec : Int) : Int := (usec / interval + 1) * interval

theorem fractionEnd_bounds {last : Timeval} (positive : 0 < usec) (whole : usec * parts = 1000000)
    (normal : last.Normalized) : last.usec < fractionEnd usec last.usec ∧
    fractionEnd usec last.usec ≤ 1000000 := by
  constructor
  · have floor := Int.mul_ediv_add_emod last.usec usec
    have rest := Int.emod_lt_of_pos last.usec positive
    have split : fractionEnd usec last.usec = usec * (last.usec / usec) + usec := by
      rw [fractionEnd]
      ring
    omega
  · have below : last.usec / usec < parts := by
      apply Int.ediv_lt_of_lt_mul positive
      rw [mul_comm, whole]
      exact normal.2
    calc fractionEnd usec last.usec
        ≤ parts * usec := Int.mul_le_mul_of_nonneg_right below positive.le
      _ = 1000000 := by rw [mul_comm, whole]

theorem fraction_deadline (positive : 0 < usec) (whole : usec * parts = 1000000)
    (interval : data.interval = ⟨0, usec⟩) (normal : data.lastTimestamp.Normalized) :
    (resourceTimestampNextDeadline data).Normalized ∧
      (resourceTimestampNextDeadline data).micros =
        data.lastTimestamp.sec * 1000000 + fractionEnd usec data.lastTimestamp.usec := by
  obtain ⟨after, inside⟩ := fractionEnd_bounds positive whole normal
  have low := normal.1
  have deadline : resourceTimestampNextDeadline data =
      if 999999 < fractionEnd usec data.lastTimestamp.usec then
        ⟨data.lastTimestamp.sec + 1, fractionEnd usec data.lastTimestamp.usec - 1000000⟩
      else ⟨data.lastTimestamp.sec, fractionEnd usec data.lastTimestamp.usec⟩ := by
    simp only [resourceTimestampNextDeadline, interval, lt_self_iff_false, if_false, positive,
      if_true,
      Int.tdiv_eq_ediv_of_nonneg low, fractionEnd]
    rfl
  rw [deadline]
  split_ifs with carry
  · refine ⟨⟨?_, ?_⟩, ?_⟩ <;> simp only [Timeval.micros] <;> omega
  · refine ⟨⟨?_, ?_⟩, ?_⟩ <;> simp only [Timeval.micros] <;> omega

theorem fraction_canLock (positive : 0 < usec) (interval : data.interval = ⟨0, usec⟩)
    (free : timestampSlots data = true) (normal : data.lastTimestamp.Normalized)
    (now : (timestampNow data).Normalized) :
    resourceTimestampCanLock data = true ↔
      data.lastTimestamp.sec < (timestampNow data).sec ∨
        fractionEnd usec data.lastTimestamp.usec ≤ (timestampNow data).usec := by
  simp only [resourceTimestampCanLock, free, if_true, interval, positive, Bool.or_eq_true,
    decide_eq_true_eq,
    Int.tdiv_eq_ediv_of_nonneg normal.1, Int.tdiv_eq_ediv_of_nonneg now.1]
  rw [fractionEnd, ← Int.le_ediv_iff_mul_le positive, Int.add_one_le_iff]

theorem fraction_exact {last : Timeval} (positive : 0 < usec) (whole : usec * parts = 1000000)
    (normal : last.Normalized) : DeadlineExact ⟨0, usec⟩ last := by
  rintro data interval rfl
  obtain ⟨carried, deadline⟩ := fraction_deadline positive whole interval normal
  obtain ⟨after, inside⟩ := fractionEnd_bounds positive whole normal
  refine ⟨carried, ?_, ?_⟩
  · rw [deadline, Timeval.micros]
    omega
  · intro free now later
    rw [fraction_canLock positive interval free normal now, deadline]
    rw [micros_le_iff normal now] at later
    obtain ⟨low, high⟩ := now
    simp only [Timeval.micros]
    omega

theorem seconds_deadline (positive : 0 < sec) (interval : data.interval = ⟨sec, 0⟩) :
    resourceTimestampNextDeadline data = ⟨(data.lastTimestamp.sec.tdiv sec + 1) * sec, 0⟩ := by
  simp [resourceTimestampNextDeadline, interval, positive]

theorem seconds_canLock (positive : 0 < sec) (interval : data.interval = ⟨sec, 0⟩)
    (free : timestampSlots data = true) :
    resourceTimestampCanLock data = true ↔
      data.lastTimestamp.sec.tdiv sec < (timestampNow data).sec.tdiv sec := by
  simp [resourceTimestampCanLock, free, interval, positive]

-- Division rounds towards zero, so the quotient counts whole intervals only from the Epoch on.
theorem lt_tdiv_mul_add (positive : 0 < sec) (time : Int) : time < (time.tdiv sec + 1) * sec := by
  have split : (time.tdiv sec + 1) * sec = sec * time.tdiv sec + sec := by ring
  have remainder := Int.mul_tdiv_add_tmod time sec
  have small := Int.tmod_lt_of_pos time positive
  omega

theorem tdiv_lt_tdiv_iff (positive : 0 < sec) {first second : Int} (from_epoch : -sec < first)
    (later : first ≤ second) : first.tdiv sec < second.tdiv sec ↔
    (first.tdiv sec + 1) * sec ≤ second := by
  have start : 0 ≤ first.tdiv sec := by
    obtain counted | before := le_or_gt 0 first
    · exact Int.tdiv_nonneg counted positive.le
    · have : (-first).tdiv sec = 0 := Int.tdiv_eq_zero_of_lt (by omega) (by omega)
      rw [Int.neg_tdiv] at this
      omega
  obtain counted | before := le_or_gt 0 second
  · rw [Int.tdiv_eq_ediv_of_nonneg counted, ← Int.le_ediv_iff_mul_le positive, Int.add_one_le_iff]
  · have zero : (-second).tdiv sec = 0 := Int.tdiv_eq_zero_of_lt (by omega) (by omega)
    have more : 0 < (first.tdiv sec + 1) * sec := Int.mul_pos (by omega) positive
    rw [Int.neg_tdiv] at zero
    omega

theorem seconds_exact {last : Timeval} (positive : 0 < sec) (normal : last.Normalized)
    (from_epoch : sec = 1 ∨ -sec < last.sec) : DeadlineExact ⟨sec, 0⟩ last := by
  rintro data interval rfl
  rw [seconds_deadline positive interval]
  have after := lt_tdiv_mul_add positive data.lastTimestamp.sec
  obtain ⟨low, high⟩ := normal
  refine ⟨⟨le_refl 0, Int.ofNat_lt.mpr (by decide)⟩, ?_, ?_⟩
  · simp only [Timeval.micros]
    omega
  · intro free now later
    rw [seconds_canLock positive interval free]
    rw [micros_le_iff ⟨low, high⟩ now] at later
    obtain ⟨low', high'⟩ := now
    have same : data.lastTimestamp.sec.tdiv sec < (timestampNow data).sec.tdiv sec ↔
        (data.lastTimestamp.sec.tdiv sec + 1) * sec ≤ (timestampNow data).sec := by
      obtain rfl | from_epoch := from_epoch
      · simp only [Int.tdiv_one, mul_one]
        omega
      · exact tdiv_lt_tdiv_iff positive from_epoch (by omega)
    rw [same]
    simp only [Timeval.micros]
    omega

theorem seconds_early {last : Timeval} (several : 1 < sec) (normal : last.Normalized)
    (before : last.sec ≤ -sec) :
    ¬DeadlineExact ⟨sec, 0⟩ last := by
  intro deadline_exact
  have positive : 0 < sec := by omega
  have quotient : last.sec.tdiv sec < 0 := by
    have mirrored : 1 ≤ (-last.sec).tdiv sec := by
      rw [Int.tdiv_eq_ediv_of_nonneg (by omega)]
      exact (Int.le_ediv_iff_mul_le positive).mpr (by omega)
    rw [Int.neg_tdiv] at mirrored
    omega
  have rounded : last.sec ≤ last.sec.tdiv sec * sec := by
    have remainder := Int.tdiv_mul_add_tmod last.sec sec
    have negative := Int.tmod_nonneg sec (a := -last.sec) (by omega)
    rw [Int.neg_tmod] at negative
    omega
  have early : last.sec.tdiv sec < (last.sec.tdiv sec * sec + 1).tdiv sec := by
    have mirrored : (-(last.sec.tdiv sec * sec + 1)).tdiv sec < -last.sec.tdiv sec := by
      have below : -(last.sec.tdiv sec * sec + 1) = -last.sec.tdiv sec * sec - 1 := by ring
      have counted : 0 ≤ -last.sec.tdiv sec * sec - 1 := by
        have : 1 * sec ≤ -last.sec.tdiv sec * sec :=
          Int.mul_le_mul_of_nonneg_right (by omega) positive.le
        omega
      rw [below, Int.tdiv_eq_ediv_of_nonneg counted]
      exact Int.ediv_lt_of_lt_mul positive (by omega)
    rw [Int.neg_tdiv] at mirrored
    omega
  let data : TimestampData := ⟨[], 1, 0, last, ⟨sec, 0⟩, [], [⟨last.sec.tdiv sec * sec + 1, 0⟩]⟩
  have free : timestampSlots data = true := show decide ((0 : Int32) < 1 - 0) = true by decide
  have can : resourceTimestampCanLock data = true := (seconds_canLock positive rfl free).mpr early
  obtain ⟨_, _, same⟩ := deadline_exact data rfl rfl
  have late := (same free ⟨le_refl 0, Int.ofNat_lt.mpr (by decide)⟩ ?_).mp can
  · rw [seconds_deadline positive rfl] at late
    have split : (last.sec.tdiv sec + 1) * sec = last.sec.tdiv sec * sec + sec := by ring
    simp only [Timeval.micros, timestampNow, List.headD_cons, data] at late
    omega
  · have high := normal.2
    simp only [Timeval.micros, timestampNow, List.headD_cons, data]
    omega

end

theorem deadline_exact_iff {interval last : Timeval} (grain : Grain interval)
    (normal : last.Normalized) :
    DeadlineExact interval last ↔ interval.sec ≤ 1 ∨ -interval.sec < last.sec := by
  cases grain with
  | fraction usec parts positive whole =>
    exact iff_of_true (fraction_exact positive whole normal) (.inl (Int.zero_le_ofNat 1))
  | seconds sec positive =>
    constructor
    · intro deadline_exact
      by_contra early
      simp only [not_or, not_le, not_lt] at early
      exact seconds_early early.1 normal early.2 deadline_exact
    · intro from_epoch
      exact seconds_exact positive normal (from_epoch.imp_left fun one => le_antisymm one positive)

theorem timestamp_deadline_exact_iff (format : Name) (accepted : timestampInterval format ≠ ⟨0, 0⟩)
    (last : Timeval) (normal : last.Normalized) :
    DeadlineExact (timestampInterval format) last ↔
      (timestampInterval format).sec ≤ 1 ∨ -(timestampInterval format).sec < last.sec :=
  deadline_exact_iff (timestampInterval_grain accepted) normal

theorem timestamp_deadline_exact_iff_minute :
    DeadlineExact (timestampInterval ['%', 'M']) ⟨59, 999999⟩ ↔
      (timestampInterval ['%', 'M']).sec ≤ 1 ∨ -(timestampInterval ['%', 'M']).sec < 59 :=
  timestamp_deadline_exact_iff ['%', 'M'] (by decide) ⟨59, 999999⟩ (by decide)

def preEpochMinutes : TimestampData :=
  ⟨['%', 'M'], 1, 0, ⟨-120, 0⟩, timestampInterval ['%', 'M'], [], [⟨-119, 0⟩]⟩

theorem deadline_before_epoch :
    preEpochMinutes.lastTimestamp.Normalized ∧ resourceTimestampCanLock preEpochMinutes = true ∧
      resourceTimestampNextDeadline preEpochMinutes = ⟨-60, 0⟩ ∧
      ¬DeadlineExact (timestampInterval ['%', 'M']) ⟨-120, 0⟩ :=
  ⟨by decide, by decide, by decide, seconds_early (by decide) (by decide) (by decide)⟩

def lockerLoopDeadline (now : Timeval) : Timeval := ⟨now.sec - 1, now.usec⟩

/-- The sum in `long`, before it is stored in an int. -/
def timeoutMillis (deadline now : Timeval) : Int :=
  (deadline.sec - now.sec) * 1000 + (deadline.usec - now.usec).tdiv 1000 + 1

def lockerLoopGetTimeout (deadline now : Timeval) : Int32 :=
  Int32.ofInt (timeoutMillis deadline now)

structure TimeoutRight (deadline now : Timeval) : Prop where
  untruncated : (lockerLoopGetTimeout deadline now).toInt = timeoutMillis deadline now
  past : deadline.micros + 2000 ≤ now.micros → lockerLoopGetTimeout deadline now < 0
  reaches : 0 ≤ lockerLoopGetTimeout deadline now →
    deadline.micros ≤ now.micros + (lockerLoopGetTimeout deadline now).toInt * 1000

def timeoutSpan (deadline now : Timeval) : Int :=
  deadline.micros - now.micros + if deadline.usec < now.usec then 999 else 0

theorem timeoutMillis_eq (deadline now : Timeval) :
    timeoutMillis deadline now = timeoutSpan deadline now / 1000 + 1 := by
  simp only [timeoutMillis, timeoutSpan, Timeval.micros]
  split_ifs with earlier
  · have mirrored : (deadline.usec - now.usec).tdiv 1000 =
        -((now.usec - deadline.usec) / 1000) := by
      rw [← Int.tdiv_eq_ediv_of_nonneg (by omega), ← Int.neg_tdiv, neg_sub]
    omega
  · rw [Int.tdiv_eq_ediv_of_nonneg (by omega)]
    omega

theorem timeoutRight_iff (deadline now : Timeval) :
    TimeoutRight deadline now ↔
      -2147483649000 ≤ timeoutSpan deadline now ∧ timeoutSpan deadline now < 2147483647000 := by
  have millis := timeoutMillis_eq deadline now
  have span : timeoutSpan deadline now = deadline.micros - now.micros ∨
      timeoutSpan deadline now = deadline.micros - now.micros + 999 := by
    unfold timeoutSpan
    split_ifs
    · exact .inr rfl
    · exact .inl (add_zero _)
  have fits : gintFits (timeoutMillis deadline now) ↔
      -2147483649000 ≤ timeoutSpan deadline now ∧ timeoutSpan deadline now < 2147483647000 := by
    unfold gintFits
    omega
  rw [← fits, ← int32_ofInt_toInt_iff]
  constructor
  · exact TimeoutRight.untruncated
  · intro untruncated
    have stored : (lockerLoopGetTimeout deadline now).toInt = timeoutMillis deadline now :=
      untruncated
    refine ⟨stored, ?_, ?_⟩
    · intro past
      rw [Int32.lt_iff_toInt_lt, stored, Int32.toInt_zero]
      omega
    · intro _
      rw [stored]
      omega

theorem locker_timeout_right_iff (deadline now : Timeval) :
    TimeoutRight deadline now ↔
      -2147483649000 ≤ timeoutSpan deadline now ∧ timeoutSpan deadline now < 2147483647000 :=
  timeoutRight_iff deadline now

-- The poll of a locker that is 25 days old waits for another 24 days.
theorem old_locker_sleeps :
    ¬TimeoutRight (lockerLoopDeadline ⟨1700000000, 0⟩) ⟨1702160000, 0⟩ ∧
      lockerLoopGetTimeout (lockerLoopDeadline ⟨1700000000, 0⟩) ⟨1702160000, 0⟩ = 2134966297 := by
  refine ⟨?_, by decide⟩
  rw [timeoutRight_iff]
  decide

end Flom
