import Flom.TimestampHistory
import Mathlib.Data.List.Chain

set_option autoImplicit false

namespace Flom

open Scan Run

structure Timeval.Counted (time : Timeval) : Prop where
  normal : time.Normalized
  epoch : 0 ≤ time.sec

instance countedDecidable (time : Timeval) : Decidable time.Counted :=
  decidable_of_iff (time.Normalized ∧ 0 ≤ time.sec)
    ⟨fun both => ⟨both.1, both.2⟩, fun counted => ⟨counted.1, counted.2⟩⟩

structure Forward (interval : Timeval) (readings : List Timeval)
    (logged : Logged TimestampData Timeval) : Prop where
  fixed : logged.state.interval = interval
  last : logged.state.lastTimestamp = logged.log.getLastD ⟨0, 0⟩
  normal : logged.state.lastTimestamp.Normalized
  stamps : ∀ stamp ∈ logged.log, stamp.Counted
  clock : ∀ reading ∈ readings, reading.Counted
  order : readings.Pairwise fun first second => first.micros ≤ second.micros
  reached : logged.log ≠ [] → ∀ reading ∈ readings,
    logged.state.lastTimestamp.micros ≤ reading.micros
  counted : interval.usec = 0 → ∀ stamp ∈ logged.log, 0 < Timeval.roundDown interval stamp
  increasing : logged.log.IsChain fun earlier later =>
    Timeval.roundDown interval earlier < Timeval.roundDown interval later

theorem Forward.fewer {interval : Timeval} {readings fewer : List Timeval}
    {logged : Logged TimestampData Timeval} (forward : Forward interval readings logged)
    (sub : fewer.Sublist readings) : Forward interval fewer logged :=
  { forward with
    clock := fun reading mem => forward.clock reading (sub.subset mem)
    order := forward.order.sublist sub
    reached := fun some reading mem => forward.reached some reading (sub.subset mem) }

theorem micros_sec_le {earlier later : Timeval} (normal : earlier.Normalized)
    (normal' : later.Normalized) (le : earlier.micros ≤ later.micros) :
    earlier.sec ≤ later.sec := by
  obtain ⟨low, high⟩ := normal
  obtain ⟨low', high'⟩ := normal'
  simp only [Timeval.micros] at le
  omega

theorem roundDown_mono {interval earlier later : Timeval} (grain : Grain interval)
    (le : earlier.micros ≤ later.micros) :
    Timeval.roundDown interval earlier ≤ Timeval.roundDown interval later :=
  (roundDown_le grain).mpr (Int.ediv_le_ediv grain.micros_pos le)

theorem roundDown_pos_sec {interval time : Timeval} (grain : Grain interval)
    (normal : time.Normalized) (positive : 0 < Timeval.roundDown interval time) : 0 ≤ time.sec := by
  apply @roundDown_counted _ ⟨0, 0⟩ _ grain (by decide) normal (le_refl 0)
  simpa [Timeval.roundDown, Timeval.micros] using positive

section

variable {interval : Timeval} {later : List Timeval} {logged : Logged TimestampData Timeval}

theorem Forward.last_counted {readings : List Timeval} (forward : Forward interval readings logged)
    (seconds : interval.usec = 0) : 0 ≤ Timeval.roundDown interval logged.state.lastTimestamp := by
  cases shape : logged.log.getLast? with
  | none =>
    rw [forward.last, List.getLastD_eq_getLast?, shape]
    simp [Timeval.roundDown, Timeval.micros]
  | some stamp =>
    rw [forward.last, List.getLastD_eq_getLast?, shape]
    exact (forward.counted seconds stamp (List.mem_of_getLast? shape)).le

theorem Forward.last_sec {readings : List Timeval} (grain : Grain interval)
    (forward : Forward interval readings logged) (seconds : interval.usec = 0) :
    0 ≤ logged.state.lastTimestamp.sec := by
  cases shape : logged.log.getLast? with
  | none =>
    rw [forward.last, List.getLastD_eq_getLast?, shape]
    exact le_refl 0
  | some stamp =>
    have same : logged.state.lastTimestamp = stamp := by
      rw [forward.last, List.getLastD_eq_getLast?, shape]
      rfl
    rw [same]
    exact roundDown_pos_sec grain (same ▸ forward.normal)
      (forward.counted seconds stamp (List.mem_of_getLast? shape))

theorem Forward.tested {tested : Timeval} {rest : List Timeval} (grain : Grain interval)
    (forward : Forward interval (tested :: rest) logged) (now : timestampNow logged.state = tested)
    (can : resourceTimestampCanLock logged.state = true)
    (told : logged.log ≠ [] ∨ interval.usec = 0) :
    Timeval.roundDown interval logged.state.lastTimestamp < Timeval.roundDown interval tested := by
  have normal : tested.Normalized := (forward.clock tested List.mem_cons_self).normal
  have same := forward.fixed
  rw [← same] at grain ⊢
  rw [← now] at normal ⊢
  apply canLock_later grain forward.normal normal _ can
  · intro fraction
    have some : logged.log ≠ [] := by
      rcases told with some | seconds
      · exact some
      · rw [same] at fraction
        omega
    apply micros_sec_le forward.normal normal
    rw [now]
    exact forward.reached some tested List.mem_cons_self
  · intro seconds
    exact forward.last_sec (same ▸ grain) (same ▸ seconds)

theorem forward_get (grain : Grain interval)
    (forward : Forward interval (logged.state.clock ++ later) logged)
    (enough : 2 ≤ logged.state.clock.length) (can : resourceTimestampCanLock logged.state = true) :
    Forward interval ((timestampTick (timestampTick logged.state)).clock ++ later)
      ⟨timestampGet (timestampTick logged.state),
          logged.log ++ [timestampNow (timestampTick logged.state)]⟩ := by
  obtain ⟨tested, recorded, rest, shape⟩ : ∃ tested recorded rest,
      logged.state.clock = tested :: recorded :: rest := by
    match readings : logged.state.clock with
    | [] | [_] => simp [readings] at enough
    | tested :: recorded :: rest => exact ⟨tested, recorded, rest, rfl⟩
  have now : timestampNow logged.state = tested := by simp [timestampNow, shape]
  have stamp : timestampNow (timestampTick logged.state) = recorded := by
    simp [timestampNow, timestampTick, shape]
  have left : (timestampTick (timestampTick logged.state)).clock = rest := by
    simp [timestampTick, shape]
  rw [shape] at forward
  rw [stamp, left]
  have order := forward.order
  simp only [List.cons_append, List.pairwise_cons] at order
  obtain ⟨first, second, -⟩ := order
  have recordedLater := roundDown_mono grain (first recorded List.mem_cons_self)
  have above := fun told => (forward.tested grain now can told).trans_le recordedLater
  have kept : Forward interval (rest ++ later) logged := forward.fewer (by simp)
  have since : recorded.Counted := forward.clock recorded (by simp)
  refine ⟨forward.fixed, ?_, ?_, ?_, kept.clock, kept.order, ?_, ?_, ?_⟩
  · simp [timestampGet, stamp]
  · simpa [timestampGet, stamp] using since.normal
  · intro other mem
    rcases List.mem_append.mp mem with earlier | new
    · exact forward.stamps other earlier
    · rw [List.mem_singleton.mp new]
      exact since
  · intro _ reading mem
    simp only [timestampGet, stamp]
    exact second reading mem
  · intro seconds other mem
    rcases List.mem_append.mp mem with earlier | new
    · exact forward.counted seconds other earlier
    · rw [List.mem_singleton.mp new]
      exact (forward.last_counted seconds).trans_lt (above (.inr seconds))
  · rw [List.isChain_append]
    refine ⟨forward.increasing, List.isChain_singleton _, ?_⟩
    intro earlier ends new only
    have same : logged.state.lastTimestamp = earlier := by
      rw [forward.last, List.getLastD_eq_getLast?, ends]
      rfl
    have some : logged.log ≠ [] := by
      rintro none
      simp [none] at ends
    obtain rfl : recorded = new := by simpa using only
    rw [← same]
    exact above (.inl some)

theorem forward_preserved (grain : Grain interval) (later : List Timeval) :
    PreservedWhere timestampLogged.toOps (fun logged _ => 2 ≤ logged.state.clock.length)
      fun logged => Forward interval (logged.state.clock ++ later) logged where
  take logged waiter forward enough can := { forward_get grain forward enough can with }
  fail logged waiter forward enough can := forward_get grain forward enough can
  skip logged waiter forward := by
    have fewer := forward.fewer ((List.tail_sublist logged.state.clock).append_right later)
    simp only [timestampLogged, Manager.logged, timestampManager]
    split
    · exact { fewer with }
    · exact forward

theorem forward_release {freed : Logged TimestampData Timeval} {conn : ConnId}
    (forward : Forward interval (logged.state.clock ++ later) logged)
    (released : timestampLogged.release logged conn = some freed) :
    Forward interval (freed.state.clock ++ later) freed := by
  obtain ⟨log, fixed, last, clock⟩ := timestampLogged_release released
  rw [← clock] at forward
  obtain ⟨interval, recorded, normal, stamps, readings, order, reached, counted, increasing⟩ :=
    forward
  rw [← log] at recorded stamps reached counted increasing
  rw [← last] at recorded normal reached
  exact ⟨fixed.trans interval, recorded, normal, stamps, readings, order, reached, counted,
    increasing⟩

end

/-- A test takes one reading, a grant one more, and every waiter is tested once. -/
def clockSupplied (rsrc : TimestampRsrc) (call : TimestampCall) : Prop :=
  2 * rsrc.waitings.length + 2 ≤ call.env.clock.length

instance (rsrc : TimestampRsrc) (call : TimestampCall) : Decidable (clockSupplied rsrc call) :=
  inferInstanceAs (Decidable (_ ≤ _))

theorem visits_supplied (data : TimestampData) (waitings : List (ConnLock Unit)) (sends : List Rc)
    (enough : 2 * waitings.length ≤ data.clock.length) :
    Visits timestampManager.toOps Rc.ok (fun current _ => 2 ≤ current.clock.length) data waitings
    sends := by
  induction waitings generalizing data sends with
  | nil => trivial
  | cons waiter rest ih =>
    rw [List.length_cons] at enough
    refine ⟨by omega, ?_⟩
    split_ifs
    · apply ih
      simp only [timestampManager, timestampGet, timestampTick, List.length_tail]
      omega
    · apply ih
      simp only [timestampManager]
      split
      · simp only [timestampTick, List.length_tail]
        omega
      · omega

theorem supplied_where {rsrc : TimestampRsrc} {call : TimestampCall}
    (supplied : clockSupplied rsrc call) :
    timestampCallWhere (fun data => 2 ≤ data.clock.length) rsrc call := by
  have clean (conn : ConnId) : cleanWhere (fun data => 2 ≤ data.clock.length) rsrc conn
      call.env := by
    intro freed released
    obtain ⟨_, _, rfl⟩ := Option.map_eq_some_iff.mp released
    apply visits_supplied
    exact (Nat.le_add_right _ 2).trans supplied
  rcases call with (_ | _) | env
  · exact ⟨fun _ _ => (Nat.le_add_left 2 _).trans supplied, fun _ _ => clean _⟩
  · exact clean _
  · intro _
    apply visits_supplied
    have enough : 2 * rsrc.waitings.length + 2 ≤ env.clock.length := supplied
    simp only [timestampManager]
    split
    · simp only [timestampTick, timestampSetClock, List.length_tail]
      omega
    · exact (Nat.le_add_right _ 2).trans supplied

def clockReadings (calls : List TimestampCall) : List Timeval :=
  calls.flatMap fun call => call.env.clock

theorem forward_step {interval : Timeval} {later : List Timeval} (grain : Grain interval)
    {rsrc : TimestampHistory} {call : TimestampCall}
    (forward : Forward interval (call.env.clock ++ later) rsrc.data)
    (supplied : clockSupplied rsrc.unlogged call) :
    Forward interval later (timestampHistoryStep rsrc call).data := by
  have started : Forward interval (call.env.clock ++ later)
      (historyClock rsrc call.env.clock).data :=
    { forward with }
  rcases timestampHistoryStep_where (forward_preserved grain later)
    (fun _ _ _ => forward_release) started (supplied_where supplied) with same | kept
  · rw [same]
    exact forward.fewer (List.sublist_append_right _ _)
  · exact kept.fewer (List.sublist_append_right _ _)

theorem forward_run {interval : Timeval} (grain : Grain interval) {rsrc : TimestampHistory}
    {calls : List TimestampCall} (forward : Forward interval (clockReadings calls) rsrc.data)
    (supplied : Along resourceTimestampStep clockSupplied rsrc.unlogged calls) :
    Forward interval [] (run timestampHistoryStep rsrc calls).data := by
  induction calls generalizing rsrc with
  | nil => exact forward
  | cons call rest ih =>
    obtain ⟨here, after⟩ := supplied
    rw [← timestampHistoryStep_unlogged] at after
    exact ih (forward_step grain forward here) after

theorem forward_init {name : Name} {rsrc : TimestampRsrc}
    (started : resourceTimestampInit name = .ok rsrc) {readings : List Timeval}
    (counted : ∀ reading ∈ readings, reading.Counted)
    (order : readings.Pairwise fun first second => first.micros ≤ second.micros) :
    Grain rsrc.data.interval ∧ Forward rsrc.data.interval readings rsrc.logging.data := by
  obtain ⟨grain, stamped⟩ := stamped_init started
  obtain ⟨format, total, _, _, _, rfl⟩ := resourceTimestampInit_eq started
  exact ⟨grain, rfl, rfl, stamped.last, fun _ mem => absurd mem List.not_mem_nil, counted, order,
    fun some => absurd rfl some, fun _ _ mem => absurd mem List.not_mem_nil, List.isChain_nil⟩

end Flom
