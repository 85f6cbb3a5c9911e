import Flom.ResourceTimestamp
import Flom.RsrcHistory
import Flom.Slots
import Mathlib.Algebra.Order.Ring.Int
import Mathlib.Tactic.Ring

set_option autoImplicit false

namespace Flom

open Scan Run

inductive TimestampCall where
  | call (call : Call)
  | timeout (env : Env)

def TimestampCall.env : TimestampCall → Env
  | .call (.inmsg _ _ _ env) | .call (.clean _ env) | .timeout env => env

def resourceTimestampStep (rsrc : TimestampRsrc) : TimestampCall → TimestampRsrc
  | .call (.inmsg conn lastStep msg env) => (resourceTimestampInmsg rsrc conn lastStep msg env).rsrc
  | .call (.clean conn env) => (resourceTimestampClean rsrc conn env).rsrc
  | .timeout env => (resourceTimestampTimeout rsrc env).rsrc

/-- The history lists every timestamp taken for a grant, also when the client could not be told.
-/
def timestampNotes : Notes TimestampData (ConnLock Unit) ConnId Timeval where
  take data _ := [timestampNow (timestampTick data)]
  fail data _ := [timestampNow (timestampTick data)]
  release _ _ := []

abbrev TimestampHistory := Rsrc (Logged TimestampData Timeval) (ConnLock Unit)

def timestampLogged : Manager (Logged TimestampData Timeval) (ConnLock Unit) ConnId :=
  timestampManager.logged timestampNotes

def historyClock (rsrc : TimestampHistory) (clock : List Timeval) : TimestampHistory :=
  { rsrc with data := { rsrc.data with state := { rsrc.data.state with clock } } }

def timestampHistoryTimeout (rsrc : TimestampHistory) (env : Env) : TimestampHistory :=
  let started := historyClock rsrc env.clock
  let looked := { started with data := timestampLogged.skip started.data ⟨0, ()⟩ }
  if rsrc.waitings = [] then rsrc
  else if resourceTimestampCanLock started.data.state then
    (rsrcWaitings timestampLogged looked env.sends).rsrc
  else looked

def timestampHistoryStep (rsrc : TimestampHistory) : TimestampCall → TimestampHistory
  | .call (.inmsg conn lastStep msg env) =>
    match msg.verb with
    | .lock =>
      (rsrcLock timestampLogged ⟨⟨conn, ()⟩, msg.lock8.wait ≠ 0, .lockBusy, fun _ => none⟩
        (historyClock rsrc env.clock) lastStep msg).rsrc
    | .unlock =>
      if some rsrc.name = msg.unlock8.name then
        (rsrcClean timestampLogged (historyClock rsrc env.clock) conn env.sends).rsrc
      else rsrc
    | _ => rsrc
  | .call (.clean conn env) =>
    (rsrcClean timestampLogged (historyClock rsrc env.clock) conn env.sends).rsrc
  | .timeout env => timestampHistoryTimeout rsrc env

theorem timestampHistoryTimeout_unlogged (rsrc : TimestampHistory) (env : Env) :
    (timestampHistoryTimeout rsrc env).unlogged =
    (resourceTimestampTimeout rsrc.unlogged env).rsrc := by
  unfold timestampHistoryTimeout resourceTimestampTimeout
  by_cases empty : rsrc.waitings = []
  · rw [if_pos empty, if_pos (show rsrc.unlogged.waitings = [] from empty)]
  · rw [if_neg empty, if_neg (show ¬rsrc.unlogged.waitings = [] from empty)]
    by_cases can : resourceTimestampCanLock (historyClock rsrc env.clock).data.state = true
    · rw [if_pos can, if_pos (show resourceTimestampCanLock
        (timestampSetClock rsrc.unlogged env.clock).data = true from can)]
      exact rsrcWaitings_unlogged timestampManager timestampNotes _ env.sends
    · rw [if_neg can, if_neg (show ¬resourceTimestampCanLock
        (timestampSetClock rsrc.unlogged env.clock).data = true from can)]
      rfl

theorem timestampHistoryStep_unlogged (rsrc : TimestampHistory) (call : TimestampCall) :
    (timestampHistoryStep rsrc call).unlogged = resourceTimestampStep rsrc.unlogged call := by
  cases call with
  | call served =>
    cases served with
    | inmsg conn lastStep msg env =>
      simp only [timestampHistoryStep, resourceTimestampStep, resourceTimestampInmsg]
      cases verb : msg.verb with
      | lock =>
        exact rsrcLock_unlogged timestampManager timestampNotes _ _
          (historyClock rsrc env.clock) lastStep msg rfl rfl
      | unlock =>
        unfold rsrcUnlock
        by_cases same : some rsrc.name = msg.unlock8.name
        · dsimp only
          rw [if_pos same, if_pos (show some rsrc.unlogged.name = _ from same), inmsgOfCleaned_rsrc]
          exact rsrcClean_unlogged timestampManager timestampNotes
            (historyClock rsrc env.clock) conn env.sends
        · dsimp only
          rw [if_neg same, if_neg (show ¬some rsrc.unlogged.name = _ from same), inmsgError_rsrc]
      | _ => rfl
    | clean conn env =>
      exact rsrcClean_unlogged timestampManager timestampNotes
        (historyClock rsrc env.clock) conn env.sends
  | timeout env => exact timestampHistoryTimeout_unlogged rsrc env

def timestampHistory (rsrc : TimestampRsrc) (calls : List TimestampCall) : TimestampHistory :=
  run timestampHistoryStep rsrc.logging calls

theorem timestampHistory_unlogged (rsrc : TimestampRsrc) (calls : List TimestampCall) :
    (timestampHistory rsrc calls).unlogged = run resourceTimestampStep rsrc calls :=
  run_view Rsrc.unlogged timestampHistoryStep_unlogged rsrc.logging calls

section Rounding

def Timeval.micros (time : Timeval) : Int := time.sec * 1000000 + time.usec

def Timeval.roundDown (interval time : Timeval) : Int :=
  time.micros / interval.micros * interval.micros

def Timeval.Normalized (time : Timeval) : Prop := 0 ≤ time.usec ∧ time.usec < 1000000

instance normalizedDecidable (time : Timeval) : Decidable time.Normalized :=
  inferInstanceAs (Decidable (_ ∧ _))

inductive Grain : Timeval → Prop
  | fraction (usec parts : Int) (positive : 0 < usec) (whole : usec * parts = 1000000) :
      Grain ⟨0, usec⟩
  | seconds (sec : Int) (positive : 0 < sec) : Grain ⟨sec, 0⟩

theorem Grain.micros_pos {interval : Timeval} (grain : Grain interval) : 0 < interval.micros := by
  cases grain with
  | fraction usec parts positive whole => simpa [Timeval.micros] using positive
  | seconds sec positive =>
    simp only [Timeval.micros]
    omega

theorem roundDown_lt {interval earlier later : Timeval} (grain : Grain interval) :
    Timeval.roundDown interval earlier < Timeval.roundDown interval later ↔
      earlier.micros / interval.micros < later.micros / interval.micros :=
  Int.mul_lt_mul_right grain.micros_pos

theorem roundDown_le {interval earlier later : Timeval} (grain : Grain interval) :
    Timeval.roundDown interval earlier ≤ Timeval.roundDown interval later ↔
      earlier.micros / interval.micros ≤ later.micros / interval.micros :=
  Int.mul_le_mul_right grain.micros_pos

theorem fraction_slot {usec parts : Int} (positive : 0 < usec) (whole : usec * parts = 1000000)
    (time : Timeval) :
    time.micros / usec = time.sec * parts + time.usec / usec := by
  have split : time.micros = time.usec + usec * (time.sec * parts) := by
    rw [Timeval.micros, ← whole]
    ring
  rw [split, Int.add_mul_ediv_left _ _ (by omega), add_comm]

theorem fraction_slot_lt {usec parts : Int} (positive : 0 < usec) (whole : usec * parts = 1000000)
    {earlier later : Timeval} (normal : earlier.Normalized) (normal' : later.Normalized)
    (next : earlier.sec < later.sec) : earlier.micros / usec < later.micros / usec := by
  rw [fraction_slot positive whole, fraction_slot positive whole]
  have below : earlier.usec / usec < parts := by
    apply Int.ediv_lt_of_lt_mul positive
    rw [mul_comm, whole]
    exact normal.2
  have above : 0 ≤ later.usec / usec := Int.ediv_nonneg normal'.1 positive.le
  have pieces : 0 < parts := by
    by_contra negative
    have := mul_nonpos_of_nonneg_of_nonpos positive.le (not_lt.mp negative)
    omega
  have more : (earlier.sec + 1) * parts ≤ later.sec * parts :=
    Int.mul_le_mul_of_nonneg_right next pieces.le
  have split : (earlier.sec + 1) * parts = earlier.sec * parts + parts := by ring
  omega

theorem seconds_slot (sec : Int) {time : Timeval} (normal : time.Normalized) :
    time.micros / (Timeval.micros ⟨sec, 0⟩) = time.sec / sec := by
  have divisor : Timeval.micros ⟨sec, 0⟩ = 1000000 * sec := by
    simp only [Timeval.micros]
    ring
  have seconds : time.micros / 1000000 = time.sec := by
    obtain ⟨low, high⟩ := normal
    simp only [Timeval.micros]
    omega
  rw [divisor, ← Int.ediv_ediv_of_nonneg (by omega), seconds]

end Rounding

/-- The reading that passed the test is not from an earlier second than the last timestamp, and
the one that is recorded is not from an earlier interval than the one that was tested. -/
def timestampSteady (data : TimestampData) : Prop :=
  resourceTimestampCanLock data = true →
    (0 < data.interval.usec → data.lastTimestamp.sec ≤ (timestampNow data).sec) ∧
      Timeval.roundDown data.interval (timestampNow data) ≤
        Timeval.roundDown data.interval (timestampNow (timestampTick data))

instance timestampSteadyDecidable (data : TimestampData) : Decidable (timestampSteady data) :=
  inferInstanceAs (Decidable (_ → _))

theorem canLock_later {data : TimestampData} (grain : Grain data.interval)
    (last : data.lastTimestamp.Normalized) (now : (timestampNow data).Normalized)
    (counted : data.interval.usec = 0 → 0 ≤ data.lastTimestamp.sec)
    (can : resourceTimestampCanLock data = true)
    (forward : 0 < data.interval.usec → data.lastTimestamp.sec ≤ (timestampNow data).sec) :
    Timeval.roundDown data.interval data.lastTimestamp < Timeval.roundDown data.interval
      (timestampNow data) := by
  rw [roundDown_lt grain]
  unfold resourceTimestampCanLock at can
  generalize data.interval = interval at *
  cases grain with
  | fraction usec parts positive whole =>
    simp only [positive, if_true] at can
    have same : Timeval.micros ⟨0, usec⟩ = usec := by simp [Timeval.micros]
    rw [same]
    obtain before | equal := (forward positive).lt_or_eq
    · exact fraction_slot_lt positive whole last now before
    · split_ifs at can
      simp only [equal, lt_self_iff_false, decide_false, Bool.false_or, decide_eq_true_eq] at can
      rw [Int.tdiv_eq_ediv_of_nonneg last.1, Int.tdiv_eq_ediv_of_nonneg now.1] at can
      rw [fraction_slot positive whole, fraction_slot positive whole, equal]
      omega
  | seconds sec positive =>
    simp only [lt_self_iff_false, if_false, positive, if_true] at can
    split_ifs at can
    have counted := counted rfl
    rw [seconds_slot sec last, seconds_slot sec now]
    rw [decide_eq_true_eq, Int.tdiv_eq_ediv_of_nonneg counted] at can
    have earlier : 0 ≤ data.lastTimestamp.sec / sec := Int.ediv_nonneg counted positive.le
    have later : 0 ≤ (timestampNow data).sec := by
      by_contra negative
      have mirrored := Int.tdiv_nonneg (Int.neg_nonneg_of_nonpos (not_le.mp negative).le)
        positive.le
      rw [Int.neg_tdiv] at mirrored
      omega
    rwa [Int.tdiv_eq_ediv_of_nonneg later] at can

structure Stamped (interval : Timeval) (logged : Logged TimestampData Timeval) : Prop where
  fixed : logged.state.interval = interval
  last : logged.state.lastTimestamp.Normalized
  counted : 0 ≤ logged.state.lastTimestamp.sec
  clock : ∀ reading ∈ logged.state.clock, reading.Normalized
  bound : ∀ stamp ∈ logged.log,
    Timeval.roundDown interval stamp ≤ Timeval.roundDown interval logged.state.lastTimestamp
  increasing : logged.log.Pairwise fun earlier later =>
    Timeval.roundDown interval earlier < Timeval.roundDown interval later

theorem timestampNow_normalized {data : TimestampData}
    (clock : ∀ reading ∈ data.clock, reading.Normalized) :
    (timestampNow data).Normalized := by
  unfold timestampNow
  cases readings : data.clock with
  | nil => decide
  | cons reading rest => exact clock reading (by simp [readings])

theorem timestampTick_normalized {data : TimestampData}
    (clock : ∀ reading ∈ data.clock, reading.Normalized) :
    ∀ reading ∈ (timestampTick data).clock, reading.Normalized :=
  fun reading member => clock reading (List.mem_of_mem_tail member)

theorem roundDown_counted {interval earlier later : Timeval} (grain : Grain interval)
    (normal : earlier.Normalized) (normal' : later.Normalized) (counted : 0 ≤ earlier.sec)
    (after : Timeval.roundDown interval earlier < Timeval.roundDown interval later) :
    0 ≤ later.sec := by
  rw [roundDown_lt grain] at after
  have start : 0 ≤ earlier.micros / interval.micros := by
    apply Int.ediv_nonneg _ grain.micros_pos.le
    have := normal.1
    simp only [Timeval.micros]
    omega
  have positive : 0 ≤ later.micros := by
    by_contra negative
    have := Int.ediv_neg_of_neg_of_pos (not_le.mp negative) grain.micros_pos
    omega
  have := normal'.2
  simp only [Timeval.micros] at positive
  omega

theorem stamped_get {interval : Timeval} {logged : Logged TimestampData Timeval}
    (grain : Grain interval) (stamped : Stamped interval logged)
    (steady : timestampSteady logged.state) (can : resourceTimestampCanLock logged.state = true) :
    Stamped interval ⟨timestampGet (timestampTick logged.state),
      logged.log ++ [timestampNow (timestampTick logged.state)]⟩ := by
  obtain ⟨rfl, last, counted, clock, bound, increasing⟩ := stamped
  obtain ⟨forward, kept⟩ := steady can
  have ticked := timestampTick_normalized clock
  have later := (canLock_later grain last (timestampNow_normalized clock)
    (fun _ => counted) can forward).trans_le kept
  have above : ∀ stamp ∈ logged.log, Timeval.roundDown logged.state.interval stamp <
      Timeval.roundDown logged.state.interval (timestampNow (timestampTick logged.state)) :=
    fun stamp member => (bound stamp member).trans_lt later
  refine ⟨rfl, timestampNow_normalized ticked,
    roundDown_counted grain last (timestampNow_normalized ticked) counted later,
    timestampTick_normalized ticked, ?_, ?_⟩
  · intro stamp member
    obtain earlier | now := List.mem_append.mp member
    · exact (above stamp earlier).le
    · rw [List.mem_singleton.mp now]
      exact le_refl _
  · rw [List.pairwise_append]
    refine ⟨increasing, List.pairwise_singleton _ _, ?_⟩
    intro earlier member later now
    rw [List.mem_singleton.mp now]
    exact above earlier member

theorem stamped_skip {interval : Timeval} {logged : Logged TimestampData Timeval}
    (waiter : ConnLock Unit) (stamped : Stamped interval logged) :
    Stamped interval (timestampLogged.skip logged waiter) := by
  obtain ⟨rfl, last, counted, clock, bound, increasing⟩ := stamped
  simp only [timestampLogged, Manager.logged, timestampManager]
  split
  · exact ⟨rfl, last, counted, timestampTick_normalized clock, bound, increasing⟩
  · exact ⟨rfl, last, counted, clock, bound, increasing⟩

theorem stamped_preserved {interval : Timeval} (grain : Grain interval) :
    PreservedWhere timestampLogged.toOps (fun logged _ => timestampSteady logged.state)
      (Stamped interval) where
  take logged waiter stamped steady can := by
    obtain ⟨same, last, counted, clock, bound, increasing⟩ := stamped_get grain stamped steady can
    exact ⟨same, last, counted, clock, bound, increasing⟩
  fail logged waiter stamped steady can := stamped_get grain stamped steady can
  skip logged waiter stamped := stamped_skip waiter stamped

def TimestampCall.Normalized : TimestampCall → Prop
  | .call (.inmsg _ _ _ env) | .call (.clean _ env) | .timeout env =>
    ∀ reading ∈ env.clock, reading.Normalized

instance timestampCallDecidable (call : TimestampCall) : Decidable call.Normalized :=
  match call with
  | .call (.inmsg _ _ _ env) | .call (.clean _ env) | .timeout env =>
    inferInstanceAs (Decidable (∀ reading ∈ env.clock, reading.Normalized))

def waitingsSteady (data : TimestampData) (waitings : List (ConnLock Unit)) (env : Env) : Prop :=
  Visits timestampManager.toOps Rc.ok (fun current _ => timestampSteady current) data waitings
    env.sends

instance waitingsSteadyDecidable (data : TimestampData) (waitings : List (ConnLock Unit))
    (env : Env) :
    Decidable (waitingsSteady data waitings env) :=
  inferInstanceAs (Decidable (Visits _ _ _ _ _ _))

def cleanSteady (rsrc : TimestampRsrc) (conn : ConnId) (env : Env) : Prop :=
  ∀ freed ∈ timestampManager.release (timestampSetClock rsrc env.clock).data conn,
    waitingsSteady freed rsrc.waitings env

def timestampCallSteady (rsrc : TimestampRsrc) : TimestampCall → Prop
  | .call (.inmsg conn _ msg env) =>
    (msg.verb = .lock → (msgFree msg).1 = .ok →
      timestampSteady (timestampSetClock rsrc env.clock).data) ∧
      (msg.verb = .unlock → some rsrc.name = msg.unlock8.name → cleanSteady rsrc conn env)
  | .call (.clean conn env) => cleanSteady rsrc conn env
  | .timeout env =>
    let started := (timestampSetClock rsrc env.clock).data
    resourceTimestampCanLock started = true →
      waitingsSteady (timestampManager.skip started ⟨0, ()⟩) rsrc.waitings env

def cleanWhere (P : TimestampData → Prop) (rsrc : TimestampRsrc) (conn : ConnId) (env : Env) :
    Prop :=
  ∀ freed ∈ timestampManager.release (timestampSetClock rsrc env.clock).data conn,
    Visits timestampManager.toOps Rc.ok (fun current _ => P current) freed rsrc.waitings env.sends

def timestampCallWhere (P : TimestampData → Prop) (rsrc : TimestampRsrc) : TimestampCall → Prop
  | .call (.inmsg conn _ msg env) =>
    (msg.verb = .lock → (msgFree msg).1 = .ok → P (timestampSetClock rsrc env.clock).data) ∧
      (msg.verb = .unlock → some rsrc.name = msg.unlock8.name → cleanWhere P rsrc conn env)
  | .call (.clean conn env) => cleanWhere P rsrc conn env
  | .timeout env =>
    let started := (timestampSetClock rsrc env.clock).data
    resourceTimestampCanLock started = true →
      Visits timestampManager.toOps Rc.ok (fun current _ => P current)
        (timestampManager.skip started ⟨0, ()⟩) rsrc.waitings env.sends

theorem timestampCallSteady_where {rsrc : TimestampRsrc} {call : TimestampCall}
    (steady : timestampCallSteady rsrc call) : timestampCallWhere timestampSteady rsrc call := by
  rcases call with (_ | _) | _ <;> exact steady

section

variable {P : TimestampData → Prop} {inv : Logged TimestampData Timeval → Prop}

theorem historyScan_where (preserved : PreservedWhere timestampLogged.toOps
      (fun logged _ => P logged.state) inv) {logged : Logged TimestampData Timeval}
    {waitings : List (ConnLock Unit)} {sends : List Rc} (holds : inv logged)
    (visits :
      Visits timestampManager.toOps Rc.ok (fun current _ => P current) logged.state waitings
        sends) :
    inv (scan timestampLogged.toOps Rc.ok logged waitings sends).state := by
  apply scan_preserved_where preserved Rc.ok logged waitings sends holds
  exact (visits_logged (P := fun current _ => P current)).mpr visits

theorem historyClean_where (preserved : PreservedWhere timestampLogged.toOps
      (fun logged _ => P logged.state) inv)
    (release : ∀ logged conn freed, inv logged → timestampLogged.release logged conn = some freed →
      inv freed) {rsrc : TimestampHistory} {conn : ConnId} {env : Env}
    (holds : inv (historyClock rsrc env.clock).data)
    (visited : cleanWhere P rsrc.unlogged conn env) :
    inv (rsrcClean timestampLogged (historyClock rsrc env.clock) conn env.sends).rsrc.data := by
  simp only [rsrcClean]
  cases released : timestampLogged.release (historyClock rsrc env.clock).data conn with
  | none =>
    rw [Manager.clean_of_none _ _ _ _ _ _ released]
    exact holds
  | some freed =>
    rw [Manager.clean_of_some _ _ _ _ _ _ _ released]
    apply historyScan_where preserved (release _ _ _ holds released)
    obtain ⟨data, found, rfl⟩ := Option.map_eq_some_iff.mp released
    exact visited data found

theorem historyLock_where (preserved : PreservedWhere timestampLogged.toOps
      (fun logged _ => P logged.state) inv) {rsrc : TimestampHistory}
    (request : Request (Logged TimestampData Timeval) (ConnLock Unit)) (lastStep : Int) (msg : Msg)
    (holds : inv rsrc.data) (visited : (msgFree msg).1 = .ok → P rsrc.data.state) :
    inv (rsrcLock timestampLogged request rsrc lastStep msg).rsrc.data := by
  by_cases freed : (msgFree msg).1 = .ok
  case neg =>
    rw [rsrcLock_unfreed _ _ _ _ freed]
    exact preserved.skip _ _ holds
  rcases rsrcLock_rsrc timestampLogged request rsrc lastStep msg with same | ⟨can, same⟩ | ⟨_, same⟩
  · rw [same]
    exact preserved.skip _ _ holds
  · rw [same]
    exact preserved.take rsrc.data request.waiter holds (visited freed) can
  · rw [same]
    exact preserved.skip _ _ holds

theorem timestampHistoryStep_where
    (preserved : PreservedWhere timestampLogged.toOps (fun logged _ => P logged.state) inv)
    (release : ∀ logged conn freed, inv logged → timestampLogged.release logged conn = some freed →
      inv freed) {rsrc : TimestampHistory} {call : TimestampCall}
    (holds : inv (historyClock rsrc call.env.clock).data)
    (visited : timestampCallWhere P rsrc.unlogged call) :
    (timestampHistoryStep rsrc call).data = rsrc.data ∨
    inv (timestampHistoryStep rsrc call).data := by
  cases call with
  | timeout env =>
    simp only [timestampHistoryStep, timestampHistoryTimeout]
    split_ifs with _ can
    · exact .inl rfl
    · simp only [rsrcWaitings, indexScan_eq_scan]
      exact .inr (historyScan_where preserved (preserved.skip _ _ holds) (visited can))
    · exact .inr (preserved.skip _ _ holds)
  | call served =>
    cases served with
    | clean conn env => exact .inr (historyClean_where preserved release holds visited)
    | inmsg conn lastStep msg env =>
      simp only [timestampHistoryStep]
      split
      · next lock => exact .inr (historyLock_where preserved _ lastStep msg holds (visited.1 lock))
      · next unlock =>
        split_ifs with same
        · exact .inr (historyClean_where preserved release holds (visited.2 unlock same))
        · exact .inl rfl
      · exact .inl rfl

end

theorem stamped_clock {interval : Timeval} {rsrc : TimestampHistory} {clock : List Timeval}
    (stamped : Stamped interval rsrc.data) (normal : ∀ reading ∈ clock, reading.Normalized) :
    Stamped interval (historyClock rsrc clock).data :=
  ⟨stamped.fixed, stamped.last, stamped.counted, normal, stamped.bound, stamped.increasing⟩

theorem timestampLogged_release {logged freed : Logged TimestampData Timeval} {conn : ConnId}
    (released : timestampLogged.release logged conn = some freed) :
    freed.log = logged.log ∧ freed.state.interval = logged.state.interval ∧
      freed.state.lastTimestamp = logged.state.lastTimestamp ∧
      freed.state.clock = logged.state.clock := by
  obtain ⟨data, found, rfl⟩ := Option.map_eq_some_iff.mp released
  obtain ⟨_, _, rfl⟩ := Option.map_eq_some_iff.mp found
  exact ⟨List.append_nil _, rfl, rfl, rfl⟩

theorem stamped_release {interval : Timeval} {logged freed : Logged TimestampData Timeval}
    {conn : ConnId} (stamped : Stamped interval logged)
    (released : timestampLogged.release logged conn = some freed) :
    Stamped interval freed := by
  obtain ⟨log, fixed, last, clock⟩ := timestampLogged_release released
  obtain ⟨rfl, normal, counted, readings, bound, increasing⟩ := stamped
  rw [← last] at normal counted bound
  rw [← clock] at readings
  rw [← log] at bound increasing
  exact ⟨fixed, normal, counted, readings, bound, increasing⟩

theorem stamped_step {interval : Timeval} (grain : Grain interval) {rsrc : TimestampHistory}
    {call : TimestampCall} (stamped : Stamped interval rsrc.data) (normal : call.Normalized)
    (steady : timestampCallSteady rsrc.unlogged call) :
    Stamped interval (timestampHistoryStep rsrc call).data := by
  have readings : ∀ reading ∈ call.env.clock, reading.Normalized := by
    rcases call with (_ | _) | _ <;> exact normal
  rcases timestampHistoryStep_where (stamped_preserved grain) (fun _ _ _ => stamped_release)
    (stamped_clock stamped readings) (timestampCallSteady_where steady) with same | kept
  · rw [same]
    exact stamped
  · exact kept

theorem timestampInterval_grain {format : Name} (defined : timestampInterval format ≠ ⟨0, 0⟩) :
    Grain (timestampInterval format) := by
  unfold timestampInterval at *
  split
  · next digits found =>
    have listed := List.mem_of_find?_eq_some found
    simp only [List.mem_cons, List.not_mem_nil, or_false] at listed
    obtain rfl | rfl | rfl | rfl | rfl | rfl := listed
    · exact .fraction _ 1000000 (by decide) (by decide)
    · exact .fraction _ 100000 (by decide) (by decide)
    · exact .fraction _ 10000 (by decide) (by decide)
    · exact .fraction _ 1000 (by decide) (by decide)
    · exact .fraction _ 100 (by decide) (by decide)
    · exact .fraction _ 10 (by decide) (by decide)
  · next missing =>
    simp only [missing] at defined
    split_ifs at defined ⊢
    · exact .seconds 1 (by decide)
    · exact .seconds 60 (by decide)
    · exact .seconds 3600 (by decide)
    · exact absurd rfl defined

theorem stamped_init {name : Name} {rsrc : TimestampRsrc}
    (started : resourceTimestampInit name = .ok rsrc) :
    Grain rsrc.data.interval ∧ Stamped rsrc.data.interval ⟨rsrc.data, []⟩ := by
  obtain ⟨format, total, _, _, defined, rfl⟩ := resourceTimestampInit_eq started
  have epoch : Timeval.Normalized ⟨0, 0⟩ := by decide
  exact ⟨timestampInterval_grain defined, rfl, epoch,
    le_refl 0, by simp, by simp, List.Pairwise.nil⟩

def TimestampData.Slotted (total : Int32) (data : TimestampData) : Prop :=
  data.totalQuantity = total ∧ Slots total data.lockedQuantity data.holders.length

theorem timestamp_slotted_preserved (total : Int32) :
    Preserved timestampManager.toOps (TimestampData.Slotted total) fun _ => True where
  take data waiter slotted _ can := by
    obtain ⟨capacity, slots⟩ := slotted
    refine ⟨capacity, slots.take ?_⟩
    rw [← capacity]
    by_contra full
    have closed : timestampSlots data = false := by simpa [timestampSlots] using full
    simp [timestampManager, resourceTimestampCanLock, closed] at can
  fail data waiter slotted _ _ := slotted
  skip data waiter slotted := by
    simp only [timestampManager]
    split <;> exact slotted

theorem timestamp_slotted_release {total : Int32} {data freed : TimestampData} {conn : ConnId}
    (slotted : data.Slotted total) (released : timestampManager.release data conn = some freed) :
    freed.Slotted total := by
  obtain ⟨holder, present, rfl⟩ := Option.map_eq_some_iff.mp released
  obtain ⟨capacity, slots⟩ := slotted
  rw [(rsrcConnFind_perm present).2.length_eq] at slots
  exact ⟨capacity, slots.release⟩

theorem timestampStep_preserved {inv : TimestampData → Prop}
    (preserved : Preserved timestampManager.toOps inv fun _ => True)
    (release : ∀ data conn freed, inv data → timestampManager.release data conn = some freed →
      inv freed) (reset : ∀ data clock, inv data → inv { data with clock }) (rsrc : TimestampRsrc)
    (call : TimestampCall) (holds : inv rsrc.data) :
    inv (resourceTimestampStep rsrc call).data := by
  have started (clock : List Timeval) : Sound inv (fun _ => True) (timestampSetClock rsrc clock) :=
    ⟨reset _ clock holds, fun _ _ => trivial⟩
  have cleaned (conn : ConnId) (env : Env) : inv (resourceTimestampClean rsrc conn env).rsrc.data :=
    (rsrcClean_sound preserved release _ conn env.sends (started env.clock)).data
  cases call with
  | timeout env =>
    simp only [resourceTimestampStep, resourceTimestampTimeout]
    have looked := preserved.skip _ ⟨0, ()⟩ (started env.clock).data
    split_ifs
    · exact holds
    · simp only [resourceTimestampWaitings, rsrcWaitings, indexScan_eq_scan]
      exact scan_preserved preserved Rc.ok _ rsrc.waitings env.sends looked fun _ _ => trivial
    · exact looked
  | call served =>
    cases served with
    | clean conn env => exact cleaned conn env
    | inmsg conn lastStep msg env =>
      simp only [resourceTimestampStep, resourceTimestampInmsg]
      split
      · exact (rsrcLock_sound preserved _ _ lastStep msg (started env.clock) trivial).data
      · exact rsrcUnlock_rsrc (motive := fun after : TimestampRsrc => inv after.data) msg holds
          (cleaned conn env)
      · exact holds

theorem timestamp_slotted_step {total : Int32} (rsrc : TimestampRsrc) (call : TimestampCall)
    (slotted : rsrc.data.Slotted total) : (resourceTimestampStep rsrc call).data.Slotted total :=
  timestampStep_preserved (timestamp_slotted_preserved total)
    (fun _ _ _ kept released => timestamp_slotted_release kept released)
      (fun _ _ kept => kept) rsrc call slotted

theorem timestamp_slotted {name : Name} {rsrc : TimestampRsrc}
    (started : resourceTimestampInit name = .ok rsrc) (calls : List TimestampCall) :
    (run resourceTimestampStep rsrc calls).data.Slotted rsrc.data.totalQuantity := by
  refine run_invariant resourceTimestampStep
    (fun reached => reached.data.Slotted rsrc.data.totalQuantity) timestamp_slotted_step rsrc calls
    ?_
  obtain ⟨format, total, _, _, _, rfl⟩ := resourceTimestampInit_eq started
  exact ⟨rfl, slots_init total⟩

theorem stamped_run {interval : Timeval} (grain : Grain interval) (rsrc : TimestampHistory)
    (calls : List TimestampCall) (stamped : Stamped interval rsrc.data)
    (normal : ∀ call ∈ calls, call.Normalized)
    (steady : Along resourceTimestampStep timestampCallSteady rsrc.unlogged calls) :
    Stamped interval (run timestampHistoryStep rsrc calls).data := by
  induction calls generalizing rsrc with
  | nil => exact stamped
  | cons call rest ih =>
    obtain ⟨here, later⟩ := steady
    rw [← timestampHistoryStep_unlogged] at later
    exact ih _ (stamped_step grain stamped (normal call (by simp)) here)
      (fun other member => normal other (List.mem_cons_of_mem _ member)) later

theorem timestamp_grants_increase {name : Name} {rsrc : TimestampRsrc}
    (started : resourceTimestampInit name = .ok rsrc) (capacity : 0 ≤ rsrc.data.totalQuantity)
    (calls : List TimestampCall) (normal : ∀ call ∈ calls, call.Normalized) :
    let final := (run resourceTimestampStep rsrc calls).data
    (Along resourceTimestampStep timestampCallSteady rsrc calls →
        (timestampHistory rsrc calls).data.log.Pairwise fun earlier later =>
          Timeval.roundDown rsrc.data.interval earlier <
            Timeval.roundDown rsrc.data.interval later) ∧
      final.lockedQuantity.toInt = final.holders.length ∧
          final.lockedQuantity ≤ rsrc.data.totalQuantity := by
  intro final
  obtain ⟨_, slots⟩ := timestamp_slotted started calls
  refine ⟨?_, slots.count, slots.le capacity⟩
  intro steady
  obtain ⟨grain, stamped⟩ := stamped_init started
  exact (stamped_run grain rsrc.logging calls stamped normal steady).increasing

def timestampName : Name := ['_', 't', '_', '%', 'S', '#', 'f', '[', '2', ']']

def timestampTenths : TimestampRsrc :=
  ⟨timestampName, ⟨['%', 'S', '#', 'f'], 2, 0, ⟨0, 0⟩, ⟨0, 100000⟩, [], []⟩, []⟩

def lockAt (conn : ConnId) (clock : List Timeval) : TimestampCall :=
  .call (.inmsg conn 8 (msgLock timestampName .ex 1 1 1) { Env.fine with clock })

/-- The clock steps back by a second before the second LOCK, which is queued and granted later. -/
def steppedCalls : List TimestampCall :=
  [lockAt 1 [⟨10, 0⟩, ⟨10, 5⟩], lockAt 2 [⟨9, 0⟩],
    .timeout { Env.fine with clock := [⟨10, 100000⟩, ⟨10, 100001⟩, ⟨10, 100002⟩] }]

theorem timestamp_grants_increase_queued :
    (timestampHistory timestampTenths steppedCalls).data.log = [⟨10, 5⟩, ⟨10, 100002⟩] ∧
      (timestampHistory timestampTenths steppedCalls).data.log.Pairwise fun earlier later =>
        Timeval.roundDown ⟨0, 100000⟩ earlier < Timeval.roundDown ⟨0, 100000⟩ later := by
  have steady : Along resourceTimestampStep timestampCallSteady timestampTenths steppedCalls := by
    refine ⟨⟨fun _ _ => by decide, fun unlock => absurd unlock (by decide)⟩,
      ⟨fun _ _ => by decide, fun unlock => absurd unlock (by decide)⟩, fun _ => ?_, trivial⟩
    decide
  refine ⟨by decide, ?_⟩
  exact (@timestamp_grants_increase timestampName timestampTenths (by decide)
    (by decide) steppedCalls (by decide)).1 steady

theorem timestamp_goes_back :
    ∃ name rsrc calls, resourceTimestampInit name = .ok rsrc ∧ 0 ≤ rsrc.data.totalQuantity ∧
      (∀ call ∈ calls, call.Normalized) ∧
      ¬(timestampHistory rsrc calls).data.log.Pairwise fun earlier later =>
        Timeval.roundDown rsrc.data.interval earlier <
            Timeval.roundDown rsrc.data.interval later := by
  refine ⟨timestampName, timestampTenths,
    [lockAt 1 [⟨10, 0⟩, ⟨10, 5⟩], lockAt 2 [⟨9, 500000⟩, ⟨9, 500001⟩]], ?_⟩
  decide

end Flom
