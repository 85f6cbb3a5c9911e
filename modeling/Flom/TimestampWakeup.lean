import Flom.TimestampDeadline

set_option autoImplicit false

namespace Flom

open Scan Run

structure TimestampLocker where
  rsrc : TimestampRsrc
  nextDeadline : Timeval
  running : Bool

/-- A clean that the loop itself calls ends the thread when it fails; after one that pollin calls,
or after an inmsg that fails, the loop cleans the connection again. -/
inductive TimestampEvent where
  | inmsg (conn : ConnId) (lastStep : Int) (msg : Msg) (env : Env)
  | clean (conn : ConnId) (env : Env) (byLoop : Bool)
  | timeout (env : Env)

def TimestampEvent.env : TimestampEvent → Env
  | .inmsg _ _ _ env | .clean _ env _ | .timeout env => env

def timestampLockerStart (rsrc : TimestampRsrc) (now : Timeval) : TimestampLocker :=
  ⟨rsrc, lockerLoopDeadline now, true⟩

def resourceTimestampInmsgDeadline (rsrc : TimestampRsrc) (msg : Msg) (env : Env)
    (deadline : Timeval) : Timeval :=
  match msg.verb with
  | .lock =>
    let data := (timestampSetClock rsrc env.clock).data
    if (msgFree msg).1 = .ok ∧ resourceTimestampCanLock data = false ∧ msg.lock8.wait ≠ 0 then
      resourceTimestampNextDeadline data
    else deadline
  | _ => deadline

def resourceTimestampTimeoutDeadline (rsrc : TimestampRsrc) (env : Env) (deadline : Timeval) :
    Timeval :=
  let reply := resourceTimestampTimeout rsrc env
  if rsrc.waitings = [] then deadline
  else if resourceTimestampCanLock (timestampSetClock rsrc env.clock).data = true ∧
      reply.rc = .ok then
    resourceTimestampNextDeadline reply.rsrc.data
  else deadline

def timestampLockerStep (locker : TimestampLocker) (event : TimestampEvent) : TimestampLocker :=
  if locker.running then
    match event with
    | .inmsg conn lastStep msg env =>
      { locker with
        rsrc := (resourceTimestampInmsg locker.rsrc conn lastStep msg env).rsrc
        nextDeadline := resourceTimestampInmsgDeadline locker.rsrc msg env locker.nextDeadline }
    | .clean conn env byLoop =>
      let cleaned := resourceTimestampClean locker.rsrc conn env
      { locker with rsrc := cleaned.rsrc, running := cleaned.rc = .ok || !byLoop }
    | .timeout env =>
      let reply := resourceTimestampTimeout locker.rsrc env
      ⟨reply.rsrc, resourceTimestampTimeoutDeadline locker.rsrc env locker.nextDeadline,
        reply.rc = .ok⟩
  else locker

def TimestampLocker.Armed (locker : TimestampLocker) : Prop :=
  locker.running = true → locker.rsrc.waitings ≠ [] →
    locker.rsrc.data.lockedQuantity < locker.rsrc.data.totalQuantity →
      locker.nextDeadline = resourceTimestampNextDeadline locker.rsrc.data

instance armedDecidable (locker : TimestampLocker) : Decidable locker.Armed :=
  inferInstanceAs (Decidable (_ → _ → _ → _))

def releaseRearms (rsrc : TimestampRsrc) (deadline : Timeval) (conn : ConnId) (env : Env) : Prop :=
  ∀ freed ∈ timestampManager.release (timestampSetClock rsrc env.clock).data conn,
    rsrc.waitings = [] ∨
      (Visits timestampManager.toOps Rc.ok (fun data _ => resourceTimestampCanLock data = false)
        freed rsrc.waitings env.sends ∧
        deadline = resourceTimestampNextDeadline rsrc.data) ∨
      (Visits timestampManager.toOps Rc.ok
          (fun data _ => timestampSlots data = true → resourceTimestampCanLock data = true) freed
          rsrc.waitings env.sends ∧
        EverySent timestampManager.toOps Rc.ok freed rsrc.waitings env.sends)

instance releaseRearmsDecidable (rsrc : TimestampRsrc) (deadline : Timeval) (conn : ConnId)
    (env : Env) :
    Decidable (releaseRearms rsrc deadline conn env) :=
  inferInstanceAs (Decidable (∀ freed ∈ timestampManager.release _ _, _ ∨ _ ∨ _))

def lockRearms (rsrc : TimestampRsrc) (env : Env) : Prop :=
  resourceTimestampCanLock (timestampSetClock rsrc env.clock).data = true →
    rsrc.waitings = [] ∨ rsrc.data.totalQuantity ≤ rsrc.data.lockedQuantity + 1

instance lockRearmsDecidable (rsrc : TimestampRsrc) (env : Env) : Decidable (lockRearms rsrc env) :=
  inferInstanceAs (Decidable (_ → _ ∨ _))

def timestampRearms (locker : TimestampLocker) (event : TimestampEvent) : Prop :=
  locker.running = true →
    match event with
    | .inmsg conn _ msg env =>
      (msg.verb = .lock → lockRearms locker.rsrc env) ∧
        (msg.verb = .unlock → some locker.rsrc.name = msg.unlock8.name →
          releaseRearms locker.rsrc locker.nextDeadline conn env)
    | .clean conn env _ => releaseRearms locker.rsrc locker.nextDeadline conn env
    | .timeout _ => True

instance timestampRearmsDecidable (locker : TimestampLocker) (event : TimestampEvent) :
    Decidable (timestampRearms locker event) :=
  match event with
  | .inmsg _ _ _ _ => inferInstanceAs (Decidable (_ → (_ → _) ∧ (_ → _ → _)))
  | .clean _ _ _ => inferInstanceAs (Decidable (_ → _))
  | .timeout _ => inferInstanceAs (Decidable (_ → True))

section

variable {total : Int32}

theorem slotted_slots {data : TimestampData} (slotted : data.Slotted total) :
    timestampSlots data = true ↔ data.lockedQuantity < data.totalQuantity := by
  obtain ⟨rfl, slots⟩ := slotted
  rw [timestampSlots, decide_eq_true_eq, slots.free_iff, Int32.lt_iff_toInt_lt, slots.count]

theorem nextDeadline_congr {data other : TimestampData}
    (last : data.lastTimestamp = other.lastTimestamp) (interval : data.interval = other.interval) :
    resourceTimestampNextDeadline data = resourceTimestampNextDeadline other := by
  simp only [resourceTimestampNextDeadline, last, interval]

theorem skip_timestamps (data : TimestampData) (waiter : ConnLock Unit) :
    (timestampManager.skip data waiter).lastTimestamp = data.lastTimestamp ∧
      (timestampManager.skip data waiter).interval = data.interval ∧
      (timestampManager.skip data waiter).lockedQuantity = data.lockedQuantity ∧
      (timestampManager.skip data waiter).totalQuantity = data.totalQuantity := by
  simp only [timestampManager]
  split <;> exact ⟨rfl, rfl, rfl, rfl⟩

theorem scan_refused {data : TimestampData} {waitings : List (ConnLock Unit)} {sends : List Rc}
    (refused : Visits timestampManager.toOps Rc.ok
      (fun data _ => resourceTimestampCanLock data = false) data
      waitings sends) :
    resourceTimestampNextDeadline (scan timestampManager.toOps Rc.ok data waitings sends).state =
      resourceTimestampNextDeadline data := by
  have preserved : PreservedWhere timestampManager.toOps
      (fun data _ => resourceTimestampCanLock data = false) fun reached =>
      resourceTimestampNextDeadline reached = resourceTimestampNextDeadline data := by
    constructor
    · intro reached waiter _ cannot can
      cases cannot.symm.trans can
    · intro reached waiter _ cannot can
      cases cannot.symm.trans can
    · intro reached waiter same
      obtain ⟨last, interval, _⟩ := skip_timestamps reached waiter
      exact (nextDeadline_congr last interval).trans same
  exact scan_preserved_where preserved Rc.ok data waitings sends rfl refused

theorem canLock_slots {data : TimestampData} (can : resourceTimestampCanLock data = true) :
    timestampSlots data = true := by
  unfold resourceTimestampCanLock at can
  split_ifs at can <;> assumption

theorem full_preserved :
    Preserved timestampManager.toOps (fun data => timestampSlots data = false) fun _ => True where
  take data waiter full _ can := by cases full.symm.trans (canLock_slots can)
  fail data waiter full _ can := by cases full.symm.trans (canLock_slots can)
  skip data waiter full := by
    obtain ⟨_, _, locked, quantity⟩ := skip_timestamps data waiter
    rwa [timestampSlots, locked, quantity]

theorem scan_served {data : TimestampData} {waitings : List (ConnLock Unit)} {sends : List Rc}
    (served : Visits timestampManager.toOps Rc.ok
      (fun data _ => timestampSlots data = true → resourceTimestampCanLock data = true) data
        waitings sends)
    (sent : EverySent timestampManager.toOps Rc.ok data waitings sends) :
    (scan timestampManager.toOps Rc.ok data waitings sends).queue = [] ∨
      timestampSlots (scan timestampManager.toOps Rc.ok data waitings sends).state = false := by
  induction data, waitings, sends using scan_cases timestampManager.toOps Rc.ok with
  | done data sends => exact .inl rfl
  | granted data waiter rest sends can head ih =>
    obtain ⟨_, later⟩ := served
    rw [if_pos can, if_pos head] at later
    rw [EverySent, if_pos can] at sent
    exact ih later sent.2
  | failed data waiter rest sends can unsent =>
    rw [EverySent, if_pos can] at sent
    exact absurd sent.1 unsent
  | skipped data waiter rest sends cannot ih =>
    obtain ⟨here, later⟩ := served
    rw [if_neg (by simp [cannot])] at later
    rw [EverySent, if_neg (by simp [cannot])] at sent
    have full : timestampSlots data = false := by
      by_contra free
      have can := here (by simpa using free)
      cases cannot.symm.trans can
    exact .inr (scan_preserved full_preserved Rc.ok _ rest sends
      (full_preserved.skip data waiter full) fun _ _ => trivial)

theorem timestampLockerStep_slotted (locker : TimestampLocker) (event : TimestampEvent)
    (slotted : locker.rsrc.data.Slotted total) :
    (timestampLockerStep locker event).rsrc.data.Slotted total := by
  unfold timestampLockerStep
  split_ifs with running
  · cases event with
    | inmsg conn lastStep msg env =>
      exact timestamp_slotted_step locker.rsrc (.call (.inmsg conn lastStep msg env)) slotted
    | clean conn env byLoop =>
      exact timestamp_slotted_step locker.rsrc (.call (.clean conn env)) slotted
    | timeout env => exact timestamp_slotted_step locker.rsrc (.timeout env) slotted
  · exact slotted

def DeadlineArmed (rsrc : TimestampRsrc) (deadline : Timeval) : Prop :=
  rsrc.waitings ≠ [] → timestampSlots rsrc.data = true →
    deadline = resourceTimestampNextDeadline rsrc.data

theorem armed_iff {locker : TimestampLocker} (slotted : locker.rsrc.data.Slotted total) :
    locker.Armed ↔ (locker.running = true → DeadlineArmed locker.rsrc locker.nextDeadline) := by
  rw [TimestampLocker.Armed, DeadlineArmed, slotted_slots slotted]

theorem armed_skip {rsrc : TimestampRsrc} {deadline : Timeval} (waiter : ConnLock Unit)
    (armed : DeadlineArmed rsrc deadline) :
    DeadlineArmed { rsrc with data := timestampManager.skip rsrc.data waiter } deadline := by
  obtain ⟨last, interval, locked, quantity⟩ := skip_timestamps rsrc.data waiter
  intro waits free
  rw [timestampSlots, locked, quantity] at free
  rw [nextDeadline_congr last interval]
  exact armed waits free

theorem armed_clean {rsrc : TimestampRsrc} {deadline : Timeval} {conn : ConnId} {env : Env}
    (armed : DeadlineArmed rsrc deadline) (rearms : releaseRearms rsrc deadline conn env) :
    DeadlineArmed (resourceTimestampClean rsrc conn env).rsrc deadline := by
  unfold resourceTimestampClean rsrcClean
  cases released : timestampManager.release (timestampSetClock rsrc env.clock).data conn with
  | none =>
    rw [Manager.clean_of_none _ _ _ _ _ _ released]
    intro waits free
    refine armed (fun none => waits ?_) free
    simp only [timestampSetClock, none, List.eraseP_nil]
  | some freed =>
    rw [Manager.clean_of_some _ _ _ _ _ _ _ released]
    obtain ⟨_, _, made⟩ := Option.map_eq_some_iff.mp released
    obtain none | ⟨refused, fresh⟩ | ⟨served, sent⟩ := rearms freed released
    · intro waits _
      refine absurd ?_ waits
      simp only [timestampSetClock, none]
      rfl
    · intro _ _
      refine fresh.trans ((scan_refused refused).trans ?_).symm
      rw [← made]
      rfl
    · intro waits free
      obtain empty | full := scan_served served sent
      · exact absurd empty waits
      · cases full.symm.trans free

theorem armed_lock (rsrc : TimestampRsrc) {deadline : Timeval}
    (request : Request TimestampData (ConnLock Unit)) (lastStep : Int) (msg : Msg)
    (slotted : rsrc.data.Slotted total) (armed : DeadlineArmed rsrc deadline)
    (lock : resourceTimestampCanLock rsrc.data = true →
      rsrc.waitings = [] ∨ rsrc.data.totalQuantity ≤ rsrc.data.lockedQuantity + 1) :
    DeadlineArmed (rsrcLock timestampManager request rsrc lastStep msg).rsrc
      (if (msgFree msg).1 = .ok ∧ resourceTimestampCanLock rsrc.data = false ∧
        request.wait = true then
        resourceTimestampNextDeadline rsrc.data
      else deadline) := by
  have test : timestampManager.can rsrc.data request.waiter = resourceTimestampCanLock rsrc.data :=
    rfl
  have skipped := armed_skip request.waiter armed
  rw [rsrcLock_rsrc_eq, test]
  by_cases freed : (msgFree msg).1 = .ok
  case neg => simpa only [freed, false_and, if_false] using skipped
  by_cases can : resourceTimestampCanLock rsrc.data = true
  case pos =>
    simp only [freed, can, and_self, if_true, Bool.true_eq_false, false_and, and_false, if_false]
    intro waits free
    obtain none | last := lock can
    · exact absurd none waits
    · have taken := (timestamp_slotted_preserved total).take rsrc.data request.waiter slotted
        trivial can
      have room := (slotted_slots taken).mp free
      rw [Int32.lt_iff_toInt_lt] at room
      rw [Int32.le_iff_toInt_le] at last
      exact absurd last (not_le.mpr room)
  rw [Bool.not_eq_true] at can
  by_cases waits : request.wait = true
  · simp only [freed, can, waits, and_self, if_true, Bool.false_eq_true, and_false, if_false]
    intro _ _
    obtain ⟨last, interval, _⟩ := skip_timestamps rsrc.data request.waiter
    exact (nextDeadline_congr last interval).symm
  · simpa only [freed, can, waits, Bool.false_eq_true, and_false, if_false] using skipped

theorem armed_timeout {rsrc : TimestampRsrc} {deadline : Timeval} {env : Env}
    (armed : DeadlineArmed rsrc deadline) (done : (resourceTimestampTimeout rsrc env).rc = .ok) :
    DeadlineArmed (resourceTimestampTimeout rsrc env).rsrc
      (resourceTimestampTimeoutDeadline rsrc env deadline) := by
  unfold resourceTimestampTimeoutDeadline
  dsimp only
  split_ifs with empty served
  · rwa [resourceTimestampTimeout, if_pos empty]
  · exact fun _ _ => rfl
  · have refused : ¬resourceTimestampCanLock (timestampSetClock rsrc env.clock).data = true :=
      fun can => served ⟨can, done⟩
    simp only [resourceTimestampTimeout, if_neg empty, if_neg refused]
    have started : DeadlineArmed (timestampSetClock rsrc env.clock) deadline := armed
    exact armed_skip ⟨0, ()⟩ started

theorem armed_inmsg {rsrc : TimestampRsrc} {deadline : Timeval} {conn : ConnId} {lastStep : Int}
    {msg : Msg} {env : Env} (slotted : rsrc.data.Slotted total)
    (armed : DeadlineArmed rsrc deadline) (lock : msg.verb = .lock → lockRearms rsrc env)
    (unlock : msg.verb = .unlock → some rsrc.name = msg.unlock8.name →
      releaseRearms rsrc deadline conn env) :
    DeadlineArmed (resourceTimestampInmsg rsrc conn lastStep msg env).rsrc
      (resourceTimestampInmsgDeadline rsrc msg env deadline) := by
  unfold resourceTimestampInmsg resourceTimestampInmsgDeadline
  cases verb : msg.verb with
  | lock =>
    have locked := armed_lock (timestampSetClock rsrc env.clock)
      ⟨⟨conn, ()⟩, msg.lock8.wait ≠ 0, .lockBusy, fun data =>
        some (timestampElement env.strftime data)⟩
      lastStep msg slotted armed (lock verb)
    simpa only [decide_eq_true_eq] using locked
  | unlock =>
    exact rsrcUnlock_rsrc_named (motive := fun after : TimestampRsrc =>
      DeadlineArmed after deadline) msg armed fun named => armed_clean armed (unlock verb named)
  | _ => exact armed

theorem timestampLockerStep_armed (locker : TimestampLocker) (event : TimestampEvent)
    (kept : locker.rsrc.data.Slotted total ∧ locker.Armed) (rearms : timestampRearms locker event) :
    (timestampLockerStep locker event).rsrc.data.Slotted total ∧
    (timestampLockerStep locker event).Armed := by
  obtain ⟨slotted, armed⟩ := kept
  have next := timestampLockerStep_slotted locker event slotted
  refine ⟨next, ?_⟩
  rw [armed_iff slotted] at armed
  rw [armed_iff next]
  unfold timestampLockerStep
  split_ifs with running
  · have now := armed running
    have here := rearms running
    cases event with
    | inmsg conn lastStep msg env => exact fun _ => armed_inmsg slotted now here.1 here.2
    | clean conn env byLoop => exact fun _ => armed_clean now here
    | timeout env => exact fun done => armed_timeout now (of_decide_eq_true done)
  · exact armed

end

theorem timestamp_wakeup_armed (name : Name) (rsrc : TimestampRsrc)
    (started : resourceTimestampInit name = .ok rsrc) (now : Timeval) (events : List TimestampEvent)
    (rearms : Along timestampLockerStep timestampRearms (timestampLockerStart rsrc now) events) :
    (run timestampLockerStep (timestampLockerStart rsrc now) events).Armed := by
  have slotted : rsrc.data.Slotted rsrc.data.totalQuantity := timestamp_slotted started []
  have armed : (timestampLockerStart rsrc now).Armed := by
    intro _ waits
    exact absurd (resourceTimestampInit_ok started).2 waits
  exact (along_invariant timestampLockerStep timestampRearms
    (fun locker => locker.rsrc.data.Slotted rsrc.data.totalQuantity ∧ locker.Armed)
      timestampLockerStep_armed
    (timestampLockerStart rsrc now) events ⟨slotted, armed⟩ rearms).2

def lockEvent (conn : ConnId) (clock : List Timeval) : TimestampEvent :=
  .inmsg conn 8 (msgLock timestampName .ex 1 1 1) { Env.fine with clock }

def unlockEvent (conn : ConnId) (clock : List Timeval) : TimestampEvent :=
  .inmsg conn 8 (msgUnlock timestampName 0) { Env.fine with clock }

def patientEvents : List TimestampEvent :=
  [lockEvent 1 [⟨10, 0⟩, ⟨10, 5⟩], lockEvent 2 [⟨10, 6⟩], lockEvent 3 [⟨10, 7⟩],
    .timeout { Env.fine with clock := [⟨10, 100000⟩, ⟨10, 100001⟩, ⟨10, 100002⟩, ⟨10, 100003⟩] },
    unlockEvent 1 [⟨10, 100004⟩]]

theorem timestamp_wakeup_armed_patient :
    let locker :=
      run timestampLockerStep (timestampLockerStart timestampTenths ⟨9, 0⟩) patientEvents
    locker.rsrc.waitings ≠ [] ∧ timestampSlots locker.rsrc.data = true ∧ locker.Armed :=
  ⟨by decide, by decide,
    timestamp_wakeup_armed timestampName timestampTenths (by decide) ⟨9, 0⟩ patientEvents
      (by decide)⟩

def queuedEvents : List TimestampEvent :=
  [lockEvent 1 [⟨10, 0⟩, ⟨10, 5⟩], lockEvent 2 [⟨10, 6⟩], lockEvent 3 [⟨10, 7⟩],
    unlockEvent 1 [⟨10, 100000⟩, ⟨10, 100001⟩, ⟨10, 100002⟩]]

theorem release_leaves_deadline :
    let locker := run timestampLockerStep (timestampLockerStart timestampTenths ⟨9, 0⟩) queuedEvents
    resourceTimestampInit timestampName = .ok timestampTenths ∧
      (queuedEvents.flatMap fun event => event.env.clock).Pairwise
        (fun first second => first.micros ≤ second.micros) ∧
      locker.nextDeadline = ⟨10, 100000⟩ ∧
        resourceTimestampNextDeadline locker.rsrc.data = ⟨10, 200000⟩ ∧
      ¬locker.Armed := by
  decide

end Flom
