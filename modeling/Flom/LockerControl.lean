import Flom.LockerConns

set_option autoImplicit false

namespace Flom

def Locker.controlOpen (locker : Locker) : Prop :=
  locker.running = true ∧
    ∃ conn, locker.conns[0]? = some conn ∧ conn.id = locker.control ∧ conn.state ≠ .remove

instance (locker : Locker) : Decidable locker.controlOpen :=
  decidable_of_iff
    (locker.running = true ∧ locker.conns[0]?.any fun conn =>
      decide (conn.id = locker.control ∧ conn.state ≠ .remove))
    (by simp [Locker.controlOpen, Option.any_eq_true])

def Locker.processed (locker : Locker) (conn : Conn) (ready : Ready) : Prop :=
  let answer := resourceInmsg locker.resource conn.id conn.lastStep conn.msg ready.env
  (conn.msg.verb = .lock ∨ conn.msg.verb = .unlock) ∧ answer.rc = .ok ∧
    (answer.msg.state = .ready →
      ready.serialize = .ok ∧ (connSend conn ready.send = .ok ∨
      connSend conn ready.send = .sendError)) ∧
    (msgFree answer.msg).1 = .ok

def Ready.cleanable (ready : Ready) : Prop :=
  ready.closed = true ∧ ∀ send ∈ ready.cleanEnv.sends, send = .ok

def Ready.hands (ready : Ready) (conn : Conn) : Prop :=
  ready.err = false ∧ ready.pollin = true ∧ ready.handed = some conn

def PollEvent.safe (locker : Locker) : PollEvent → Prop
  | .failed => False
  | .timeout env => ∀ send ∈ env.sends, send = .ok
  | .ready revents =>
    (∀ ready ∈ revents, ready.cleanable) ∧
      ∀ ready ∈ revents.head?, ∀ conn, ready.hands conn → locker.processed conn ready

def PollEvent.polls : PollEvent → Prop
  | .ready revents => ∀ ready ∈ revents.head?, ∀ conn, ready.hands conn → conn.sockfd = true
  | _ => True

/-- What the pipe shows only once the daemon has closed its write end. -/
def Ready.writerGone (ready : Ready) : Prop :=
  ready.err = true ∨ ready.hup = true ∨ (ready.pollin = true ∧ ready.handed = none)

def PollEvent.writerGone : PollEvent → Prop
  | .ready revents => ∃ ready ∈ revents.head?, ready.writerGone
  | _ => False

structure Locker.Keeps (before after : Locker) : Prop where
  running : after.running = before.running
  control : after.control = before.control
  first : after.conns[0]? = before.conns[0]?
  length : before.conns.length ≤ after.conns.length

theorem Locker.keeps_refl (locker : Locker) : locker.Keeps locker := ⟨rfl, rfl, rfl, le_rfl⟩

theorem Locker.Keeps.trans {first second third : Locker} (before : first.Keeps second)
    (after : second.Keeps third) : first.Keeps third :=
  ⟨after.running.trans before.running, after.control.trans before.control,
    after.first.trans before.first, before.length.trans after.length⟩

theorem Locker.Keeps.controlOpen {before after : Locker} (keeps : before.Keeps after)
    (alive : before.controlOpen) : after.controlOpen := by
  obtain ⟨running, conn, first, same, state⟩ := alive
  exact ⟨keeps.running.trans running, conn, keeps.first.trans first, same.trans keeps.control.symm,
    state⟩

theorem setConn_keeps (locker : Locker) {id : Nat} (conn : Conn) (client : id ≠ 0) :
    locker.Keeps (locker.setConn id conn) :=
  ⟨rfl, rfl, List.getElem?_set_ne client, by simp [Locker.setConn]⟩

theorem connsCloseFd_first (conns : List Conn) {id : Nat} (closed : Bool) (client : id ≠ 0) :
    (connsCloseFd conns id closed).2[0]? = conns[0]? := by
  unfold connsCloseFd
  split
  · exact List.getElem?_set_ne client
  · rfl

theorem connsCloseFd_length (conns : List Conn) (id : Nat) (closed : Bool) :
    (connsCloseFd conns id closed).2.length = conns.length := by
  unfold connsCloseFd
  split
  · exact List.length_set
  · rfl

theorem connsCloseFd_ok {conns : List Conn} {id : Nat} {conn : Conn}
    (present : conns[id]? = some conn) :
    (connsCloseFd conns id true).1 = .ok := by
  simp only [connsCloseFd, present, connTerminate_true]

theorem lockerProcess_rc (locker : Locker) (id : Nat) (conn : Conn) (ready : Ready) :
    (lockerProcess locker id conn ready).rc = .ok ↔ locker.processed conn ready := by
  unfold lockerProcess Locker.processed
  dsimp only
  generalize resourceInmsg locker.resource conn.id conn.lastStep conn.msg ready.env = answer
  split_ifs with verb done full written sent
  · split <;> simp_all
  · simp_all
  · simp_all
  · split <;> simp_all
  · simp_all
  · simp_all

theorem lockerProcess_refresh (locker : Locker) (id : Nat) (conn : Conn) (ready : Ready) :
    (lockerProcess locker id conn ready).refresh = false := by
  unfold lockerProcess
  dsimp only
  split_ifs <;> first | rfl | (split <;> rfl)

theorem lockerProcess_keeps (locker : Locker) {id : Nat} (conn : Conn) (ready : Ready)
    (client : id ≠ 0) : locker.Keeps (lockerProcess locker id conn ready).locker := by
  by_cases request : conn.msg.verb = .lock ∨ conn.msg.verb = .unlock
  · obtain ⟨conn', mail, _, _, _, same⟩ := lockerProcess_locker locker id conn ready request
    rw [same]
    exact ⟨rfl, rfl, List.getElem?_set_ne client, by simp⟩
  · rw [lockerProcess, if_neg request]
    exact locker.keeps_refl

theorem lockerClose_keeps (locker : Locker) {id : Nat} (closed : Bool) (client : id ≠ 0) :
    locker.Keeps (lockerClose locker id closed).2 :=
  ⟨rfl, rfl, connsCloseFd_first locker.conns closed client,
    (connsCloseFd_length locker.conns id closed).ge⟩

theorem Locker.Keeps.replied {before after : Locker} (keeps : before.Keeps after)
    (resource : Resource) (mail : List Mail) : before.Keeps ({ after with resource }.send mail) :=
  ⟨keeps.running, keeps.control, keeps.first, keeps.length⟩

theorem lockerData_keeps (locker : Locker) {id : Nat} (conn : Conn) (rc : Rc) (msg : Msg)
    (ready : Ready) (client : id ≠ 0) :
    locker.Keeps (lockerData locker id conn rc msg ready).locker := by
  have stepped := setConn_keeps locker { conn with lastStep := msg.step, msg := msg } client
  have closed := stepped.trans (lockerClose_keeps _ ready.closed client)
  unfold lockerData
  dsimp only
  split_ifs
  · exact closed.trans (lockerProcess_keeps _ _ ready client)
  · exact closed
  · exact stepped.trans (lockerProcess_keeps _ _ ready client)
  · exact setConn_keeps locker _ client

theorem lockerLoopPollin_keeps (locker : Locker) {id : Nat} (ready : Ready) (client : id ≠ 0) :
    locker.Keeps (lockerLoopPollin locker id ready).locker := by
  have woken : locker.Keeps { locker with idlePeriods := 0 } := ⟨rfl, rfl, rfl, le_rfl⟩
  unfold lockerLoopPollin
  split
  · exact locker.keeps_refl
  · next conn present =>
    simp only [client, if_false]
    split
    · exact woken
    · exact woken.trans (lockerData_keeps _ conn _ _ ready client)

theorem lockerDisconnect_keeps (locker : Locker) {id : Nat} (ready : Ready) (client : id ≠ 0) :
    locker.Keeps (lockerDisconnect locker id ready).locker := by
  have closed := lockerClose_keeps locker ready.closed client
  unfold lockerDisconnect
  split
  · dsimp only
    split
    · exact closed.replied _ _
    · exact closed
  · exact locker.keeps_refl

theorem lockerClose_ok {locker : Locker} {id : Nat} {closed : Bool}
    (bound : id < locker.conns.length) (success : closed = true) :
    (lockerClose locker id closed).1 = .ok := by
  rw [lockerClose, success]
  exact connsCloseFd_ok (List.getElem?_eq_getElem bound)

theorem lockerDisconnect_flow {locker : Locker} {id : Nat} {ready : Ready}
    (bound : id < locker.conns.length) (cleanable : ready.cleanable) :
    (lockerDisconnect locker id ready).flow = .again := by
  have cleaned := fun conn => resourceClean_rc_of_sent locker.resource conn ready.cleanEnv
    cleanable.2
  simp only [lockerDisconnect, List.getElem?_eq_getElem bound, lockerClose_ok bound cleanable.1,
    cleaned,
    if_true]

theorem lockerHup_keeps {locker : Locker} {id : Nat} {ready : Ready} (client : id ≠ 0)
    (bound : id < locker.conns.length) (cleanable : ready.cleanable) :
    (lockerHup locker id ready).flow ≠ .leave ∧
    locker.Keeps (lockerHup locker id ready).locker := by
  unfold lockerHup
  split_ifs
  · exact ⟨by simp [lockerDisconnect_flow bound cleanable],
      lockerDisconnect_keeps locker ready client⟩
  · exact ⟨by simp, locker.keeps_refl⟩

theorem lockerServe_keeps {locker : Locker} {id : Nat} {ready : Ready} (client : id ≠ 0)
    (bound : id < locker.conns.length) (cleanable : ready.cleanable) :
    (lockerServe locker id ready).flow ≠ .leave ∧
      locker.Keeps (lockerServe locker id ready).locker := by
  have polled := lockerLoopPollin_keeps locker ready client
  have inside := bound.trans_le polled.length
  unfold lockerServe
  dsimp only
  split_ifs
  · exact ⟨by simp [lockerDisconnect_flow bound cleanable],
      lockerDisconnect_keeps locker ready client⟩
  · exact ⟨by simp, polled⟩
  · obtain ⟨flow, kept⟩ := lockerHup_keeps client inside cleanable
    exact ⟨flow, polled.trans kept⟩
  · exact ⟨by simp [lockerDisconnect_flow inside cleanable],
      polled.trans (lockerDisconnect_keeps _ ready client)⟩
  · exact lockerHup_keeps client bound cleanable

theorem lockerScan_keeps (locker : Locker) (id : Nat) (revents : List Ready) (client : id ≠ 0)
    (bound : id + revents.length ≤ locker.conns.length)
    (cleanable : ∀ ready ∈ revents, ready.cleanable) :
    locker.Keeps (lockerScan locker id revents) := by
  induction revents generalizing locker id with
  | nil => exact locker.keeps_refl
  | cons ready rest ih =>
    rw [List.length_cons] at bound
    obtain ⟨stays, kept⟩ := lockerServe_keeps client (by omega : id < locker.conns.length)
      (cleanable ready (by simp))
    rw [lockerScan]
    generalize lockerServe locker id ready = served at stays kept
    obtain ⟨flow, reached⟩ := served
    have length := kept.length
    dsimp only at length
    cases flow with
    | next =>
      exact kept.trans (ih reached (id + 1) (by omega) (by omega)
        fun ready member => cleanable ready (List.mem_cons_of_mem _ member))
    | again => exact kept
    | leave => exact absurd rfl stays

theorem controlOpen_head {locker : Locker} (alive : locker.controlOpen) :
    ∃ conn, locker.conns[0]? = some conn ∧ locker.conns.head?.any (·.id = locker.control) = true ∧
      0 < locker.conns.length := by
  obtain ⟨_, conn, first, same, _⟩ := alive
  obtain ⟨bound, _⟩ := List.getElem?_eq_some_iff.mp first
  refine ⟨conn, first, ?_, bound⟩
  rw [List.head?_eq_getElem?, first]
  simpa using same

theorem lockerLoopPollin_pipe {locker : Locker} {ready : Ready} {conn : Conn}
    (alive : locker.controlOpen) (handed : ready.handed = some conn) :
    lockerLoopPollin locker 0 ready =
      lockerProcess { locker with conns := locker.conns ++ [conn], idlePeriods := 0 }
        locker.conns.length conn ready := by
  obtain ⟨first, present, pipe, _⟩ := controlOpen_head alive
  simp only [lockerLoopPollin, present, if_true, lockerHandover, lockerRead, pipe, handed]

theorem lockerLoopPollin_pipe_keeps {locker : Locker} {ready : Ready} {conn : Conn}
    (alive : locker.controlOpen) (handed : ready.handed = some conn) :
    locker.Keeps (lockerLoopPollin locker 0 ready).locker := by
  obtain ⟨first, present, _, bound⟩ := controlOpen_head alive
  rw [lockerLoopPollin_pipe alive handed]
  have appended : locker.Keeps
      { locker with conns := locker.conns ++ [conn], idlePeriods := 0 } := by
    refine ⟨rfl, rfl, List.getElem?_append_left bound, ?_⟩
    rw [List.length_append]
    omega
  exact appended.trans (lockerProcess_keeps _ conn ready (by omega))

theorem lockerServe_pipe {locker : Locker} {ready : Ready} (alive : locker.controlOpen)
    (open_ : ¬ready.writerGone) (served : ∀ conn, ready.hands conn → locker.processed conn ready) :
    (lockerServe locker 0 ready).flow = .next ∧
    locker.Keeps (lockerServe locker 0 ready).locker := by
  simp only [Ready.writerGone, not_or, not_and, Bool.not_eq_true] at open_
  obtain ⟨quiet, hup, readable⟩ := open_
  unfold lockerServe
  by_cases polls : ready.pollin = true
  · obtain ⟨conn, handed⟩ := Option.ne_none_iff_exists'.mp (readable polls)
    have done : (lockerLoopPollin locker 0 ready).rc = .ok := by
      rw [lockerLoopPollin_pipe alive handed]
      exact (lockerProcess_rc _ _ _ _).mpr (served conn ⟨quiet, polls, handed⟩)
    have fresh : (lockerLoopPollin locker 0 ready).refresh = false := by
      rw [lockerLoopPollin_pipe alive handed, lockerProcess_refresh]
    simp only [quiet, polls, done, fresh, lockerHup, hup]
    exact ⟨rfl, lockerLoopPollin_pipe_keeps alive handed⟩
  · simp only [quiet, polls, lockerHup, hup]
    exact ⟨rfl, locker.keeps_refl⟩

theorem cleaned_controlOpen {locker : Locker} (alive : locker.controlOpen) :
    locker.cleaned.controlOpen := by
  obtain ⟨running, conn, first, same, state⟩ := alive
  exact ⟨running, conn, connsClean_head first state, same, state⟩

theorem lockerStep_of_open {locker : Locker} (alive : locker.controlOpen) (polled : locker.polled)
    (event : PollEvent) : lockerStep locker event = lockerPoll locker.cleaned event := by
  obtain ⟨_, _, _, bound⟩ := controlOpen_head (cleaned_controlOpen alive)
  have left : locker.cleaned.conns ≠ [] := List.ne_nil_of_length_pos bound
  rw [lockerStep, if_pos alive.1, if_neg left, if_pos (cleaned_setEvents polled)]

theorem polls_polled {locker : Locker} {event : PollEvent} (polled : locker.polled)
    (polls : event.polls) :
    (lockerStep locker event).polled := by
  refine lockerStep_polled polled fun conn joined => ?_
  unfold Locker.admitted Locker.admits at joined
  split at joined
  · next first rest =>
    split_ifs at joined with reads
    · exact polls first rfl conn ⟨reads.2.1, reads.2.2.1, Option.mem_toList.mp joined⟩
    · cases joined
  · cases joined

theorem lockerPoll_ready {locker : Locker} (alive : locker.controlOpen) (ready : Ready)
    (rest : List Ready) :
    lockerPoll locker (.ready (ready :: rest)) =
      match lockerServe locker 0 ready with
      | ⟨.next, served⟩ => lockerScan served 1 (rest.take (locker.conns.length - 1))
      | ⟨.again, served⟩ => served
      | ⟨.leave, served⟩ => served.leave := by
  obtain ⟨_, _, _, bound⟩ := controlOpen_head alive
  obtain ⟨count, length⟩ := Nat.exists_eq_add_one_of_ne_zero (Nat.ne_of_gt bound)
  rw [lockerPoll, length, List.take_succ_cons, lockerScan]
  rfl

theorem lockerPoll_controlOpen (locker : Locker) (event : PollEvent) (alive : locker.controlOpen)
    (safe : event.safe locker) (writing : ¬event.writerGone) :
    (lockerPoll locker event).controlOpen := by
  cases event with
  | failed => exact safe.elim
  | timeout env =>
    simp only [lockerPoll, resourceTimeout_rc_of_sent locker.resource env safe, if_true]
    split <;> exact alive
  | ready revents =>
    obtain ⟨cleanable, served⟩ := safe
    obtain ⟨_, _, _, bound⟩ := controlOpen_head alive
    cases revents with
    | nil =>
      rw [lockerPoll, List.take_nil, lockerScan]
      exact alive
    | cons ready rest =>
      obtain ⟨flow, kept⟩ := lockerServe_pipe alive (fun gone => writing ⟨ready, rfl, gone⟩)
        fun conn hands => served ready rfl conn hands
      rw [lockerPoll_ready alive]
      generalize lockerServe locker 0 ready = first at flow kept
      obtain ⟨_, reached⟩ := first
      obtain rfl : _ = Flow.next := flow
      have more : locker.conns.length ≤ reached.conns.length := kept.length
      refine (kept.trans (lockerScan_keeps reached 1 _ (by omega) ?_ ?_)).controlOpen alive
      · rw [List.length_take]
        omega
      · intro other member
        exact cleanable other (List.mem_cons_of_mem _ (List.mem_of_mem_take member))

theorem lockerDisconnect_closes {locker : Locker} {id : Nat} {conn : Conn} (ready : Ready)
    (present : locker.conns[id]? = some conn) :
    (lockerDisconnect locker id ready).flow ≠ .next ∧
      ∃ closed, (lockerDisconnect locker id ready).locker.conns[id]? = some closed ∧
        closed.state = .remove := by
  obtain ⟨bound, _⟩ := List.getElem?_eq_some_iff.mp present
  have closed : (lockerClose locker id ready.closed).2.conns[id]? =
      some (connTerminate conn ready.closed).2 := by
    simp only [lockerClose, connsCloseFd, present, List.getElem?_set_self bound]
  have removed := connTerminate_state conn ready.closed
  unfold lockerDisconnect
  rw [present]
  dsimp only
  split_ifs <;> exact ⟨by simp, _, closed, removed⟩

-- A connection that cannot be served takes the pipe down instead of itself.
theorem lockerPoll_unprocessed (locker : Locker) (ready : Ready) (rest : List Ready) (conn : Conn)
    (alive : locker.controlOpen) (hands : ready.hands conn)
    (failed : ¬locker.processed conn ready) :
    ¬(lockerPoll locker (.ready (ready :: rest))).controlOpen := by
  obtain ⟨quiet, polls, handed⟩ := hands
  have error : (lockerLoopPollin locker 0 ready).rc ≠ .ok := by
    rw [lockerLoopPollin_pipe alive handed, Ne, lockerProcess_rc]
    exact failed
  have served : lockerServe locker 0 ready =
      lockerDisconnect (lockerLoopPollin locker 0 ready).locker 0 ready := by
    simp [lockerServe, quiet, polls, error]
  obtain ⟨_, first, present, _⟩ := (lockerLoopPollin_pipe_keeps alive handed).controlOpen alive
  obtain ⟨ended, closed, last, removed⟩ := lockerDisconnect_closes ready present
  rw [lockerPoll_ready alive, served]
  generalize lockerDisconnect (lockerLoopPollin locker 0 ready).locker 0 ready =
    disconnected at ended last
  obtain ⟨flow, reached⟩ := disconnected
  rintro ⟨running, other, still, _, state⟩
  cases flow with
  | next => exact ended rfl
  | again =>
    obtain rfl := Option.some.inj (last.symm.trans still)
    exact state removed
  | leave => cases running

theorem control_closed_by_daemon_only (control : ConnId) (resource : Resource)
    (events : List PollEvent)
    (safe : Run.Along lockerStep (fun locker event => event.safe locker ∧ event.polls)
      (lockerStart control resource) events) :
    let reached := Run.run lockerStep (lockerStart control resource) events
    (reached.controlOpen ∨ ∃ event ∈ events, event.writerGone) ∧
      ∀ ready rest conn, reached.controlOpen → ready.hands conn → ¬ready.writerGone →
        (∀ other ∈ ready :: rest, other.cleanable) →
        ((lockerStep reached (.ready (ready :: rest))).controlOpen ↔
            reached.processed conn ready) := by
  intro reached
  have started : (lockerStart control resource).polled := by
    simp [Locker.polled, lockerStart, connInit]
  have polled : reached.polled := by
    apply Run.along_invariant lockerStep (fun locker event => event.safe locker ∧ event.polls)
      Locker.polled
    · exact fun _ _ polled safe => polls_polled polled safe.2
    · exact started
    · exact safe
  constructor
  · refine (Run.along_until lockerStep (fun locker event => event.safe locker ∧ event.polls)
      (fun locker => locker.controlOpen ∧ locker.polled) PollEvent.writerGone ?_ _ events ?_
        safe).imp
      And.left id
    · intro locker event alive safe writing
      refine ⟨?_, polls_polled alive.2 safe.2⟩
      rw [lockerStep_of_open alive.1 alive.2]
      exact lockerPoll_controlOpen _ event (cleaned_controlOpen alive.1) safe.1 writing
    · exact ⟨⟨rfl, _, rfl, rfl, by simp [connInit]⟩, started⟩
  · intro ready rest conn alive hands writing cleanable
    rw [lockerStep_of_open alive polled]
    constructor
    · intro still
      by_contra failed
      exact lockerPoll_unprocessed _ ready rest conn (cleaned_controlOpen alive) hands failed still
    · intro processed
      refine lockerPoll_controlOpen _ _ (cleaned_controlOpen alive) ⟨cleanable, ?_⟩ ?_
      · rintro _ ⟨⟩ other ⟨_, _, handed⟩
        obtain rfl := Option.some.inj (handed.symm.trans hands.2.2)
        exact processed
      · rintro ⟨_, ⟨⟩, gone⟩
        exact writing gone

def handedLock (id : ConnId) (name : Name) : Conn :=
  { connInit id false false with lastStep := 8, msg := msgLock name .ex 1 0 1 }

def handover (conn : Conn) (send : Rc) : PollEvent :=
  .ready [{ Ready.idle with pollin := true, handed := some conn, send := send }]

theorem control_closed_by_daemon_only_lock :
    let start := lockerStart 0 (.simple (resourceSimpleInit ['x']))
    let event := handover (handedLock 1 ['x']) .sendError
    (Run.run lockerStep start [event]).controlOpen := by
  intro start event
  have safe : Run.Along lockerStep (fun locker event => event.safe locker ∧ event.polls) start
      [event] := by
    refine ⟨⟨⟨?_, ?_⟩, ?_⟩, trivial⟩
    · simp [Ready.cleanable, Ready.idle, Env.fine]
    · rintro _ ⟨⟩ conn ⟨_, _, ⟨⟩⟩
      exact ⟨.inl rfl, rfl, fun _ => ⟨rfl, .inr rfl⟩, rfl⟩
    · rintro _ ⟨⟩ conn ⟨_, _, ⟨⟩⟩
      rfl
  obtain alive | ⟨_, member, gone⟩ := (control_closed_by_daemon_only 0 _ [event] safe).1
  · exact alive
  · obtain rfl := List.mem_singleton.mp member
    obtain ⟨_, ⟨⟩, gone⟩ := gone
    simp [Ready.writerGone, Ready.idle] at gone

-- The client resets before it is answered: its lock stays, and the pipe is closed in its place.
theorem reset_client_closes_control :
    let start := lockerStart 0 (.simple (resourceSimpleInit ['x']))
    let event := handover (handedLock 1 ['x']) .connectionClosed
    let reached := Run.run lockerStep start [event]
    ¬event.writerGone ∧ start.controlOpen ∧ ¬reached.controlOpen ∧
      (reached.conns.map fun conn => (conn.id, conn.state)) = [(0, .remove), (1, .locker)] ∧
      reached.resource.holding = [1] := by
  refine ⟨?_, ⟨rfl, _, rfl, rfl, by simp [connInit]⟩, ?_, by decide, by decide⟩
  · rintro ⟨_, ⟨⟩, gone⟩
    simp [Ready.writerGone, Ready.idle] at gone
  · rintro ⟨_, conn, first, _, state⟩
    obtain rfl := Option.some.inj first
    exact state (by decide)

end Flom
