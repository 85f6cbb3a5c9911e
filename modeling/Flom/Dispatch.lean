import Flom.MsgAccepted
import Flom.Routing

set_option autoImplicit false

namespace Flom

def Dispatched (locker : Locker) (id : Nat) (ready : Ready) : Prop :=
  ∀ conn ∈ lockerInput locker id ready, conn.msg.Admitted

instance dispatchedDecidable (locker : Locker) (id : Nat) (ready : Ready) :
    Decidable (Dispatched locker id ready) :=
  inferInstanceAs (Decidable (∀ conn ∈ lockerInput locker id ready, _))

def Feed.Admissible (feed : Feed) (msg : Msg) : Prop :=
  feed.wellFormed = true →
    (msg.acceptedHeader feed.events).verb = .lock ∨
      (msg.acceptedHeader feed.events).verb = .unlock →
    feed.Whole msg

instance admissibleDecidable (feed : Feed) (msg : Msg) : Decidable (feed.Admissible msg) :=
  inferInstanceAs (Decidable (_ → _ → _))

def Received.parse : Received → Option (Rc × Msg)
  | .data rc msg => some (rc, msg)
  | .failed _ => none

def ChunkFrom (decode : Name → Name) (feed : Feed) (locker : Locker) (id : Nat) (ready : Ready) :
    Prop :=
  ∀ conn ∈ locker.conns[id]?, ∀ parsed ∈ ready.received.parse,
    parsed = msgDeserialize decode feed conn.msg ∧ feed.Admissible conn.msg

instance chunkFromDecidable (decode : Name → Name) (feed : Feed) (locker : Locker) (id : Nat)
    (ready : Ready) :
    Decidable (ChunkFrom decode feed locker id ready) :=
  inferInstanceAs (Decidable (∀ conn ∈ locker.conns[id]?, ∀ parsed ∈ ready.received.parse, _ ∧ _))

def WholeChunk (decode : Name → Name) (locker : Locker) (id : Nat) (ready : Ready) : Prop :=
  id ≠ 0 → ready.err = false → ready.pollin = true → ∃ feed, ChunkFrom decode feed locker id ready

def Untainted (decode : Name → Name) (daemon : Daemon) (id : Nat) (revents : Revents) : Prop :=
  revents.pollin = true → revents.hup = false → ∀ conn name resource,
    Starts decode daemon id revents.accept conn name resource →
    ∀ other ∈ daemon.others id, other.waitsFor resource = true → other.msg.state ≠ .invalid

theorem lockerArrived_parse {locker : Locker} {id : Nat} {ready : Ready} {arrived : Conn}
    (client : id ≠ 0) (found : lockerArrived locker id ready = some arrived) :
    ∃ conn, locker.conns[id]? = some conn ∧ ready.received.parse = some (.ok, arrived.msg) := by
  obtain ⟨conn, rc, msg, present, received, opened⟩ := lockerArrived_data client found
  obtain ⟨rfl, rfl⟩ := dataArrived_msg opened
  exact ⟨conn, present, by rw [received]; rfl⟩

theorem lockerInput_locks {locker : Locker} {id : Nat} {ready : Ready} {conn : Conn}
    (input : conn ∈ lockerInput locker id ready) : conn.msg.verb = .lock ∨
    conn.msg.verb = .unlock := by
  unfold lockerInput at input
  split_ifs at input with polled
  · have locks := (Option.filter_eq_some_iff.mp input).2
    simpa [Msg.locks] using locks
  · cases input

theorem dispatched_client {decode : Name → Name} {locker : Locker} {id : Nat} {ready : Ready}
    (client : id ≠ 0) (whole : WholeChunk decode locker id ready) : Dispatched locker id ready := by
  intro arrived input
  obtain ⟨quiet, pollin, found⟩ := lockerInput_arrived input
  obtain ⟨conn, present, parse⟩ := lockerArrived_parse client found
  obtain ⟨feed, chunk⟩ := whole client quiet pollin
  obtain ⟨parsed, admissible⟩ := chunk conn present _ parse
  have wellFormed : feed.wellFormed = true := by
    by_contra broken
    simp [msgDeserialize, broken] at parsed
  have same : arrived.msg = (msgDeserialize decode feed conn.msg).2 := congrArg Prod.snd parsed
  have verb : arrived.msg.verb = (conn.msg.acceptedHeader feed.events).verb := by
    rw [same]
    exact congrArg Header.verb (events_parsed decode feed.address conn.msg feed.events).header
  have locks := lockerInput_locks input
  rw [verb] at locks
  rw [same, admitted_iff locks]
  exact admissible wellFormed locks

theorem lockerArrived_parsed {decode : Name → Name} {locker : Locker} {id : Nat} {ready : Ready}
    {conn : Conn} {feed : Feed} (client : id ≠ 0) (closes : ready.closed = true)
    (present : locker.conns[id]? = some conn) (wellFormed : feed.wellFormed = true)
    (received : ready.received = .data (msgDeserialize decode feed conn.msg).1
      (msgDeserialize decode feed conn.msg).2) :
    ∃ arrived, lockerArrived locker id ready = some arrived ∧
    arrived.msg = (msgDeserialize decode feed conn.msg).2 := by
  have parsed : (msgDeserialize decode feed conn.msg).1 = .ok := by
    simp [msgDeserialize, wellFormed]
  simp only [lockerArrived, present, if_neg client, received, dataArrived, parsed, closes,
    connTerminate_true, if_true]
  split_ifs
  · refine ⟨_, rfl, ?_⟩
    obtain ⟨sockfd, same⟩ := connTerminate_snd
      { conn with lastStep := (msgDeserialize decode feed conn.msg).2.step, msg := (msgDeserialize
        decode feed conn.msg).2 }
      true
    rw [Conn.terminated, same]
  · exact ⟨_, rfl, rfl⟩

theorem dispatched_chunk_iff {decode : Name → Name} {locker : Locker} {id : Nat} {ready : Ready}
    {conn : Conn} {feed : Feed} (client : id ≠ 0) (quiet : ready.err = false)
    (pollin : ready.pollin = true) (closes : ready.closed = true)
    (present : locker.conns[id]? = some conn)
    (received : ready.received = .data (msgDeserialize decode feed conn.msg).1
      (msgDeserialize decode feed conn.msg).2) :
    Dispatched locker id ready ↔ feed.Admissible conn.msg := by
  constructor
  · intro dispatched wellFormed locks
    obtain ⟨arrived, found, same⟩ := @lockerArrived_parsed decode locker id ready conn feed client
      closes present wellFormed received
    have verb : arrived.msg.verb = (conn.msg.acceptedHeader feed.events).verb := by
      rw [same]
      exact congrArg Header.verb (events_parsed decode feed.address conn.msg feed.events).header
    have input : lockerInput locker id ready = some arrived := by
      rw [lockerInput, if_pos ⟨quiet, pollin⟩, found, Option.filter_some, if_pos]
      rw [Msg.locks, verb]
      simpa using locks
    have admitted := dispatched arrived input
    rwa [same, admitted_iff locks] at admitted
  · intro admissible
    refine @dispatched_client decode locker id ready client fun _ _ _ =>
      ⟨feed, fun other here parsed parse => ?_⟩
    obtain rfl := Option.some.inj (present.symm.trans here)
    rw [received] at parse
    obtain rfl := Option.some.inj parse
    exact ⟨rfl, admissible⟩

def Conn.seasoned (conn : Conn) : Prop := conn.wait = true → conn.msg.Admitted ∨
    conn.msg.state = .invalid

def Daemon.Seasoned (daemon : Daemon) : Prop := ∀ conn ∈ daemon.conns, conn.seasoned

section

variable {decode : Name → Name} {daemon : Daemon} {id : Nat} {revents : Revents}

theorem Daemon.Seasoned.set (seasoned : daemon.Seasoned) {conn : Conn} (own : conn.seasoned) :
    (daemon.setConn id conn).Seasoned := by
  intro other member
  obtain old | rfl := List.mem_or_eq_of_mem_set member
  · exact seasoned other old
  · exact own

theorem Daemon.Seasoned.close (seasoned : daemon.Seasoned) (closed : Bool) :
    (daemonClose daemon id closed).2.Seasoned := by
  unfold daemonClose connsCloseFd
  cases present : daemon.conns[id]? with
  | none => exact seasoned
  | some conn =>
    obtain ⟨sockfd, same⟩ := connTerminate_snd conn closed
    refine seasoned.set ?_
    rw [same]
    exact seasoned conn (List.mem_of_getElem? present)

theorem Daemon.Seasoned.remove (seasoned : daemon.Seasoned) {position : Nat} {conn : Conn}
    (present : daemon.conns[position]? = some conn) : (daemon.remove position).Seasoned :=
  fun other member => seasoned other
    ((removeIndexFast_perm present).symm.subset (List.mem_cons_of_mem conn member))

theorem seasoned_acts (seasoned : daemon.Seasoned)
    (heard : ∀ conn, Heard decode daemon id revents.accept conn → conn.msg.Admitted)
    (whole : ∀ conn feed, id ≠ 0 → daemon.conns[id]? = some conn →
      revents.accept.arrival = .bytes feed →
      feed.wellFormed = true) :
    (acceptLoopServe decode daemon id revents).daemon.Seasoned := by
  refine acceptLoopServe_invariant daemon id revents seasoned fun reached act seasoned legal => ?_
  cases legal with
  | close closed client => exact seasoned.close closed
  | join conn listening same accepted state sockfd tls polled fresh =>
    intro other member
    obtain old | new := List.mem_append.mp member
    · exact seasoned other old
    · rw [List.mem_singleton.mp new, fresh]
      exact fun wait => absurd wait (by simp [connInit])
  | parse conn same here => exact seasoned.set fun _ => .inl (heard conn here)
  | garble conn old feed same client present arrived broken =>
    exact absurd (whole old feed client present arrived) (by simp [broken])
  | answer conn rc name here =>
    exact @Daemon.Seasoned.set reached id seasoned
      { conn with lastStep := 2 * msgStepIncr, wait := conn.wait || decide (rc =
        .lockWaitResource) }
      fun _ => .inl (heard conn here)
  | start conn name resource starts => exact seasoned
  | spend position locker conn => exact seasoned
  | drop position locker conn moves => exact seasoned.remove moves.present.2
  | hand position locker conn moves => exact seasoned.remove moves.present.2

theorem seasoned_data {old : Conn} {feed : Feed} {accept : Accept} (seasoned : daemon.Seasoned)
    (present : daemon.conns[id]? = some old)
    (refused : feed.wellFormed = false ∨ ¬(old.fed decode feed).msg.Admitted)
    (goes : (acceptLoopData decode daemon id old feed accept).rc = .ok ∨
      (acceptLoopData decode daemon id old feed accept).rc = .connectionClosed) :
    (acceptLoopData decode daemon id old feed accept).daemon.Seasoned := by
  simp only [acceptLoopData] at goes ⊢
  by_cases wellFormed : feed.wellFormed = true
  · have parsed : (msgDeserialize decode feed old.msg).1 = .ok := by
      simp [msgDeserialize, wellFormed]
    have unfit := refused.resolve_left (by simp [wellFormed])
    rw [if_pos parsed] at goes ⊢
    cases state : (msgDeserialize decode feed old.msg).2.state with
    | invalid =>
      have spent : (daemon.setConn id (old.fed decode feed)).Seasoned :=
        seasoned.set fun _ => .inr state
      exact spent.close accept.closed
    | ready =>
      have checked : msgCheckProtocol (msgDeserialize decode feed old.msg).2 true ≠ true :=
        fun checked => unfit ⟨state, checked⟩
      simp [state, acceptLoopReady, checked] at goes
    | initialized | parsing =>
      refine seasoned.set fun wait => ?_
      have settled := seasoned old (List.mem_of_getElem? present) wait
      have kept := @deserialize_ready decode feed old.msg (settled.imp_left And.left)
      simp [state] at kept
  · have broken : (msgDeserialize decode feed old.msg).1 = .markupParseError := by
      simp [msgDeserialize, wellFormed]
    simp [broken] at goes

theorem seasoned_serve (seasoned : daemon.Seasoned)
    (goes : (acceptLoopServe decode daemon id revents).flow ≠ .leave) :
    (acceptLoopServe decode daemon id revents).daemon.Seasoned := by
  by_cases unread : revents.pollin = false ∨ revents.hup = true ∧ id ≠ 0
  · obtain same | ⟨_, same⟩ := @acceptLoopServe_unread decode daemon id revents unread
    · rwa [same]
    · rw [same]
      exact seasoned.close _
  · obtain ⟨pollin, hup⟩ := not_or.mp unread
    by_cases fits : (∀ conn, Heard decode daemon id revents.accept conn → conn.msg.Admitted) ∧
        ∀ conn feed, id ≠ 0 → daemon.conns[id]? = some conn → revents.accept.arrival = .bytes feed →
        feed.wellFormed = true
    · exact seasoned_acts seasoned fits.1 fits.2
    · obtain ⟨old, feed, client, present, arrived, refused⟩ : ∃ old feed, id ≠ 0 ∧
        daemon.conns[id]? = some old ∧
          revents.accept.arrival = .bytes feed ∧
          (feed.wellFormed = false ∨ ¬(old.fed decode feed).msg.Admitted) := by
        by_contra none
        push Not at none
        refine fits ⟨?_, ?_⟩
        · rintro conn ⟨client, old, feed, present, arrived, wellFormed, rfl⟩
          exact (none old feed client present arrived).2
        · intro conn feed client present arrived
          exact Bool.not_eq_false _ ▸ (none conn feed client present arrived).1
      have polled : acceptLoopPollin decode daemon id revents.accept =
          acceptLoopData decode daemon id old feed revents.accept := by
        simp only [acceptLoopPollin, present, if_neg client, arrived]
      have data := @seasoned_data decode daemon id old feed revents.accept seasoned present refused
      rw [← polled] at data
      obtain ⟨hung, _⟩ | ⟨_, ⟨unread, _⟩ | ⟨_, ⟨gone, same⟩ | ⟨done, same, _⟩ | ⟨_, _, leaves⟩⟩⟩ :=
        acceptLoopServe_cases decode daemon id revents
      · exact absurd hung hup
      · exact absurd unread pollin
      · rw [same]
        exact (data (.inr gone)).close _
      · rw [same]
        exact data (.inl done)
      · exact absurd leaves goes

theorem seasoned_step {turn : Turn} {quiet : LockerSlot → PollEvent → Prop}
    {allowed : Daemon → Nat → Revents → Prop} (seasoned : daemon.running = true → daemon.Seasoned)
    (along : turn.Along decode allowed quiet daemon)
    (runs : (daemonStep decode daemon turn).running = true) :
    (daemonStep decode daemon turn).Seasoned := by
  refine daemonStep_running ?_ ?_ ?_ ?_ daemon turn seasoned along runs
  · exact fun _ _ _ seasoned _ goes => seasoned_serve seasoned goes
  · exact fun _ seasoned conn member => seasoned conn (mem_connsClean.mp member).1
  · exact fun _ _ seasoned => seasoned
  · intro daemon locker slot event seasoned present _
    simp only [daemonLocker, present]
    exact seasoned

end

def Daemon.Vetted (daemon : Daemon) : Prop :=
  ∀ slot ∈ daemon.lockers, ∀ token ∈ slot.pipe, token.conn.msg.Admitted

section

variable {decode : Name → Name} {daemon : Daemon}

theorem requests_admitted {conn : Conn} {name : Name} (requests : conn.requests name) :
    conn.msg.Admitted := by
  obtain ⟨ready, lock, step, _⟩ := requests
  exact ⟨ready, (checkProtocol_iff (.inl lock)).mpr step⟩

theorem hands_vetted {id : Nat} {revents : Revents} (seasoned : daemon.Seasoned)
    (untainted : Untainted decode daemon id revents) :
    Hands decode (fun _ conn => conn.msg.Admitted) daemon id revents := by
  intro pollin hup reached position locker slot conn moves _
  cases moves with
  | route locker slot conn name heard present requests => exact requests_admitted requests
  | hatch position locker slot conn requester name behind present other slotted piped starts
      waits =>
    have client := starts.heard.1
    have inside := (others_sublist daemon client).subset other
    have wait : conn.wait = true := by
      rw [Conn.waitsFor, Bool.and_eq_true] at waits
      exact waits.1
    have valid := untainted pollin (hup client) requester name _ starts conn other waits
    exact (seasoned conn (List.mem_of_mem_tail inside) wait).resolve_right valid

theorem turn_vetted {turn : Turn} {quiet : LockerSlot → PollEvent → Prop}
    (seasoned : daemon.Seasoned) (along : turn.Along decode (Untainted decode) quiet daemon) :
    turn.Along decode (Hands decode fun _ conn => conn.msg.Admitted) quiet daemon := by
  cases turn with
  | poll revents closed =>
    refine Run.scanAlong_with Daemon.Seasoned ?_
      (fun _ _ _ seasoned untainted => hands_vetted seasoned untainted) ?_ along
    · intro reached id entry seasoned _ after next
      have served := @seasoned_serve decode reached id entry seasoned
      unfold acceptLoopNext at next
      generalize acceptLoopServe decode reached id entry = result at served next
      obtain ⟨flow, daemon⟩ := result
      cases flow with
      | next =>
        obtain rfl := Option.some.inj next
        exact served (by simp)
      | again | leave => cases next
    · exact fun conn member => seasoned conn (mem_connsClean.mp member).1
  | timeout waited closed => trivial
  | locker locker event => exact along

theorem vetted_step {turn : Turn} {quiet : LockerSlot → PollEvent → Prop}
    (seasoned : daemon.running = true → daemon.Seasoned) (vetted : daemon.Vetted)
    (along : turn.Along decode (Untainted decode) quiet daemon) :
    (daemonStep decode daemon turn).Vetted := by
  by_cases running : daemon.running = true
  · exact @carries_step (fun _ conn => conn.msg.Admitted) daemon decode turn quiet
      (fun _ _ _ _ own => own) vetted (turn_vetted (seasoned running) along)
  · unfold daemonStep
    rwa [if_neg running]

theorem dispatched_turn {slot : LockerSlot} {event : PollEvent} (vetted : daemon.Vetted)
    (member : slot ∈ daemon.lockers) (whole : slot.Serves (WholeChunk decode) event) :
    slot.Serves Dispatched event := by
  refine PollEvent.Serves.imp (fun locker id ready client => dispatched_client client) ?_ whole
  intro ready handed conn input
  have found := lockerArrived_control (lockerInput_arrived input).2.2
  rw [handed] at found
  obtain ⟨token, first, rfl⟩ := Option.map_eq_some_iff.mp found
  exact vetted slot member token (List.mem_of_mem_head? first)

end

theorem dispatch_guarded (decode : Name → Name) (multicast tlsCheckPeerId : Bool)
    (turns : List Turn)
    (whole : Run.Along (daemonStep decode)
      (fun daemon turn => turn.Along decode (Untainted decode)
        (LockerSlot.Serves (WholeChunk decode)) daemon)
      (daemonStart multicast tlsCheckPeerId) turns) :
    Run.Along (daemonStep decode)
      (fun daemon turn => turn.Along decode (fun _ _ _ => True)
        (LockerSlot.Serves Dispatched) daemon)
      (daemonStart multicast tlsCheckPeerId) turns := by
  refine Run.along_with (fun daemon => (daemon.running = true → daemon.Seasoned) ∧ daemon.Vetted) ?_
    ?_ ?_ whole
  · rintro daemon turn ⟨seasoned, vetted⟩ along
    exact ⟨seasoned_step seasoned along, vetted_step seasoned vetted along⟩
  · rintro daemon turn ⟨_, vetted⟩ along
    cases turn with
    | poll revents closed => exact Run.scanAlong_of_forall fun _ _ _ => trivial
    | timeout waited closed => trivial
    | locker locker event =>
      exact fun slot present => dispatched_turn vetted (List.mem_of_getElem? present)
        (along slot present)
  · constructor
    · intro _ conn member
      obtain rfl | inside := List.mem_cons.mp member
      · exact fun wait => absurd wait (by simp [connInit])
      · cases multicast <;> simp at inside
        rw [inside]
        exact fun wait => absurd wait (by simp [connInit])
    · simp [Daemon.Vetted, daemonStart]

def chunkAgain (feed : Feed) : List Turn :=
  [joinTurn 2, requestTurn [.quiet] ['9'] ['1'], readTurn,
    .locker 0 (.ready [Ready.idle,
      { Ready.idle with
        pollin := true
        received := .data (msgDeserialize decodeFive feed msgInit).1
          (msgDeserialize decodeFive feed msgInit).2 }])]

theorem dispatch_guarded_whole :
    (Run.run (daemonStep decodeFive) (daemonStart false false)
        (chunkAgain (requestFeed ['1'] ['1']))).lockers.map (·.thread.resource.holding) = [[2]] ∧
      Run.Along (daemonStep decodeFive)
        (fun daemon turn => turn.Along decodeFive (fun _ _ _ => True)
          (LockerSlot.Serves Dispatched) daemon)
        (daemonStart false false) (chunkAgain (requestFeed ['1'] ['1'])) := by
  have whole : Run.Along (daemonStep decodeFive)
      (fun daemon turn => turn.Along decodeFive
          (fun daemon id _ => ∀ other ∈ daemon.others id, other.msg.state ≠ .invalid)
          (LockerSlot.Serves fun locker id ready =>
          id ≠ 0 → ready.pollin = true → ChunkFrom decodeFive
            (requestFeed ['1'] ['1']) locker id ready) daemon)
      (daemonStart false false) (chunkAgain (requestFeed ['1'] ['1'])) := by
    decide
  refine ⟨by decide, dispatch_guarded decodeFive false false _ (Run.along_imp ?_ whole)⟩
  intro daemon turn
  refine Turn.Along.imp ?_ ?_
  · exact fun _ _ _ valid _ _ _ _ _ _ other member _ => valid other member
  · intro slot event
    exact PollEvent.Serves.mono fun _ _ _ chunk client _ pollin => ⟨_, chunk client pollin⟩

def brokenFeed (step : Name) (behind : List MarkupEvent) : Feed where
  events :=
    [.start msgTagMsg [(msgPropLevel, ['3']), (msgPropVerb, ['1']), (msgPropStep, ['8'])],
      .start msgTagResource [(msgPropName, encodedFive), (msgPropQuantity, ['1'])],
      .stop msgTagResource,
      .start msgTagMsg [(msgPropStep, step)]] ++ behind
  wellFormed := true

-- The locker grants a request of another step. One that turns invalid it passes on as well, but on
-- the closed descriptor the answer fails, and the loop takes the grant back.
theorem broken_chunks_granted :
    let guarded (feed : Feed) := Run.Along (daemonStep decodeFive)
      (fun daemon turn => turn.Along decodeFive (fun _ _ _ => True)
        (LockerSlot.Serves Dispatched) daemon)
      (daemonStart false false) (chunkAgain feed)
    let held (feed : Feed) := (Run.run (daemonStep decodeFive) (daemonStart false false)
      (chunkAgain feed)).lockers.map (·.thread.resource.holding)
    let stepped := brokenFeed ['1', '6'] [.stop msgTagMsg]
    let spoilt := brokenFeed ['8'] [.start msgTagMsg [(msgPropLevel, ['4'])], .stop msgTagMsg]
    held stepped = [[2]] ∧ ¬guarded stepped ∧ held spoilt = [[]] ∧ ¬guarded spoilt := by
  decide

end Flom
