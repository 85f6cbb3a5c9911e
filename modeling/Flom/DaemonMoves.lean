import Flom.DaemonListening
import Flom.DaemonRun

set_option autoImplicit false

namespace Flom

/-- What serving one connection is made of. `spend` and `drop` are transfers that fail before and
after the connection has left the array. -/
inductive Act where
  | close (closed : Bool)
  | join (conn : Conn)
  | parse (conn : Conn)
  | garble (conn : Conn)
  | answer (conn : Conn) (rc : Rc)
  | start (control : ConnId) (resource : Resource)
  | spend (locker : Nat) (conn : Conn)
  | drop (position locker : Nat) (conn : Conn)
  | hand (position locker : Nat) (conn : Conn)

def Daemon.spend (daemon : Daemon) (locker : Nat) (conn : Conn) : Daemon :=
  { daemon with
    lockers := daemon.lockers.modify locker fun slot =>
      { slot with writeSequence := slot.writeSequence + 1 }
    transfers := daemon.transfers ++ [conn] }

def Daemon.push (daemon : Daemon) (locker : Nat) (conn : Conn) : Daemon :=
  { daemon with
    lockers := daemon.lockers.modify locker fun slot =>
      { slot with pipe := slot.pipe ++ [⟨slot.writeSequence, conn⟩] } }

def Daemon.remove (daemon : Daemon) (position : Nat) : Daemon :=
  { daemon with conns := removeIndexFast daemon.conns position }

def Daemon.answered (daemon : Daemon) (id : Nat) (conn : Conn) (rc : Rc) : Daemon :=
  { daemon.setConn id
      { conn with lastStep := 2 * msgStepIncr, wait := conn.wait || decide (rc =
          .lockWaitResource) } with
    mail := daemon.mail ++ [⟨conn.id, 2 * msgStepIncr, rc, []⟩] }

def Daemon.started (daemon : Daemon) (control : ConnId) (resource : Resource) : Daemon :=
  { daemon with
    lockers := daemon.lockers ++ [⟨lockerStart control resource, true, true, 0, 0, []⟩] }

def Daemon.act (daemon : Daemon) (id : Nat) : Act → Daemon
  | .close closed => (daemonClose daemon id closed).2
  | .join conn => { daemon with conns := daemon.conns ++ [conn] }
  | .parse conn | .garble conn => daemon.setConn id conn
  | .answer conn rc => daemon.answered id conn rc
  | .start control resource => daemon.started control resource
  | .spend locker conn => daemon.spend locker conn
  | .drop position locker conn => (daemon.spend locker conn).remove position
  | .hand position locker conn =>
    ((daemon.spend locker conn).remove position).push locker { conn with state := .locker }

theorem spend_slotted {daemon : Daemon} {locker : Nat} {slot : LockerSlot}
    (slotted : daemon.lockers[locker]? = some slot) (conn : Conn) :
    (daemon.spend locker conn).lockers[locker]? = some
      { slot with writeSequence := slot.writeSequence + 1 } := by
  simp [Daemon.spend, slotted]

def Conn.requests (conn : Conn) (name : Name) : Prop :=
  conn.msg.state = .ready ∧ conn.msg.verb = .lock ∧ conn.msg.step = msgStepIncr ∧
    conn.lastStep = msgStepIncr ∧ conn.msg.lock8.name = some name

def Daemon.unmanaged (daemon : Daemon) (name : Name) : Prop :=
  daemon.lockers.findIdx? (LockerSlot.manages name) = none

inductive Daemon.Answers (daemon : Daemon) (msg : Msg) (name : Name) : Rc → Prop
  | unknown (type : rsrcGetType name = .null) : Daemon.Answers daemon msg name .invalidResourceName
  | hurried (type : rsrcGetType name ≠ .null) (free : daemon.unmanaged name)
      (create : msg.lock8.create = 0) (wait : msg.lock8.wait = 0) :
      Daemon.Answers daemon msg name .lockCantWait
  | incubated (type : rsrcGetType name ≠ .null) (free : daemon.unmanaged name)
      (create : msg.lock8.create = 0) (wait : msg.lock8.wait ≠ 0) :
      Daemon.Answers daemon msg name .lockWaitResource

section

variable (decode : Name → Name) (origin : Daemon) (id : Nat) (accept : Accept)

def Heard (conn : Conn) : Prop :=
  id ≠ 0 ∧ ∃ old feed, origin.conns[id]? = some old ∧ accept.arrival = .bytes feed ∧
    feed.wellFormed = true ∧ conn = old.fed decode feed

structure Starts (conn : Conn) (name : Name) (resource : Resource) : Prop where
  heard : Heard decode origin id accept conn
  identified : origin.identify conn accept = .passed
  requests : conn.requests name
  type : rsrcGetType name ≠ .null
  free : origin.unmanaged name
  create : conn.msg.lock8.create ≠ 0
  init : resourceInit (rsrcGetType name) name = .ok resource
  started : accept.started = .ok

inductive Moves (daemon : Daemon) : Nat → Nat → Conn → Prop
  | route (locker : Nat) (slot : LockerSlot) (conn : Conn) (name : Name)
      (heard : Heard decode origin id accept conn) (present : daemon.conns[id]? = some conn)
      (requests : conn.requests name) (slotted : daemon.lockers[locker]? = some slot)
      (manages : slot.manages name = true) : Moves daemon id locker conn
  | hatch (position locker : Nat) (slot : LockerSlot) (conn requester : Conn) (name : Name)
      (behind : position ≠ 0) (present : daemon.conns[position]? = some conn)
        (other : conn ∈ origin.others id)
      (slotted : daemon.lockers[locker]? = some slot)
        (piped : slot.writePipe = true ∧ slot.readPipe = true)
      (starts : Starts decode origin id accept requester name slot.thread.resource)
      (waits : conn.waitsFor slot.thread.resource = true) : Moves daemon position locker conn

inductive Legal (daemon : Daemon) : Act → Prop
  | close (closed : Bool) (client : id ≠ 0) : Legal daemon (.close closed)
  | join (conn : Conn) (listening : id = 0) (same : daemon = origin)
      (accepted : accept.accepted = some conn.id) (state : ConnState) (sockfd : Bool)
        (tls : Option Tls)
      (polled : state ≠ .remove → sockfd = true)
      (fresh : conn = { connInit conn.id false true with
        state := state, sockfd := sockfd, tls := tls }) :
      Legal daemon (.join conn)
  | parse (conn : Conn) (same : daemon = origin) (heard : Heard decode origin id accept conn) :
      Legal daemon (.parse conn)
  | garble (conn old : Conn) (feed : Feed) (same : daemon = origin) (client : id ≠ 0)
      (present : origin.conns[id]? = some old) (arrived : accept.arrival = .bytes feed)
      (broken : feed.wellFormed = false) (spoilt : conn = { old with msg := conn.msg }) :
      Legal daemon (.garble conn)
  | answer (conn : Conn) (rc : Rc) (name : Name) (heard : Heard decode origin id accept conn)
      (present : daemon.conns[id]? = some conn) (requests : conn.requests name)
      (lockers : daemon.lockers = origin.lockers) (answers : origin.Answers conn.msg name rc) :
      Legal daemon (.answer conn rc)
  | start (conn : Conn) (name : Name) (resource : Resource)
      (starts : Starts decode origin id accept conn name resource)
      (present : daemon.conns[id]? = some conn) (lockers : daemon.lockers = origin.lockers) :
      Legal daemon (.start accept.control resource)
  | spend (position locker : Nat) (conn : Conn)
      (moves : Moves decode origin id accept daemon position locker conn) :
      Legal daemon (.spend locker conn)
  | drop (position locker : Nat) (conn : Conn)
      (moves : Moves decode origin id accept daemon position locker conn) :
      Legal daemon (.drop position locker conn)
  | hand (position locker : Nat) (conn : Conn)
      (moves : Moves decode origin id accept daemon position locker conn) :
      Legal daemon (.hand position locker conn)

end

section

variable {decode : Name → Name} {origin : Daemon} {id : Nat} {accept : Accept} {inv : Daemon → Prop}

theorem Moves.present {daemon : Daemon} {position locker : Nat} {conn : Conn}
    (moves : Moves decode origin id accept daemon position locker conn) :
    position ≠ 0 ∧ daemon.conns[position]? = some conn := by
  cases moves with
  | route locker slot conn name heard present => exact ⟨heard.1, present⟩
  | hatch position locker slot conn requester name behind present => exact ⟨behind, present⟩

theorem Moves.slotted {daemon : Daemon} {position locker : Nat} {conn : Conn}
    (moves : Moves decode origin id accept daemon position locker conn) :
    ∃ slot, daemon.lockers[locker]? = some slot := by
  cases moves with
  | route locker slot conn name heard present requests slotted => exact ⟨slot, slotted⟩
  | hatch position locker slot conn requester name behind present other slotted =>
    exact ⟨slot, slotted⟩

theorem acceptLoopTransferConn_cases (daemon : Daemon) (position locker : Nat) (conn : Conn)
    (writes : List Bool) (bound : position < daemon.conns.length) :
    let transferred := acceptLoopTransferConn daemon position locker conn writes
    (transferred.rc = .writeError ∧ (transferred.daemon = daemon.act id (.spend locker conn) ∨
        transferred.daemon = daemon.act id (.drop position locker conn))) ∨
      (transferred.rc = .ok ∧ transferred.daemon = daemon.act id (.hand position locker conn)) := by
  unfold acceptLoopTransferConn
  simp only [connsTrnsFd, bound, if_true]
  split_ifs
  · exact .inr ⟨rfl, rfl⟩
  · exact .inl ⟨rfl, .inr rfl⟩
  · exact .inl ⟨rfl, .inl rfl⟩

theorem acceptLoopTransferConn_conns {daemon : Daemon} {position locker : Nat} {conn : Conn}
    {writes : List Bool} (bound : position < daemon.conns.length)
    (done : (acceptLoopTransferConn daemon position locker conn writes).rc = .ok) :
    (acceptLoopTransferConn daemon position locker conn writes).daemon.conns =
    removeIndexFast daemon.conns position := by
  obtain ⟨failed, _⟩ | ⟨_, same⟩ := @acceptLoopTransferConn_cases position daemon position locker
    conn writes bound
  · rw [failed] at done
    cases done
  · rw [same]
    rfl

theorem acceptLoopTransferConn_invariant {daemon : Daemon} {position locker : Nat} {conn : Conn}
    (writes : List Bool) (holds : inv daemon)
    (moves : Moves decode origin id accept daemon position locker conn)
    (step : ∀ reached act, inv reached → Legal decode origin id accept reached act →
      inv (reached.act id act)) :
    inv (acceptLoopTransferConn daemon position locker conn writes).daemon := by
  obtain ⟨bound, _⟩ := List.getElem?_eq_some_iff.mp moves.present.2
  obtain ⟨_, same | same⟩ | ⟨_, same⟩ :=
    @acceptLoopTransferConn_cases id daemon position locker conn writes bound
  · rw [same]
    exact step daemon _ holds (.spend position locker conn moves)
  · rw [same]
    exact step daemon _ holds (.drop position locker conn moves)
  · rw [same]
    exact step daemon _ holds (.hand position locker conn moves)

theorem acceptLoopReply_invariant {daemon : Daemon} {conn : Conn} {rc : Rc}
    (patient : rc ≠ .lockWaitResource) (holds : inv daemon)
    (answered : inv (daemon.act id (.answer conn rc))) :
    inv (acceptLoopReply daemon id conn rc accept).2 := by
  unfold acceptLoopReply
  split_ifs
  · simpa [Daemon.act, Daemon.answered, patient] using answered
  · exact holds

end

section

variable {decode : Name → Name} {origin : Daemon} {id : Nat} {accept : Accept} {inv : Daemon → Prop}

theorem acceptLoopIncubator_invariant (locker : Nat) {resource : Resource} (fuel position : Nat)
    (daemon : Daemon) (writes : List Bool) {requester : Conn} {name : Name}
    (starts : Starts decode origin id accept requester name resource) (behind : position ≠ 0)
    (others : daemon.conns.tail ⊆ origin.others id)
    (face : ∃ thread, (daemon.lockers.map LockerSlot.face)[locker]? = some (thread, true, true) ∧
      thread.resource = resource)
    (holds : inv daemon)
    (step : ∀ reached act, inv reached → Legal decode origin id accept reached act →
      inv (reached.act id act)) :
    inv (acceptLoopIncubator locker resource fuel position daemon writes).2 := by
  induction fuel generalizing position daemon writes with
  | zero => exact holds
  | succ fuel ih =>
    rw [acceptLoopIncubator]
    split
    · exact holds
    · next conn present =>
      by_cases waits : conn.waitsFor resource = true
      · have moves : Moves decode origin id accept daemon position locker conn := by
          obtain ⟨thread, found, rfl⟩ := face
          rw [List.getElem?_map] at found
          obtain ⟨slot, slotted, same⟩ := Option.map_eq_some_iff.mp found
          obtain ⟨rfl, writing, reading⟩ : slot.thread = thread ∧ slot.writePipe = true ∧
              slot.readPipe = true := by
            simpa [LockerSlot.face] using same
          refine .hatch position locker slot conn requester name behind present
            (others ?_) slotted ⟨writing, reading⟩ starts waits
          obtain ⟨place, rfl⟩ := Nat.exists_eq_add_one_of_ne_zero behind
          exact List.mem_of_getElem? (List.getElem?_tail.trans present)
        have after := acceptLoopTransferConn_invariant writes holds moves step
        have faces := acceptLoopTransferConn_faces daemon position locker conn writes
        simp only [waits, if_true]
        split_ifs with done
        · refine ih position _ _ behind ?_ ?_ after
          · rw [acceptLoopTransferConn_conns (List.getElem?_eq_some_iff.mp present).1 done]
            intro other member
            exact others ((others_sublist daemon behind).subset
              ((removeIndexFast_others behind present).subset member))
          · rwa [faces]
        · exact after
      · rw [if_neg waits]
        exact ih (position + 1) daemon writes (by omega) others face holds

theorem acceptLoopStartLocker_cases (daemon : Daemon) (type : RsrcType) (name : Name)
    (accept : Accept) :
    ((acceptLoopStartLocker daemon type name accept).1 ≠ .ok ∧
        (acceptLoopStartLocker daemon type name accept).2 = daemon) ∨
      ∃ resource, resourceInit type name = .ok resource ∧ accept.started = .ok ∧
        acceptLoopStartLocker daemon type name accept =
          (.ok, daemon.started accept.control resource) := by
  unfold acceptLoopStartLocker
  cases init : resourceInit type name with
  | error rc =>
    left
    dsimp only
    split_ifs <;> exact ⟨by simp, rfl⟩
  | ok resource =>
    dsimp only
    split_ifs with started
    · exact .inr ⟨resource, rfl, started, rfl⟩
    · exact .inl ⟨started, rfl⟩

theorem acceptLoopNewLocker_invariant {daemon : Daemon} {conn : Conn} {name : Name}
    (starts : ∀ resource, resourceInit (rsrcGetType name) name = .ok resource →
      accept.started = .ok →
      Starts decode origin id accept conn name resource)
    (present : daemon.conns[id]? = some conn) (lockers : daemon.lockers = origin.lockers)
    (others : daemon.others id = origin.others id) (holds : inv daemon)
    (step : ∀ reached act, inv reached → Legal decode origin id accept reached act →
      inv (reached.act id act)) :
    inv (acceptLoopNewLocker daemon id conn (rsrcGetType name) name accept).2 := by
  unfold acceptLoopNewLocker
  obtain ⟨failed, same⟩ | ⟨resource, init, started, same⟩ :=
    acceptLoopStartLocker_cases daemon (rsrcGetType name) name accept
  · simp only [failed, same, if_false]
    split_ifs <;> first | exact holds | (rw [same]; exact holds)
  · have requested := starts resource init started
    have begun : inv (daemon.started accept.control resource) := step daemon _ holds
      (.start conn name resource requested present lockers)
    have slotted : (daemon.started accept.control resource).lockers[daemon.lockers.length]? =
        some ⟨lockerStart accept.control resource, true, true, 0, 0, []⟩ := by
      simp [Daemon.started]
    have manages : LockerSlot.manages name
        ⟨lockerStart accept.control resource, true, true, 0, 0, []⟩ = true := by
      simp [LockerSlot.manages, lockerStart, resourceInit_compare init]
    have standing : (daemon.started accept.control resource).conns[id]? = some conn := present
    have after := acceptLoopTransferConn_invariant accept.writes begun
      (.route daemon.lockers.length _ conn name requested.heard standing requested.requests slotted
        manages) step
    have faces := acceptLoopTransferConn_faces (daemon.started accept.control resource) id
      daemon.lockers.length conn accept.writes
    simp only [same, reduceCtorEq, if_false, if_true]
    split
    · next slot found =>
      have face : slot.face = (lockerStart accept.control resource, true, true) := by
        have same := congrArg (fun list : List (Locker × Bool × Bool) =>
          list[daemon.lockers.length]?) faces
        simpa [List.getElem?_map, found, slotted, LockerSlot.face] using same
      have resourced : slot.thread.resource = resource :=
        congrArg (fun face => face.1.resource) face
      split_ifs with done
      · refine acceptLoopIncubator_invariant daemon.lockers.length _ 1 _ _ (resourced ▸ requested)
          (by omega) ?_ ?_ after step
        · rw [acceptLoopTransferConn_conns (List.getElem?_eq_some_iff.mp standing).1 done, ← others]
          exact (removeIndexFast_others requested.heard.1 standing).subset
        · refine ⟨lockerStart accept.control resource, ?_, resourced.symm⟩
          rw [List.getElem?_map, found, Option.map_some, face]
      · exact after
    · exact after

end

section

variable {decode : Name → Name} {origin : Daemon} {id : Nat} {accept : Accept} {inv : Daemon → Prop}

theorem acceptLoopTransfer_invariant {daemon : Daemon} {conn : Conn}
    (heard : Heard decode origin id accept conn)
    (identified : origin.identify conn accept = .passed) (present : daemon.conns[id]? = some conn)
    (ready : conn.msg.state = .ready) (lockers : daemon.lockers = origin.lockers)
    (others : daemon.others id = origin.others id) (holds : inv daemon)
    (step : ∀ reached act, inv reached → Legal decode origin id accept reached act →
      inv (reached.act id act)) :
    inv (acceptLoopTransfer daemon id conn accept).2 := by
  have stepped : conn.lastStep = conn.msg.step := by
    obtain ⟨_, old, feed, _, _, _, rfl⟩ := heard
    rfl
  unfold acceptLoopTransfer
  by_cases lock : conn.msg.verb = .lock ∧ conn.msg.step = msgStepIncr
  · rw [if_pos lock]
    cases named : conn.msg.lock8.name with
    | none => exact holds
    | some name =>
      have requests : conn.requests name := ⟨ready, lock.1, lock.2, stepped.trans lock.2, named⟩
      have answered : ∀ rc, origin.Answers conn.msg name rc →
          inv (daemon.act id (.answer conn rc)) :=
        fun rc answers => step daemon _ holds
          (.answer conn rc name heard present requests lockers answers)
      dsimp only
      by_cases type : rsrcGetType name = .null
      · rw [if_pos type]
        exact acceptLoopReply_invariant (by simp) holds (answered _ (.unknown type))
      · rw [if_neg type]
        split
        · next locker found =>
          obtain ⟨bound, manages, _⟩ := List.findIdx?_eq_some_iff_getElem.mp found
          exact acceptLoopTransferConn_invariant accept.writes holds
            (.route locker _ conn name heard present requests
              (List.getElem?_eq_getElem bound) manages) step
        · next missing =>
          have free : origin.unmanaged name := by
            rw [Daemon.unmanaged, ← lockers]
            exact missing
          unfold acceptLoopMissing
          by_cases create : conn.msg.lock8.create = 0
          · rw [if_pos create]
            by_cases wait : conn.msg.lock8.wait = 0
            · rw [if_pos wait]
              exact acceptLoopReply_invariant (by simp) holds
                (answered _ (.hurried type free create wait))
            · rw [if_neg wait]
              have incubated := answered _ (.incubated type free create wait)
              by_cases sent : accept.send = .ok
              · simpa [acceptLoopReply, sent, Daemon.act, Daemon.answered, Daemon.setConn]
                  using incubated
              · simpa [acceptLoopReply, sent] using holds
          · rw [if_neg create]
            exact acceptLoopNewLocker_invariant
              (fun _ init started =>
                ⟨heard, identified, requests, type, free, create, init, started⟩)
              present lockers others holds step
  · rw [if_neg lock]
    exact holds

theorem acceptLoopReady_invariant {daemon : Daemon} {conn : Conn}
    (heard : Heard decode origin id accept conn) (present : daemon.conns[id]? = some conn)
    (ready : conn.msg.state = .ready) (lockers : daemon.lockers = origin.lockers)
    (others : daemon.others id = origin.others id)
    (checks : daemon.tlsCheckPeerId = origin.tlsCheckPeerId) (holds : inv daemon)
    (step : ∀ reached act, inv reached → Legal decode origin id accept reached act →
      inv (reached.act id act)) :
    inv (acceptLoopReady daemon id conn accept).daemon := by
  have identity : daemon.identify conn accept = origin.identify conn accept := by
    rw [Daemon.identify, Daemon.identify, checks]
  unfold acceptLoopReady
  split_ifs
  · split
    · next identified =>
      rw [identity] at identified
      unfold acceptLoopDispatch
      by_cases discover : conn.msg.verb = .discover
      · rw [if_pos discover]
        exact holds
      · by_cases mngmnt : conn.msg.verb = .mngmnt
        · rw [if_neg discover, if_pos mngmnt]
          exact holds
        · rw [if_neg discover, if_neg mngmnt]
          exact acceptLoopTransfer_invariant heard identified present ready lockers others holds
            step
    · exact holds
    · exact step daemon _ holds (.close accept.closed heard.1)
  · exact holds

theorem acceptLoopData_invariant {conn : Conn} {feed : Feed} (client : id ≠ 0)
    (present : origin.conns[id]? = some conn) (arrived : accept.arrival = .bytes feed)
    (holds : inv origin)
    (step : ∀ reached act, inv reached → Legal decode origin id accept reached act →
      inv (reached.act id act)) :
    inv (acceptLoopData decode origin id conn feed accept).daemon := by
  obtain ⟨bound, _⟩ := List.getElem?_eq_some_iff.mp present
  unfold acceptLoopData
  dsimp only
  by_cases parsed : (msgDeserialize decode feed conn.msg).1 = .ok
  · have wellFormed : feed.wellFormed = true := by
      by_contra broken
      simp [msgDeserialize, broken] at parsed
    have heard : Heard decode origin id accept (conn.fed decode feed) :=
      ⟨client, conn, feed, present, arrived, wellFormed, rfl⟩
    have fed : inv (origin.setConn id (conn.fed decode feed)) :=
      step origin _ holds (.parse _ rfl heard)
    rw [if_pos parsed]
    split
    · exact step _ _ fed (.close accept.closed client)
    · next ready =>
      refine acceptLoopReady_invariant heard ?_ ready rfl
        (others_setConn client present _) rfl fed step
      exact List.getElem?_set_self bound
    · exact fed
    · exact fed
  · have broken : feed.wellFormed = false := by
      by_contra whole
      simp [msgDeserialize, whole] at parsed
    rw [if_neg parsed]
    exact step origin _ holds
      (.garble { conn with msg := _ } conn feed rfl client present arrived broken rfl)

theorem acceptLoopNewConn_invariant (listening : id = 0) (holds : inv origin)
    (step : ∀ reached act, inv reached → Legal decode origin id accept reached act →
      inv (reached.act id act)) :
    inv (acceptLoopNewConn origin accept).daemon := by
  unfold acceptLoopNewConn
  cases accepted : accept.accepted with
  | none => exact holds
  | some connection =>
    have joins : ∀ state sockfd tls, (state ≠ .remove → sockfd = true) →
        inv { origin with conns := origin.conns ++
          [{ connInit connection false true with
            state := state, sockfd := sockfd, tls := tls }] } :=
      fun state sockfd tls polled => step origin _ holds
        (.join _ listening rfl accepted state sockfd tls polled rfl)
    dsimp only
    split
    · exact joins .daemon true _ fun _ => rfl
    · obtain ⟨sockfd, same⟩ := connTerminate_snd (connInit connection false true) accept.closed
      rw [same]
      split_ifs
      · exact joins .remove sockfd none fun kept => absurd rfl kept
      · exact holds

theorem acceptLoopPollin_invariant (holds : inv origin)
    (step : ∀ reached act, inv reached → Legal decode origin id accept reached act →
      inv (reached.act id act)) :
    inv (acceptLoopPollin decode origin id accept).daemon := by
  unfold acceptLoopPollin
  split
  · exact holds
  · next conn present =>
    split_ifs with listening
    · exact acceptLoopNewConn_invariant listening holds step
    · split
      · exact holds
      · exact holds
      · exact holds
      · next feed arrived => exact acceptLoopData_invariant listening present arrived holds step

theorem acceptLoopPollin_listening (decode : Name → Name) (daemon : Daemon) (accept : Accept) :
    (acceptLoopPollin decode daemon 0 accept).rc ≠ .connectionClosed := by
  unfold acceptLoopPollin
  split
  · simp
  · simp only [if_true]
    unfold acceptLoopNewConn
    split
    · simp
    · dsimp only
      split
      · simp
      · split_ifs with ok
        · simp
        · unfold connTerminate
          split_ifs <;> simp

theorem acceptLoopServe_cases (decode : Name → Name) (daemon : Daemon) (id : Nat)
    (revents : Revents) :
    let polled := acceptLoopPollin decode daemon id revents.accept
    let served := acceptLoopServe decode daemon id revents
    (revents.hup = true ∧ id ≠ 0) ∧ served = daemonDisconnect daemon id revents.accept.closed ∨
      ¬(revents.hup = true ∧ id ≠ 0) ∧
        (revents.pollin = false ∧ served.daemon = daemon ∨
          revents.pollin = true ∧
            (polled.rc = .connectionClosed ∧
            served = daemonDisconnect polled.daemon id revents.accept.closed ∨
              polled.rc = .ok ∧ served.daemon = polled.daemon ∧
              (polled.moved = true → served.flow = .again) ∨
              polled.rc ≠ .ok ∧ served.daemon = polled.daemon ∧ served.flow = .leave)) := by
  unfold acceptLoopServe
  dsimp only
  by_cases hup : revents.hup = true ∧ id ≠ 0
  · exact .inl ⟨hup, by rw [if_pos hup]⟩
  · refine .inr ⟨hup, ?_⟩
    rw [if_neg hup]
    cases pollin : revents.pollin with
    | false => exact .inl ⟨rfl, rfl⟩
    | true =>
      refine .inr ⟨rfl, ?_⟩
      rw [if_pos rfl]
      by_cases gone : (acceptLoopPollin decode daemon id revents.accept).rc = .connectionClosed
      · exact .inl ⟨gone, by rw [if_pos gone]⟩
      · rw [if_neg gone]
        by_cases done : (acceptLoopPollin decode daemon id revents.accept).rc = .ok
        · rw [if_pos done]
          exact .inr (.inl ⟨done, rfl, fun moved => if_pos moved⟩)
        · rw [if_neg done]
          exact .inr (.inr ⟨done, rfl, rfl⟩)

theorem acceptLoopServe_invariant (daemon : Daemon) (id : Nat) (revents : Revents)
    (holds : inv daemon)
    (step : ∀ reached act, inv reached → Legal decode daemon id revents.accept reached act →
      inv (reached.act id act)) :
    inv (acceptLoopServe decode daemon id revents).daemon := by
  have polled := acceptLoopPollin_invariant holds step
  obtain ⟨hup, same⟩ | ⟨_, ⟨_, same⟩ | ⟨_, ⟨gone, same⟩ | ⟨_, same, _⟩ | ⟨_, same, _⟩⟩⟩ :=
    acceptLoopServe_cases decode daemon id revents
  · rw [same]
    exact step _ _ holds (.close revents.accept.closed hup.2)
  · rwa [same]
  · rw [same]
    refine step _ _ polled (.close revents.accept.closed ?_)
    rintro rfl
    exact acceptLoopPollin_listening decode daemon revents.accept gone
  · rwa [same]
  · rwa [same]

end

def acceptLoopNext (decode : Name → Name) (daemon : Daemon) (id : Nat) (revents : Revents) :
    Option Daemon :=
  match acceptLoopServe decode daemon id revents with
  | ⟨.next, served⟩ => some served
  | _ => none

theorem acceptLoopScan_invariant {decode : Name → Name} {inv : Daemon → Prop}
    {allowed : Daemon → Nat → Revents → Prop}
    (serve : ∀ daemon id revents, inv daemon → allowed daemon id revents →
      inv (acceptLoopServe decode daemon id revents).daemon)
    (halt : ∀ daemon, inv daemon → inv { daemon with running := false })
    (daemon : Daemon) (id : Nat) (revents : List Revents) (holds : inv daemon)
    (along : Run.ScanAlong (acceptLoopNext decode) allowed daemon id revents) :
    inv (acceptLoopScan decode daemon id revents) := by
  induction revents generalizing daemon id with
  | nil => exact holds
  | cons first rest ih =>
    have served := serve daemon id first holds along.1
    have later := along.2
    unfold acceptLoopNext at later
    rw [acceptLoopScan]
    generalize acceptLoopServe decode daemon id first = reached at served later
    obtain ⟨flow, after⟩ := reached
    cases flow with
    | next => exact ih after (id + 1) served (later after rfl)
    | again => exact served
    | leave => exact halt after served

inductive LockerSlot.Checked (slot : LockerSlot) : LockerSlot → Prop
  | kept : LockerSlot.Checked slot slot
  | retired (read : slot.writeSequence = slot.readSequence)
      (idle : lockerMaxIdlePeriods < slot.thread.idlePeriods) (writing : slot.writePipe = true) :
      LockerSlot.Checked slot { slot with writePipe := false }

theorem acceptLoopChklockers_checked (slots : List LockerSlot) (closed : List Bool) :
    ∃ kept, kept.Sublist slots ∧ List.Forall₂ LockerSlot.Checked kept
      (acceptLoopChklockers slots closed).2 := by
  have same : ∀ rest : List LockerSlot, List.Forall₂ LockerSlot.Checked rest rest :=
    fun rest => List.forall₂_same.mpr fun slot _ => .kept
  induction slots generalizing closed with
  | nil => exact ⟨[], .slnil, .nil⟩
  | cons slot rest ih =>
    rw [acceptLoopChklockers]
    split_ifs with idle writing success reading
    · obtain ⟨kept, shorter, checked⟩ := ih closed.tail
      exact ⟨slot :: kept, shorter.cons_cons slot, .cons (.retired idle.1 idle.2 writing) checked⟩
    · exact ⟨slot :: rest, .refl _, same _⟩
    · obtain ⟨kept, shorter, checked⟩ := ih closed
      exact ⟨slot :: kept, shorter.cons_cons slot, .cons .kept checked⟩
    · exact ⟨rest, List.sublist_cons_self slot rest, same rest⟩
    · obtain ⟨kept, shorter, checked⟩ := ih closed
      exact ⟨slot :: kept, shorter.cons_cons slot, .cons .kept checked⟩

def Turn.Along (decode : Name → Name) (allowed : Daemon → Nat → Revents → Prop)
    (quiet : LockerSlot → PollEvent → Prop) (daemon : Daemon) : Turn → Prop
  | .poll revents _ => Run.ScanAlong (acceptLoopNext decode) allowed daemon.cleaned 0
      (revents.take daemon.cleaned.conns.length)
  | .timeout _ _ => True
  | .locker index event => ∀ slot ∈ daemon.lockers[index]?, quiet slot event

instance turnAlongDecidable (decode : Name → Name) (allowed : Daemon → Nat → Revents → Prop)
    (quiet : LockerSlot → PollEvent → Prop)
    [∀ daemon id revents, Decidable (allowed daemon id revents)]
    [∀ slot event, Decidable (quiet slot event)] (daemon : Daemon) :
    (turn : Turn) → Decidable (turn.Along decode allowed quiet daemon)
  | .poll _ _ => inferInstanceAs (Decidable (Run.ScanAlong _ _ _ _ _))
  | .timeout _ _ => isTrue trivial
  | .locker _ _ => inferInstanceAs (Decidable (∀ _ ∈ _, _))

theorem Turn.Along.imp {decode : Name → Name} {allowed allowed' : Daemon → Nat → Revents → Prop}
    {quiet quiet' : LockerSlot → PollEvent → Prop} {daemon : Daemon} {turn : Turn}
    (entry : ∀ daemon id revents, allowed daemon id revents → allowed' daemon id revents)
    (thread : ∀ slot event, quiet slot event → quiet' slot event)
    (along : turn.Along decode allowed quiet daemon) :
    turn.Along decode allowed' quiet' daemon := by
  cases turn with
  | poll revents closed => exact Run.scanAlong_imp entry along
  | timeout waited closed => trivial
  | locker locker event => exact fun slot present => thread slot event (along slot present)

theorem running_of_step {decode : Name → Name} {daemon : Daemon} {turn : Turn}
    (runs : (daemonStep decode daemon turn).running = true) : daemon.running = true := by
  unfold daemonStep at runs
  split_ifs at runs with running
  · exact running
  · exact runs

theorem daemonStep_invariant {decode : Name → Name} {inv : Daemon → Prop}
    {allowed : Daemon → Nat → Revents → Prop} {quiet : LockerSlot → PollEvent → Prop}
    (clean : ∀ daemon, inv daemon → inv daemon.cleaned)
    (serve : ∀ daemon id revents, inv daemon → allowed daemon id revents →
      inv (acceptLoopServe decode daemon id revents).daemon)
    (halt : ∀ daemon, inv daemon → inv { daemon with running := false })
    (check : ∀ daemon closed, inv daemon →
      inv { daemon with lockers := (acceptLoopChklockers daemon.lockers closed).2 })
    (turn : ∀ daemon locker slot event, inv daemon → daemon.lockers[locker]? = some slot →
      quiet slot event → inv (daemonLocker daemon locker event))
    (daemon : Daemon) (event : Turn) (holds : inv daemon)
    (along : event.Along decode allowed quiet daemon) :
    inv (daemonStep decode daemon event) := by
  have checked : ∀ reached closed, inv reached → inv (daemonChklockers reached closed) := by
    intro reached closed kept
    have done := check reached closed kept
    by_cases ok : (acceptLoopChklockers reached.lockers closed).1 = .ok
    · simpa [daemonChklockers, ok] using done
    · simpa [daemonChklockers, ok] using halt _ done
  have cleaned := clean daemon holds
  have polls : ∀ polled : Daemon → Daemon, inv (polled daemon.cleaned) →
      inv (daemon.polls polled) := by
    intro polled served
    unfold Daemon.polls
    split_ifs
    · exact served
    · exact halt _ cleaned
  unfold daemonStep
  split_ifs
  · cases event with
    | poll revents closed =>
      have scanned := acceptLoopScan_invariant serve halt daemon.cleaned 0 _ cleaned along
      apply polls
      unfold acceptLoopPoll
      dsimp only
      split_ifs
      · exact checked _ closed scanned
      · exact scanned
    | timeout waited closed =>
      apply polls
      unfold acceptLoopTimeout
      split_ifs
      · exact halt _ cleaned
      · exact cleaned
      · exact checked _ closed cleaned
    | locker locker event =>
      cases present : daemon.lockers[locker]? with
      | none =>
        simp only [daemonLocker, present]
        exact holds
      | some slot => exact turn daemon locker slot event holds present (along slot present)
  · exact holds

end Flom
