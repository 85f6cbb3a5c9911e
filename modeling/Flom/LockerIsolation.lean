import Flom.LockerControl
import Flom.ResourceKept

set_option autoImplicit false

namespace Flom

def pollinReply (resource : Resource) (conn : ConnId) (ready : Ready) : ResourceReply :=
  match ready.received with
  | .data _ msg => (resourceInmsg resource conn msg.step msg ready.env).toResourceReply
  | .failed _ => ⟨.ok, resource, [], none⟩

def Ready.leaves (ready : Ready) : Prop :=
  ready.err = false ∧ ready.pollin = true ∧ ∃ msg, ready.received = .data .ok msg ∧
    msg.verb = .unlock

def lockerLeaving (locker : Locker) (id : Nat) (ready : Ready) : Option Locker :=
  if ready.err then some locker
  else if ready.pollin then
    let polled := lockerLoopPollin locker id ready
    if polled.rc = .ok then
      if polled.refresh then none else if ready.hup then some polled.locker else none
    else some polled.locker
  else if ready.hup then some locker
  else none

inductive SendFails (locker : Locker) (id : Nat) (conn : Conn) (ready : Ready) (other : ConnId) :
    Prop
  | polling (leaves : ready.leaves)
      (failed : (pollinReply locker.resource conn.id ready).failed = some other)
  | cleaning (leaving : Locker) (closing : Conn)
      (reached : lockerLeaving locker id ready = some leaving)
      (standing : leaving.conns[id]? = some closing)
      (failed : (resourceClean leaving.resource closing.id ready.cleanEnv).failed = some other)

structure Isolated (before after : Locker) (id : Nat) (conn other : ConnId) : Prop where
  running : after.running = true
  intact : ¬after.resource.dangling other
  conns : ∀ position ≠ id, after.conns[position]? = before.conns[position]?
  records : ∀ client, client ≠ conn → client ≠ other → before.resource.Kept after.resource client

theorem lockerServe_leaving {locker leaving : Locker} {id : Nat} {ready : Ready} (client : id ≠ 0)
    (reached : lockerLeaving locker id ready = some leaving) :
    lockerServe locker id ready = lockerDisconnect leaving id ready := by
  unfold lockerLeaving at reached
  unfold lockerServe lockerHup
  simp only [client, if_false]
  split_ifs at reached ⊢ <;> simp_all

def lockerTurn (locker : Locker) : Nat → List Ready → Option Locker
  | _, [] => some locker
  | id, ready :: rest =>
    match lockerServe locker id ready with
    | ⟨.next, served⟩ => lockerTurn served (id + 1) rest
    | _ => none

theorem lockerScan_turn {locker before : Locker} {id : Nat} {earlier : List Ready}
    (turn : lockerTurn locker id earlier = some before) (rest : List Ready) :
    lockerScan locker id (earlier ++ rest) = lockerScan before (id + earlier.length) rest := by
  induction earlier generalizing locker id with
  | nil =>
    obtain rfl := Option.some.inj turn
    rfl
  | cons ready later ih =>
    rw [List.cons_append, lockerScan]
    rw [lockerTurn] at turn
    generalize lockerServe locker id ready = served at turn ⊢
    obtain ⟨flow, reached⟩ := served
    cases flow with
    | next =>
      have same := ih turn
      rw [Nat.add_right_comm] at same
      exact same
    | again => cases turn
    | leave => cases turn

theorem lockerLoopPollin_running (locker : Locker) (id : Nat) (ready : Ready) :
    (lockerLoopPollin locker id ready).locker.running = locker.running := by
  cases present : locker.conns[id]? with
  | none => rw [lockerLoopPollin, present]
  | some conn => exact (lockerLoopPollin_loops ready present).running

theorem lockerServe_running (locker : Locker) (id : Nat) (ready : Ready) :
    (lockerServe locker id ready).locker.running = locker.running := by
  have polled := lockerLoopPollin_running locker id ready
  unfold lockerServe
  dsimp only
  split_ifs
  · exact (lockerDisconnect_loops locker id ready).running
  · exact polled
  · exact (lockerHup_loops _ id ready).running.trans polled
  · exact (lockerDisconnect_loops _ id ready).running.trans polled
  · exact (lockerHup_loops locker id ready).running

theorem lockerTurn_running {locker before : Locker} {id : Nat} {earlier : List Ready}
    (turn : lockerTurn locker id earlier = some before) : before.running = locker.running := by
  induction earlier generalizing locker id with
  | nil => rw [← Option.some.inj turn]
  | cons ready later ih =>
    have kept := lockerServe_running locker id ready
    rw [lockerTurn] at turn
    generalize lockerServe locker id ready = served at turn kept
    obtain ⟨flow, reached⟩ := served
    cases flow with
    | next => exact (ih turn).trans kept
    | again => cases turn
    | leave => cases turn

theorem lockerClose_eq {locker : Locker} {id : Nat} {conn : Conn}
    (present : locker.conns[id]? = some conn) :
    lockerClose locker id true =
      (.ok, { locker with conns := locker.conns.set id conn.terminated }) := by
  simp only [lockerClose, connsCloseFd, present, connTerminate_true]

theorem lockerDisconnect_eq {locker : Locker} {id : Nat} {conn : Conn} {ready : Ready}
    (present : locker.conns[id]? = some conn) (closes : ready.closed = true) :
    let reply := resourceClean locker.resource conn.id ready.cleanEnv
    lockerDisconnect locker id ready =
      ⟨if reply.rc = .ok then .again else .leave,
        { locker with
          conns := locker.conns.set id conn.terminated
          resource := reply.resource }.send reply.mail⟩ := by
  simp only [lockerDisconnect, present, closes, lockerClose_eq present, if_true]

structure Answered (before : Locker) (id : Nat) (conn : ConnId) (reply : ResourceReply)
    (polled : Polled) : Prop where
  error : reply.rc ≠ .ok → polled.rc ≠ .ok
  locker : ∃ conn' mail, conn'.id = conn ∧
    polled.locker =
      { before with
        conns := before.conns.set id conn'
        resource := reply.resource
        idlePeriods := 0
        mail := mail }

theorem lockerProcess_answered (before : Locker) (standing : List Conn) {id : Nat} (conn : Conn)
    {ready : Ready} (unlock : conn.msg.verb = .unlock)
    (conns : ∀ conn', standing.set id conn' = before.conns.set id conn') :
    Answered before id conn.id
      (resourceInmsg before.resource conn.id conn.lastStep conn.msg ready.env).toResourceReply
      (lockerProcess { before with conns := standing, idlePeriods := 0 } id conn ready) := by
  constructor
  · intro error done
    exact error ((lockerProcess_rc _ id conn ready).mp done).2.1
  · obtain ⟨conn', mail, keeps, _, _, processed⟩ := lockerProcess_locker
      { before with conns := standing, idlePeriods := 0 } id conn ready (.inr unlock)
    exact ⟨conn', mail, keeps, by rw [processed, conns]⟩

theorem lockerLoopPollin_answered {locker : Locker} {id : Nat} {conn : Conn} {ready : Ready}
    (client : id ≠ 0) (present : locker.conns[id]? = some conn) (closes : ready.closed = true)
    (leaves : ready.leaves) :
    Answered locker id conn.id (pollinReply locker.resource conn.id ready)
      (lockerLoopPollin locker id ready) := by
  obtain ⟨bound, _⟩ := List.getElem?_eq_some_iff.mp present
  obtain ⟨_, _, msg, data, unlock⟩ := leaves
  simp only [lockerLoopPollin, present, client, if_false, data, lockerData, if_true, pollinReply]
  split
  · have standing : ({ locker with idlePeriods := 0 }.setConn id
        { conn with lastStep := msg.step, msg := msg }).conns[id]? =
        some { conn with lastStep := msg.step, msg := msg } := List.getElem?_set_self bound
    obtain ⟨sockfd, terminated⟩ := connTerminate_snd
      { conn with lastStep := msg.step, msg := msg } true
    simp only [closes, lockerClose_eq standing, if_true, terminated, Conn.terminated]
    exact lockerProcess_answered locker _
      { conn with state := .remove, sockfd := sockfd, lastStep := msg.step, msg := msg } unlock
      fun _ => by simp [Locker.setConn]
  · exact lockerProcess_answered locker _ { conn with lastStep := msg.step, msg := msg } unlock
      fun _ => by simp

theorem answerOfReply_rc {reply : ResourceReply} {msg : Msg} (error : reply.rc ≠ .ok) :
    (answerOfReply reply msg).rc = reply.rc := by
  rw [answerOfReply, if_neg error]

theorem pollinReply_clean {resource : Resource} {conn other : ConnId} {ready : Ready}
    (leaves : ready.leaves) (failed : (pollinReply resource conn ready).failed = some other) :
    ∃ target : Resource, (∀ client, resource.Kept target client) ∧ target.isHier = resource.isHier ∧
      (resourceClean target conn ready.env).failed = some other ∧
      (pollinReply resource conn ready).rc ≠ .ok ∧
      (pollinReply resource conn ready).resource =
          (resourceClean target conn ready.env).resource := by
  obtain ⟨_, _, msg, data, unlock⟩ := leaves
  simp only [pollinReply, data] at failed ⊢
  obtain ⟨target, _, accepted, law⟩ | ⟨rc, _, law⟩ :=
    resourceInmsg_unlocked resource conn msg.step msg ready.env (by simp [unlock])
  · rw [law, answerOfReply_failed] at failed
    have error : (resourceClean target conn ready.env).rc ≠ .ok := by
      rw [Ne, resourceClean_rc_iff, failed]
      simp
    refine ⟨target, fun client => unlocking_kept client accepted, unlocking_isHier accepted, failed,
      ?_, ?_⟩
    · rw [law, answerOfReply_rc error]
      exact error
    · rw [law, answerOfReply_resource]
  · rw [law] at failed
    cases failed

def Served.ended (served : Served) : Locker :=
  if served.flow = .leave then served.locker.leave else served.locker

theorem lockerStep_turn {reached before : Locker} {earlier rest : List Ready} {ready : Ready}
    (running : reached.running = true) (turn : lockerTurn reached.cleaned 0 earlier = some before)
    (bound : earlier.length < reached.cleaned.conns.length)
    (polls : connsSetEvents reached.cleaned.conns = .ok)
    (stops : (lockerServe before earlier.length ready).flow ≠ .next) :
    lockerStep reached (.ready (earlier ++ ready :: rest)) =
      (lockerServe before earlier.length ready).ended := by
  have left : reached.cleaned.conns ≠ [] := List.ne_nil_of_length_pos (by omega)
  obtain ⟨more, length⟩ := Nat.exists_eq_add_of_lt bound
  rw [lockerStep, if_pos running, if_neg left, if_pos polls, lockerPoll, length, List.take_append,
    List.take_of_length_le (by omega), show earlier.length + more + 1 - earlier.length = more + 1 by
      omega,
    List.take_succ_cons, lockerScan_turn turn, Nat.zero_add, lockerScan]
  generalize lockerServe before earlier.length ready = served at stops ⊢
  obtain ⟨flow, locker⟩ := served
  cases flow with
  | next => exact absurd rfl stops
  | again => rfl
  | leave => rfl

theorem lockerLeaving_leaves {locker leaving : Locker} {id : Nat} {ready : Ready}
    (leaves : ready.leaves) (reached : lockerLeaving locker id ready = some leaving) :
    leaving = (lockerLoopPollin locker id ready).locker := by
  obtain ⟨quiet, polls, _⟩ := leaves
  simp only [lockerLeaving, quiet, polls, if_true, Bool.false_eq_true, if_false] at reached
  split_ifs at reached <;> exact (Option.some.inj reached).symm

theorem lockerLeaving_of_error {locker : Locker} {id : Nat} {ready : Ready} (leaves : ready.leaves)
    (error : (lockerLoopPollin locker id ready).rc ≠ .ok) :
    lockerLeaving locker id ready = some (lockerLoopPollin locker id ready).locker := by
  obtain ⟨quiet, polls, _⟩ := leaves
  simp [lockerLeaving, quiet, polls, error]

theorem not_isolated_of_cleaning {before leaving : Locker} {id : Nat} {ready : Ready}
    {closing : Conn} {conn other : ConnId} (client : id ≠ 0) (closes : ready.closed = true)
    (reached : lockerLeaving before id ready = some leaving)
    (standing : leaving.conns[id]? = some closing)
    (failed : (resourceClean leaving.resource closing.id ready.cleanEnv).rc ≠ .ok) :
    (lockerServe before id ready).flow = .leave ∧
      ¬Isolated before (lockerServe before id ready).ended id conn other := by
  rw [lockerServe_leaving client reached, lockerDisconnect_eq standing closes]
  simp only [failed, if_false, Served.ended, if_true, true_and]
  intro isolated
  cases isolated.running

theorem isolated_polling {before : Locker} {id : Nat} {ready : Ready} {conn : Conn} {other : ConnId}
    (client : id ≠ 0) (running : before.running = true) (present : before.conns[id]? = some conn)
    (closes : ready.closed = true) (distinct : other ≠ conn.id) (leaves : ready.leaves)
    (failed : (pollinReply before.resource conn.id ready).failed = some other) :
    (lockerServe before id ready).flow ≠ .next ∧
      (Isolated before (lockerServe before id ready).ended id conn.id other ↔
        before.resource.isHier = false ∧
          (resourceClean (pollinReply before.resource conn.id ready).resource conn.id
            ready.cleanEnv).rc = .ok) := by
  obtain ⟨bound, _⟩ := List.getElem?_eq_some_iff.mp present
  obtain ⟨target, kept, kind, failing, error, reply⟩ := pollinReply_clean leaves failed
  obtain ⟨raises, conn', mail, same, polled⟩ :=
    lockerLoopPollin_answered client present closes leaves
  have reached := lockerLeaving_of_error leaves (raises error)
  rw [polled] at reached
  have standing : (before.conns.set id conn')[id]? = some conn' := List.getElem?_set_self bound
  rw [lockerServe_leaving client reached, lockerDisconnect_eq standing closes, same]
  dsimp only
  by_cases cleaned : (resourceClean (pollinReply before.resource conn.id ready).resource conn.id
    ready.cleanEnv).rc = .ok
  · simp only [cleaned, if_true, Served.ended, and_true]
    refine ⟨by simp, ?_, ?_⟩
    · intro isolated
      by_contra hier
      have dangling := resourceClean_dangling target conn.id other ready.env
        (kind.trans (by simpa using hier)) failing
      rw [← reply] at dangling
      exact isolated.intact (resourceClean_dangling_kept _ conn.id other ready.cleanEnv distinct
        dangling)
    · intro plain
      refine ⟨running, ?_, ?_, ?_⟩
      · intro dangling
        have hier := dangling_isHier dangling
        simp only [reduceCtorEq, if_false, Locker.send, reply, resourceClean_isHier, kind, plain]
          at hier
      · intro position elsewhere
        simp only [reduceCtorEq, if_false, Locker.send, List.set_set]
        exact List.getElem?_set_ne elsewhere.symm
      · intro third notConn notOther
        have first := resourceClean_kept target conn.id third ready.env notConn.symm
          (by rw [failing]; simpa using notOther.symm)
        have second := resourceClean_kept (pollinReply before.resource conn.id ready).resource
          conn.id third ready.cleanEnv notConn.symm
          (by rw [(resourceClean_rc_iff _ _ _).mp cleaned]; simp)
        rw [← reply] at first
        exact ((kept third).trans first).trans second
  · simp only [cleaned, if_false, Served.ended, if_true, and_false, iff_false]
    refine ⟨by simp, ?_⟩
    intro isolated
    cases isolated.running

theorem failure_isolated_iff (control : ConnId) (resource : Resource) (events : List PollEvent)
    (earlier rest : List Ready) (ready : Ready) (before : Locker) (conn : Conn) (other : ConnId)
    (running : (Run.run lockerStep (lockerStart control resource) events).running = true)
    (turn : lockerTurn (Run.run lockerStep (lockerStart control resource) events).cleaned 0
      earlier =
      some before)
    (polled : earlier.length <
      (Run.run lockerStep (lockerStart control resource) events).cleaned.conns.length)
    (polls : connsSetEvents (Run.run lockerStep (lockerStart control resource) events).cleaned.conns
      = .ok) (client : earlier ≠ []) (present : before.conns[earlier.length]? = some conn)
    (closes : ready.closed = true) (distinct : other ≠ conn.id)
    (fails : SendFails before earlier.length conn ready other) :
    let reached := Run.run lockerStep (lockerStart control resource) events
    Isolated before (lockerStep reached (.ready (earlier ++ ready :: rest))) earlier.length conn.id
        other ↔
      ready.leaves ∧ before.resource.isHier = false ∧
        (resourceClean (pollinReply before.resource conn.id ready).resource conn.id
          ready.cleanEnv).rc = .ok := by
  intro reached
  have nonzero : earlier.length ≠ 0 := by simpa using client
  have alive : before.running = true := (lockerTurn_running turn).trans running
  cases fails with
  | polling leaves failed =>
    obtain ⟨stops, law⟩ := isolated_polling nonzero alive present closes distinct leaves failed
    rw [lockerStep_turn running turn polled polls stops, law]
    exact (and_iff_right leaves).symm
  | cleaning leaving closing found standing failed =>
    have error : (resourceClean leaving.resource closing.id ready.cleanEnv).rc ≠ .ok := by
      rw [Ne, resourceClean_rc_iff, failed]
      simp
    obtain ⟨leave, ended⟩ := not_isolated_of_cleaning nonzero closes found standing error
    rw [lockerStep_turn running turn polled polls (by simp [leave])]
    refine iff_of_false ended ?_
    -- Here the call inside pollin, if there was one, is what the failing clean started from.
    rintro ⟨leaves, _, cleaned⟩
    obtain ⟨bound, _⟩ := List.getElem?_eq_some_iff.mp present
    obtain ⟨_, conn', mail, same, answered⟩ :=
      lockerLoopPollin_answered nonzero present closes leaves
    obtain rfl := lockerLeaving_leaves leaves found
    rw [answered] at standing error
    obtain rfl : conn' = closing := Option.some.inj
      ((List.getElem?_set_self bound).symm.trans standing)
    rw [same] at error
    exact error cleaned

def threeLocks : List PollEvent :=
  [handover (handedLock 1 ['x']) .ok, handover (handedLock 2 ['x']) .ok,
    handover (handedLock 3 ['x']) .ok]

def deadEnv : Env := { Env.fine with sends := [.sendError] }

def unlockTurn : Ready :=
  { Ready.idle with pollin := true, received := .data .ok (msgUnlock ['x'] 0), env := deadEnv }

def hangUpTurn : Ready := { Ready.idle with hup := true, cleanEnv := deadEnv }

theorem failure_isolated_unlock :
    let reached :=
      Run.run lockerStep (lockerStart 0 (.simple (resourceSimpleInit ['x']))) threeLocks
    Isolated reached.cleaned (lockerStep reached (.ready [Ready.idle, unlockTurn])) 1 1 2 := by
  intro reached
  have leaves : unlockTurn.leaves := ⟨rfl, rfl, _, rfl, rfl⟩
  have law := failure_isolated_iff 0 (.simple (resourceSimpleInit ['x'])) threeLocks [Ready.idle] []
    unlockTurn reached.cleaned { connInit 1 false false with lastStep := 16 } 2 (by decide) rfl
      (by decide) (by decide)
    (by simp) (by decide) rfl (by decide) (.polling leaves (by decide))
  exact law.mpr ⟨leaves, rfl, by decide⟩

theorem hang_up_ends_locker :
    let reached :=
      Run.run lockerStep (lockerStart 0 (.simple (resourceSimpleInit ['x']))) threeLocks
    let after := lockerStep reached (.ready [Ready.idle, hangUpTurn])
    SendFails reached.cleaned 1 { connInit 1 false false with lastStep := 16 } hangUpTurn 2 ∧
      ¬Isolated reached.cleaned after 1 1 2 ∧ after.running = false ∧
      after.conns = [] ∧ reached.conns.map Conn.id = [0, 1, 2, 3] ∧
          reached.resource.waiting = [2, 3] := by
  refine ⟨.cleaning _ _ rfl rfl (by decide), ?_, by decide, by decide, by decide, by decide⟩
  intro isolated
  exact absurd isolated.running (by decide)

end Flom
