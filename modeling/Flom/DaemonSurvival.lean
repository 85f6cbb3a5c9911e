import Flom.DaemonListening

set_option autoImplicit false

namespace Flom

structure Survives (decode : Name → Name) (daemon : Daemon) (id : Nat) (accept : Accept) :
    Prop where
  rc : (acceptLoopPollin decode daemon id accept).rc = .ok ∨
    (acceptLoopPollin decode daemon id accept).rc = .connectionClosed
  loops : (acceptLoopServe decode daemon id accept.ready).flow ≠ .leave
  listens : (listening (acceptLoopServe decode daemon id accept.ready).daemon.conns).Perm
    (listening daemon.conns)
  releases : (acceptLoopServe decode daemon id accept.ready).daemon.Intact

def Accept.answers (accept : Accept) (conn : Conn) : Prop :=
  accept.send = .ok ∨ (accept.send = .connectionClosed ∧ conn.Spare)

def Daemon.startable (daemon : Daemon) (id : Nat) (conn : Conn) (name : Name) (accept : Accept) :
    Prop :=
  match resourceInit (rsrcGetType name) name with
  | .error _ => rsrcGetType name ≠ .hier
  | .ok resource =>
    conn.Spare ∧ (∀ other ∈ daemon.others id, other.waitsFor resource = true → other.Spare) ∧
      Written accept.writes (1 + (daemon.others id).countP (·.waitsFor resource))

def Daemon.lockable (daemon : Daemon) (id : Nat) (conn : Conn) (name : Name) (accept : Accept) :
    Prop :=
  if rsrcGetType name = .null then accept.answers conn
  else if (daemon.lockers.any (LockerSlot.manages name)) = true then
    conn.Spare ∧ Written accept.writes 1
  else if conn.msg.lock8.create = 0 then accept.answers conn
  else daemon.startable id conn name accept

def Daemon.dispatchable (daemon : Daemon) (id : Nat) (conn : Conn) (accept : Accept) : Prop :=
  (conn.msg.verb = .discover ∧ accept.nameinfo = true ∧ accept.sendto = true) ∨
    (conn.msg.verb = .lock ∧ ∃ name, conn.msg.lock8.name = some name ∧
      daemon.lockable id conn name accept)

def Daemon.accepts (daemon : Daemon) (id : Nat) (conn : Conn) (accept : Accept) : Prop :=
  match conn.msg.state with
  | .initialized | .parsing => True
  | .invalid => conn.Spare
  | .ready =>
    msgCheckProtocol conn.msg true = true ∧
      match daemon.identify conn accept with
      | .passed => daemon.dispatchable id conn accept
      | .refused _ => conn.Spare
      | .failed _ => False

def Harmless (decode : Name → Name) (daemon : Daemon) (id : Nat) (conn : Conn) (accept : Accept) :
    Prop :=
  match accept.arrival with
  | .failed _ | .empty => conn.Spare
  | .stalled => False
  | .bytes feed => feed.wellFormed = true ∧ daemon.accepts id (conn.fed decode feed) accept

inductive Settles (before : List Conn) (id : Nat) (rc : Rc) (after : Daemon) : Prop
  | done (ok : rc = .ok) (kept : (listening after.conns).Perm (listening before))
      (intact : after.Intact)
  | closed (closing : rc = .connectionClosed) (bound : id < after.conns.length)
      (kept : (listening (daemonClose after id true).2.conns).Perm (listening before))
      (intact : (daemonClose after id true).2.Intact)

theorem survives_iff (decode : Name → Name) (daemon : Daemon) (id : Nat) (accept : Accept)
    (closes : accept.closed = true) :
    Survives decode daemon id accept ↔
      Settles daemon.conns id (acceptLoopPollin decode daemon id accept).rc
        (acceptLoopPollin decode daemon id accept).daemon := by
  have served : acceptLoopServe decode daemon id accept.ready =
      let polled := acceptLoopPollin decode daemon id accept
      if polled.rc = .connectionClosed then daemonDisconnect polled.daemon id true
      else if polled.rc = .ok then ⟨if polled.moved then .again else .next, polled.daemon⟩
      else ⟨.leave, polled.daemon⟩ := by
    simp [acceptLoopServe, Accept.ready, closes]
  constructor
  · rintro ⟨rc, loops, listens, releases⟩
    rw [served] at loops listens releases
    generalize acceptLoopPollin decode daemon id accept = polled at rc loops listens releases ⊢
    obtain ok | closing := rc
    · simp only [ok, reduceCtorEq, if_false, if_true] at listens releases
      exact .done ok listens releases
    · simp only [closing, if_true, daemonDisconnect] at loops listens releases
      refine .closed closing ?_ listens releases
      by_contra outside
      simp [daemonClose, connsCloseFd, List.getElem?_eq_none (Nat.le_of_not_lt outside)] at loops
  · rintro (⟨ok, kept, intact⟩ | ⟨closing, bound, kept, intact⟩)
    · simp only [ok, reduceCtorEq, if_false, if_true] at served
      refine ⟨.inl ok, ?_, ?_, ?_⟩ <;> rw [served]
      · dsimp only
        split <;> simp
      · exact kept
      · exact intact
    · have done := congrArg Prod.fst (daemonClose_eq (List.getElem?_eq_getElem bound))
      simp only [closing, if_true, daemonDisconnect, done] at served
      refine ⟨.inr closing, ?_, ?_, ?_⟩ <;> rw [served]
      · simp
      · exact kept
      · exact intact

section

variable {daemon : Daemon} {head conn : Conn} {front behind : List Conn}

theorem settles_of_closed (placed : Placed daemon head front conn behind) (intact : daemon.Intact) :
    Settles daemon.conns (front.length + 1) .connectionClosed daemon ↔ conn.Spare := by
  rw [← placed.closed_spare intact]
  constructor
  · rintro (⟨⟨⟩, _, _⟩ | ⟨_, _, kept, after⟩)
    exact ⟨kept, after⟩
  · rintro ⟨kept, after⟩
    exact .closed rfl placed.bound kept after

theorem settles_ok_iff {before : List Conn} {id : Nat} {after : Daemon} :
    Settles before id .ok after ↔ (listening after.conns).Perm (listening before) ∧
    after.Intact := by
  constructor
  · rintro (⟨_, kept, intact⟩ | ⟨⟨⟩, _, _, _⟩)
    exact ⟨kept, intact⟩
  · rintro ⟨kept, intact⟩
    exact .done rfl kept intact

theorem settles_of_close (placed : Placed daemon head front conn behind) (intact : daemon.Intact) :
    Settles daemon.conns (front.length + 1) (daemonClose daemon (front.length + 1) true).1
      (daemonClose daemon (front.length + 1) true).2 ↔ conn.Spare := by
  rw [← placed.closed_spare intact, show (daemonClose daemon (front.length + 1) true).1 = .ok by
    rw [daemonClose_eq placed.present], settles_ok_iff]

theorem not_settles {before : List Conn} {id : Nat} {rc : Rc} {after : Daemon} (error : rc ≠ .ok)
    (open_ : rc ≠ .connectionClosed) : ¬Settles before id rc after := by
  rintro (⟨ok, _, _⟩ | ⟨closing, _, _, _⟩)
  · exact error ok
  · exact open_ closing

theorem Placed.updated_settles (placed : Placed daemon head front conn behind)
    (intact : daemon.Intact) (conn' : Conn) (listens : conn'.listens = conn.listens)
    (id : conn'.id = conn.id) (alive : conn'.state ≠ .remove) :
    (listening (daemon.setConn (front.length + 1) conn').conns).Perm (listening daemon.conns) ∧
      (daemon.setConn (front.length + 1) conn').Intact :=
  ⟨.of_eq (placed.updated listens id), (placed.intact_iff intact).mpr fun gone => absurd gone alive⟩

theorem acceptLoopReply_settles (placed : Placed daemon head front conn behind)
    (intact : daemon.Intact) (alive : conn.state ≠ .remove) (rc : Rc) (accept : Accept) :
    Settles daemon.conns (front.length + 1)
        (acceptLoopReply daemon (front.length + 1) conn rc accept).1
        (acceptLoopReply daemon (front.length + 1) conn rc accept).2 ↔ accept.answers conn := by
  unfold acceptLoopReply Accept.answers
  by_cases sent : accept.send = .ok
  · simp only [sent, if_true, true_or, iff_true, settles_ok_iff]
    obtain ⟨kept, after⟩ := placed.updated_settles intact
      { conn with lastStep := 2 * msgStepIncr } rfl rfl alive
    exact ⟨kept, after.same rfl rfl⟩
  · simp only [sent, if_false, false_or]
    by_cases gone : accept.send = .connectionClosed
    · simp only [gone, true_and]
      exact settles_of_closed placed intact
    · simp only [gone, false_and, iff_false]
      exact not_settles sent gone

theorem Placed.handed_intact_iff (placed : Placed daemon head front conn behind)
    (intact : daemon.Intact) {after : Daemon} {left taken : List Conn}
    (conns : after.conns = head :: left) (inside : ∀ other ∈ left, other ∈ front ++ behind)
    (transfers : after.transfers = daemon.transfers ++ conn :: taken) :
    after.Intact ↔ conn.msg.releasable = true ∧ ∀ other ∈ taken, other.msg.releasable = true := by
  constructor
  · intro whole
    exact ⟨whole.handed conn (by simp [transfers]), fun other member =>
      whole.handed other (by simp [transfers, member])⟩
  · rintro ⟨client, others⟩
    constructor
    · intro other member
      rw [conns, List.mem_cons] at member
      refine intact.closed other ?_
      rw [placed.conns]
      obtain rfl | member := member
      · exact List.mem_cons_self
      · have here := inside other member
        simp only [List.mem_append, List.mem_cons] at here ⊢
        tauto
    · intro other member
      simp only [transfers, List.mem_append, List.mem_cons] at member
      obtain before | rfl | member := member
      · exact intact.handed other before
      · exact client
      · exact others other member

theorem transferConn_settles (placed : Placed daemon head front conn behind)
    (intact : daemon.Intact) (locker : Nat) (writes : List Bool) :
    Settles daemon.conns (front.length + 1)
        (acceptLoopTransferConn daemon (front.length + 1) locker conn writes).rc
        (acceptLoopTransferConn daemon (front.length + 1) locker conn writes).daemon ↔
      conn.Spare ∧ Written writes 1 := by
  by_cases written : Written writes 1
  · obtain ⟨done, gone, handed, _⟩ := acceptLoopTransferConn_ok locker conn placed.bound written
    obtain ⟨rest, moved, same⟩ := placed.left
    rw [moved] at gone
    have whole := placed.handed_intact_iff intact gone
      (fun other member => same.mem_iff.mp member) handed
    rw [done, settles_ok_iff, whole, gone, placed.conns, and_iff_left written]
    have kept : (listening (head :: rest)).Perm (listening (head :: (front ++ conn :: behind))) ↔
        conn.listens = false := by
      rw [← listening_left_iff head conn (front ++ behind)]
      exact ((listening_perm head same).congr_left _).trans
        ((listening_middle head conn front behind).congr_right _)
    rw [kept]
    simp [Conn.Spare]
  · rw [acceptLoopTransferConn_failed locker conn placed.bound written]
    exact iff_of_false (not_settles (by simp) (by simp)) fun both => written both.2

theorem incubator_settles (placed : Placed daemon head front conn behind) (intact : daemon.Intact)
    (locker : Nat) (resource : Resource) (writes : List Bool) (written : Written writes 1) :
    let transferred := acceptLoopTransferConn daemon (front.length + 1) locker conn writes
    let scanned := acceptLoopIncubator locker resource transferred.daemon.conns.length 1
      transferred.daemon transferred.writes
    Settles daemon.conns (front.length + 1) scanned.1 scanned.2 ↔
      conn.Spare ∧ (∀ other ∈ front ++ behind, other.waitsFor resource = true → other.Spare) ∧
        Written writes.tail.tail ((front ++ behind).countP (·.waitsFor resource)) := by
  intro transferred scanned
  obtain ⟨_, gone, passed, unused⟩ := acceptLoopTransferConn_ok locker conn placed.bound written
  obtain ⟨rest, moved, same⟩ := placed.left
  rw [moved] at gone
  have enough : rest.length ≤ transferred.daemon.conns.length := by
    rw [gone, List.length_cons]
    omega
  have law := acceptLoopIncubator_cases locker resource transferred.daemon.conns.length
    transferred.daemon transferred.writes [head] rest gone enough
  rw [unused, same.countP_eq] at law
  obtain ⟨handed, failed⟩ := law
  by_cases more : Written writes.tail.tail ((front ++ behind).countP (·.waitsFor resource))
  · obtain ⟨ok, left, taken, final, kept, taking, waited⟩ := handed more
    have result : scanned.1 = .ok ∧ scanned.2.conns = head :: left ∧
        scanned.2.transfers = daemon.transfers ++ conn :: taken := by
      simp only [scanned, transferred, unused]
      refine ⟨ok, final, taking.trans ?_⟩
      rw [passed, List.append_assoc]
      rfl
    have inside : ∀ other ∈ left, other ∈ front ++ behind := fun other member =>
      same.mem_iff.mp (List.mem_of_mem_filter (kept.mem_iff.mp member))
    have listeners : (listening (head :: left)).Perm
      (listening (head :: (front ++ conn :: behind))) ↔
        conn.listens = false ∧ ∀ other ∈ front ++ behind, other.listens = true →
        other.waitsFor resource = false := by
      rw [← listening_lost_iff head conn (front ++ behind) (·.waitsFor resource)]
      exact ((listening_perm head (kept.trans (same.filter _))).congr_left _).trans
        ((listening_middle head conn front behind).congr_right _)
    have releases : (∀ other ∈ taken, other.msg.releasable = true) ↔
        ∀ other ∈ front ++ behind, other.waitsFor resource = true →
        other.msg.releasable = true := by
      simp only [(waited.trans (same.filter _)).mem_iff, List.mem_filter, and_imp]
    rw [result.1, settles_ok_iff, result.2.1, placed.conns, listeners,
      placed.handed_intact_iff intact result.2.1 inside result.2.2, releases, and_iff_left more]
    constructor
    · rintro ⟨⟨mute, quiet⟩, client, others⟩
      refine ⟨⟨mute, client⟩, fun other member waits => ⟨?_, others other member waits⟩⟩
      by_contra listens
      exact absurd waits (by simp [quiet other member (by simpa using listens)])
    · rintro ⟨⟨mute, client⟩, spare⟩
      refine ⟨⟨mute, fun other member listens => ?_⟩, client, fun other member waits =>
        (spare other member waits).2⟩
      by_contra waits
      exact absurd listens (by simp [(spare other member (by simpa using waits)).1])
  · have result : scanned.1 = .writeError := by
      simp only [scanned, transferred, unused]
      exact failed more
    rw [result]
    exact iff_of_false (not_settles (by simp) (by simp)) fun all => more all.2.2

theorem acceptLoopNewLocker_settles (placed : Placed daemon head front conn behind)
    (intact : daemon.Intact) {name : Name} {accept : Accept} (started : accept.started = .ok) :
    Settles daemon.conns (front.length + 1)
        (acceptLoopNewLocker daemon (front.length + 1) conn (rsrcGetType name) name accept).1
        (acceptLoopNewLocker daemon (front.length + 1) conn (rsrcGetType name) name accept).2 ↔
      daemon.startable (front.length + 1) conn name accept := by
  unfold acceptLoopNewLocker acceptLoopStartLocker Daemon.startable
  cases init : resourceInit (rsrcGetType name) name with
  | error rc =>
    dsimp only
    have crash : (rsrcGetType name = .hier ∨ rc = .crash) ↔ rsrcGetType name = .hier := by
      refine or_iff_left_of_imp ?_
      rintro rfl
      exact resourceInit_crash init
    by_cases hier : rsrcGetType name = .hier
    · simp only [hier, true_or, if_true, reduceCtorEq, if_false, ne_eq, not_true_eq_false,
        iff_false]
      exact not_settles (by simp) (by simp)
    · rw [if_neg (crash.not.mpr hier)]
      simp [hier, settles_ok_iff, intact]
  | ok resource =>
    simp only [started, if_true, reduceCtorEq, if_false, placed.others, written_add_iff]
    generalize opened : ({ daemon with
      lockers := daemon.lockers ++ [⟨lockerStart accept.control resource, true, true, 0, 0, []⟩] } :
      Daemon) = before
    have standing : Placed before head front conn behind := by
      constructor
      rw [← opened]
      exact placed.conns
    have whole : before.Intact := by
      rw [← opened]
      exact intact.same rfl rfl
    have faces := acceptLoopTransferConn_faces before
      (front.length + 1) daemon.lockers.length conn accept.writes
    have face := congrArg (fun list : List (Locker × Bool × Bool) => list[daemon.lockers.length]?)
      faces
    simp only [← opened, List.getElem?_map, List.getElem?_concat_length, Option.map_some] at face
    rw [opened, Option.map_eq_some_iff] at face
    obtain ⟨slot, found, shown⟩ := face
    have same : slot.thread = lockerStart accept.control resource := congrArg Prod.fst shown
    have conns : daemon.conns = before.conns := by rw [← opened]
    simp only [found, same, conns]
    by_cases written : Written accept.writes 1
    · obtain ⟨done, _, _⟩ := acceptLoopTransferConn_ok daemon.lockers.length conn standing.bound
        written
      rw [if_pos done]
      simp only [written, true_and]
      exact incubator_settles standing whole daemon.lockers.length resource accept.writes written
    · have failed := acceptLoopTransferConn_failed daemon.lockers.length conn standing.bound written
      rw [if_neg (by simp [failed]), failed]
      exact iff_of_false (not_settles (by simp) (by simp)) fun all => written all.2.2.1

theorem acceptLoopMissing_settles (placed : Placed daemon head front conn behind)
    (intact : daemon.Intact) (alive : conn.state ≠ .remove) {name : Name} {accept : Accept}
    (started : accept.started = .ok) :
    Settles daemon.conns (front.length + 1)
        (acceptLoopMissing daemon (front.length + 1) conn (rsrcGetType name) name accept).1
        (acceptLoopMissing daemon (front.length + 1) conn (rsrcGetType name) name accept).2 ↔
      if conn.msg.lock8.create = 0 then accept.answers conn
      else daemon.startable (front.length + 1) conn name accept := by
  unfold acceptLoopMissing
  by_cases create : conn.msg.lock8.create = 0
  · simp only [create, if_true]
    by_cases wait : conn.msg.lock8.wait = 0
    · rw [if_pos wait]
      exact acceptLoopReply_settles placed intact alive _ accept
    · rw [if_neg wait, ← acceptLoopReply_settles placed intact alive .lockWaitResource accept]
      by_cases sent : accept.send = .ok
      · simp only [acceptLoopReply, sent, if_true, settles_ok_iff]
        let answered := { conn with lastStep := 2 * msgStepIncr }
        obtain ⟨kept, first⟩ := placed.updated_settles intact answered rfl rfl alive
        obtain ⟨again, second⟩ :=
          (placed.set answered).updated_settles first { answered with wait := true } rfl rfl alive
        exact iff_of_true ⟨again.trans kept, second.same rfl rfl⟩ ⟨kept, first.same rfl rfl⟩
      · simp [acceptLoopReply, sent]
  · simp only [create, if_false]
    exact acceptLoopNewLocker_settles placed intact started

theorem acceptLoopTransfer_settles (placed : Placed daemon head front conn behind)
    (intact : daemon.Intact) (alive : conn.state ≠ .remove) {accept : Accept}
    (started : accept.started = .ok) :
    Settles daemon.conns (front.length + 1)
        (acceptLoopTransfer daemon (front.length + 1) conn accept).1
        (acceptLoopTransfer daemon (front.length + 1) conn accept).2 ↔
      (conn.msg.verb = .lock ∧ conn.msg.step = msgStepIncr) ∧
        ∃ name, conn.msg.lock8.name = some name ∧
        daemon.lockable (front.length + 1) conn name accept := by
  unfold acceptLoopTransfer
  by_cases lock : conn.msg.verb = .lock ∧ conn.msg.step = msgStepIncr
  · rw [if_pos lock, and_iff_right lock]
    cases named : conn.msg.lock8.name with
    | none => simpa using not_settles (by simp) (by simp)
    | some name =>
      simp only [Option.some.injEq, exists_eq_left', Daemon.lockable]
      by_cases untyped : rsrcGetType name = .null
      · rw [if_pos untyped, if_pos untyped]
        exact acceptLoopReply_settles placed intact alive _ accept
      · rw [if_neg untyped, if_neg untyped]
        cases found : daemon.lockers.findIdx? (LockerSlot.manages name) with
        | some locker =>
          have some_ : daemon.lockers.any (LockerSlot.manages name) = true := by
            rw [← List.findIdx?_isSome, found, Option.isSome_some]
          rw [if_pos some_]
          exact transferConn_settles placed intact locker accept.writes
        | none =>
          have none_ : ¬daemon.lockers.any (LockerSlot.manages name) = true := by
            rw [← List.findIdx?_isSome, found]
            simp
          rw [if_neg none_]
          exact acceptLoopMissing_settles placed intact alive started
  · rw [if_neg lock]
    exact iff_of_false (not_settles (by simp) (by simp)) fun all => lock all.1

theorem acceptLoopDispatch_settles (placed : Placed daemon head front conn behind)
    (intact : daemon.Intact) (alive : conn.state ≠ .remove) {accept : Accept}
    (started : accept.started = .ok) (request : msgCheckProtocol conn.msg true = true)
    (unmanaged : conn.msg.verb ≠ .mngmnt) :
    Settles daemon.conns (front.length + 1)
        (acceptLoopDispatch daemon (front.length + 1) conn accept).rc
        (acceptLoopDispatch daemon (front.length + 1) conn accept).daemon ↔
      daemon.dispatchable (front.length + 1) conn accept := by
  unfold acceptLoopDispatch Daemon.dispatchable
  by_cases discover : conn.msg.verb = .discover
  · simp only [discover, if_true, reduceCtorEq, false_and, or_false, true_and, acceptDiscoverReply]
    by_cases named : accept.nameinfo = true
    · by_cases sent : accept.sendto = true
      · simp [named, sent, settles_ok_iff, intact]
      · simpa [named, sent] using not_settles (by simp) (by simp)
    · simpa [named] using not_settles (by simp) (by simp)
  · simp only [discover, unmanaged, if_false, false_and, false_or]
    rw [acceptLoopTransfer_settles placed intact alive started]
    -- Check_protocol lets a LOCK through only with the first step.
    have first : conn.msg.verb = .lock → conn.msg.step = msgStepIncr := by
      intro lock
      simp only [msgCheckProtocol, lock] at request
      by_contra other
      simp [other] at request
    constructor
    · rintro ⟨⟨lock, _⟩, rest⟩
      exact ⟨lock, rest⟩
    · rintro ⟨lock, rest⟩
      exact ⟨⟨lock, first lock⟩, rest⟩

theorem settles_closed_twice (placed : Placed daemon head front conn behind)
    (intact : daemon.Intact) :
    Settles daemon.conns (front.length + 1) .connectionClosed
        (daemonClose daemon (front.length + 1) true).2 ↔ conn.Spare := by
  have closed : Placed (daemonClose daemon (front.length + 1) true).2 head front
      conn.terminated behind := by
    rw [daemonClose_eq placed.present]
    exact placed.set _
  have removed : conn.terminated.state = .remove := connTerminate_state conn true
  have still : conn.terminated.terminated = conn.terminated := by
    rw [Conn.terminated, connTerminate, if_pos removed]
  have again : (daemonClose (daemonClose daemon (front.length + 1) true).2
    (front.length + 1) true).2 =
      (daemonClose daemon (front.length + 1) true).2 := by
    rw [daemonClose_eq closed.present, still, daemonClose_eq placed.present, Daemon.setConn,
      Daemon.setConn,
      List.set_set]
  rw [← placed.closed_spare intact]
  constructor
  · rintro (⟨⟨⟩, _, _⟩ | ⟨_, _, kept, after⟩)
    rw [again] at kept after
    exact ⟨kept, after⟩
  · rintro ⟨kept, after⟩
    refine .closed rfl closed.bound ?_ ?_ <;> rw [again]
    · exact kept
    · exact after

theorem acceptLoopReady_settles (placed : Placed daemon head front conn behind)
    (intact : daemon.Intact) (alive : conn.state ≠ .remove) {accept : Accept}
    (started : accept.started = .ok) (closes : accept.closed = true)
    (unmanaged : conn.msg.verb ≠ .mngmnt) :
    Settles daemon.conns (front.length + 1)
        (acceptLoopReady daemon (front.length + 1) conn accept).rc
        (acceptLoopReady daemon (front.length + 1) conn accept).daemon ↔
      msgCheckProtocol conn.msg true = true ∧
        match daemon.identify conn accept with
        | .passed => daemon.dispatchable (front.length + 1) conn accept
        | .refused _ => conn.Spare
        | .failed _ => False := by
  unfold acceptLoopReady
  by_cases request : msgCheckProtocol conn.msg true = true
  · rw [if_pos request, and_iff_right request]
    cases check : daemon.identify conn accept with
    | passed => exact acceptLoopDispatch_settles placed intact alive started request unmanaged
    | failed rc =>
      refine iff_of_false (not_settles ?_ ?_) id <;>
        rcases identify_failed check with rfl | rfl | rfl <;> simp
    | refused rc =>
      rw [closes]
      dsimp only
      rw [if_pos (by rw [daemonClose_eq placed.present])]
      exact settles_closed_twice placed intact
  · rw [if_neg request]
    exact iff_of_false (not_settles (by simp) (by simp)) fun all => request all.1

theorem accepts_setConn (daemon : Daemon) (id : Nat) (standing conn : Conn) (accept : Accept) :
    (daemon.setConn id standing).accepts id conn accept ↔ daemon.accepts id conn accept := by
  have others : (daemon.setConn id standing).others id = daemon.others id := by
    simp [Daemon.others, Daemon.setConn, List.eraseIdx_set_eq]
  simp only [Daemon.accepts, Daemon.dispatchable, Daemon.lockable, Daemon.startable, others]
  rfl

theorem settles_congr {before before' : List Conn} (same : listening before = listening before')
    (id : Nat) (rc : Rc) (after : Daemon) : Settles before id rc after ↔
    Settles before' id rc after := by
  constructor
  · rintro (⟨ok, kept, intact⟩ | ⟨closing, bound, kept, intact⟩)
    · exact .done ok (same ▸ kept) intact
    · exact .closed closing bound (same ▸ kept) intact
  · rintro (⟨ok, kept, intact⟩ | ⟨closing, bound, kept, intact⟩)
    · exact .done ok (same ▸ kept) intact
    · exact .closed closing bound (same ▸ kept) intact

theorem acceptLoopData_settles (placed : Placed daemon head front conn behind)
    (intact : daemon.Intact) (alive : conn.state ≠ .remove) (decode : Name → Name) (feed : Feed)
    {accept : Accept} (started : accept.started = .ok) (closes : accept.closed = true)
    (unmanaged : (conn.fed decode feed).msg.verb ≠ .mngmnt) :
    Settles daemon.conns (front.length + 1)
        (acceptLoopData decode daemon (front.length + 1) conn feed accept).rc
        (acceptLoopData decode daemon (front.length + 1) conn feed accept).daemon ↔
      feed.wellFormed = true ∧ daemon.accepts (front.length + 1) (conn.fed decode feed) accept := by
  unfold acceptLoopData
  have parsed : (msgDeserialize decode feed conn.msg).1 = .ok ↔ feed.wellFormed = true := by
    simp only [msgDeserialize]
    split_ifs <;> simp_all
  by_cases formed : feed.wellFormed = true
  · rw [and_iff_right formed]
    dsimp only
    rw [if_pos (parsed.mpr formed)]
    obtain ⟨_, whole⟩ := placed.updated_settles intact (conn.fed decode feed) rfl rfl alive
    have kept : listening (daemon.setConn (front.length + 1) (conn.fed decode feed)).conns =
      listening daemon.conns := placed.updated rfl rfl
    have standing := placed.set (conn.fed decode feed)
    rw [← accepts_setConn daemon (front.length + 1) (conn.fed decode feed), settles_congr kept.symm]
    unfold Daemon.accepts
    cases state : (conn.fed decode feed).msg.state with
    | initialized | parsing =>
      have same : (msgDeserialize decode feed conn.msg).2.state = _ := state
      simp only [same, iff_true, settles_ok_iff]
      exact ⟨.refl _, whole⟩
    | invalid =>
      have same : (msgDeserialize decode feed conn.msg).2.state = _ := state
      simp only [same, closes]
      exact settles_of_close standing whole
    | ready =>
      have same : (msgDeserialize decode feed conn.msg).2.state = _ := state
      simp only [same]
      exact acceptLoopReady_settles standing whole alive started closes unmanaged
  · rw [if_neg (parsed.not.mpr formed)]
    refine iff_of_false (not_settles ?_ ?_) fun all => formed all.1 <;>
      simp [msgDeserialize, formed]

end

def Accept.manages (decode : Name → Name) (accept : Accept) (conn : Conn) : Prop :=
  ∃ feed, accept.arrival = .bytes feed ∧ (conn.fed decode feed).msg.verb = .mngmnt

def listeningDaemon : Daemon where
  conns := [connInit 0 false true, connInit 1 true true, connInit 2 false true]
  lockers := []
  tlsCheckPeerId := false
  running := true
  mail := []
  transfers := []

/-- A LOCK with its name, in which an UNLOCK writes over the pointer before it is a LOCK again. -/
def overwritingFeed : Feed where
  events :=
    [.start msgTagMsg [(msgPropLevel, ['3']), (msgPropVerb, ['1']), (msgPropStep, ['8'])],
      .start msgTagResource [(msgPropName, encodedX), (msgPropCreate, ['1'])], .stop msgTagResource,
      .start msgTagMsg [(msgPropVerb, ['2'])], .start msgTagResource [(msgPropRollback, ['9'])],
      .stop msgTagResource, .start msgTagMsg [(msgPropVerb, ['1'])], .stop msgTagMsg]
  wellFormed := true

end Flom
