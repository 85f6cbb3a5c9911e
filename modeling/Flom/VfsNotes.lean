import Flom.Incubator
import Flom.ResourceHierExclusion
import Flom.VfsDaemon

set_option autoImplicit false

namespace Flom

open Lists

theorem resourceInit_holding {type : RsrcType} {name : Name} {resource : Resource}
    (started : resourceInit type name = .ok resource) : resource.holding = [] := by
  cases type with
  | null => cases started
  | simple =>
    obtain rfl := Except.ok.inj started
    rfl
  | set =>
    obtain rfl := Except.ok.inj started
    simp [Resource.holding, resourceSetInit]
  | numeric =>
    obtain ⟨_, made, rfl⟩ := except_map_ok started
    obtain ⟨_, _, rfl⟩ := resourceNumericInit_ok made
    rfl
  | hier =>
    obtain ⟨rsrc, made, rfl⟩ := except_map_ok started
    obtain ⟨level, rest, _, _, rfl⟩ := resourceHierInit_eq made
    simp [Resource.holding, hierEmptyChain_entries]
  | sequence =>
    obtain ⟨rsrc, made, rfl⟩ := except_map_ok started
    obtain ⟨_, _, rfl⟩ := resourceSequenceInit_eq made
    rfl
  | timestamp =>
    obtain ⟨rsrc, made, rfl⟩ := except_map_ok started
    obtain ⟨_, _, _, _, _, rfl⟩ := resourceTimestampInit_eq made
    rfl

def waiters (conns : List Conn) : List (ConnId × ConnState) :=
  (conns.filter Conn.wait).map fun conn => (conn.id, conn.state)

inductive Daemon.Notes (origin : Daemon) : Daemon → List VfsCall → Prop
  | quiet {after : Daemon} (faces : after.lockers.map LockerSlot.face =
      origin.lockers.map LockerSlot.face)
      (waiting : (waiters after.conns).Perm (waiters origin.conns)) : Daemon.Notes origin after []
  | incubates {after : Daemon} (conn : ConnId) (state : ConnState) (stays : state ≠ .remove)
      (faces : after.lockers.map LockerSlot.face = origin.lockers.map LockerSlot.face)
      (waiting : (waiters after.conns).Perm ((conn, state) :: waiters origin.conns)) :
      Daemon.Notes origin after [.addIncubatorConn conn]
  | hatches {after : Daemon} (control : ConnId) (resource : Resource) (handed : List Conn)
      (empty : resource.holding = [] ∧ resource.waiting = [])
      (faces : after.lockers.map LockerSlot.face =
        origin.lockers.map LockerSlot.face ++ [(lockerStart control resource, true, true)])
      (waiting : (waiters origin.conns).Perm
        (handed.map (fun conn => (conn.id, conn.state)) ++ waiters after.conns)) :
      Daemon.Notes origin after (.addLocker control :: handed.map fun conn => .delConn conn.id true)

structure Daemon.Tells (origin : Daemon) (id : Nat) (rc : Rc) (after : Daemon)
    (calls : List VfsCall) : Prop where
  notes : origin.Notes after calls
  closes : rc = .connectionClosed → calls = [] ∧ ∀ conn ∈ after.conns[id]?, conn.wait = false

theorem waiters_perm {first second : List Conn} (same : first.Perm second) :
    (waiters first).Perm (waiters second) :=
  (same.filter _).map _

theorem waiters_append (first second : List Conn) :
    waiters (first ++ second) = waiters first ++ waiters second := by
  simp [waiters]

theorem waiters_cons_idle {conn : Conn} (rest : List Conn) (idle : conn.wait = false) :
    waiters (conn :: rest) = waiters rest := by
  simp [waiters, idle]

theorem waiters_cons_waiting {conn : Conn} (rest : List Conn) (waits : conn.wait = true) :
    waiters (conn :: rest) = (conn.id, conn.state) :: waiters rest := by
  simp [waiters, waits]

theorem waiters_set {conns : List Conn} {id : Nat} {old : Conn} (present : conns[id]? = some old) :
    ∃ rest, conns.Perm (old :: rest) ∧ ∀ conn, (conns.set id conn).Perm (conn :: rest) := by
  obtain ⟨front, behind, rfl, rfl⟩ := split_of_getElem? present
  refine ⟨front ++ behind, List.perm_middle, fun conn => ?_⟩
  rw [List.set_append_right _ _ le_rfl, Nat.sub_self, List.set_cons_zero]
  exact List.perm_middle

theorem waiters_set_idle {conns : List Conn} {id : Nat} {old conn : Conn}
    (present : conns[id]? = some old) (idle : old.wait = false) (still : conn.wait = false) :
    (waiters (conns.set id conn)).Perm (waiters conns) := by
  obtain ⟨rest, before, after⟩ := waiters_set present
  have first := waiters_perm before
  have second := waiters_perm (after conn)
  rw [waiters_cons_idle rest idle] at first
  rw [waiters_cons_idle rest still] at second
  exact second.trans first.symm

theorem waiters_set_same {conns : List Conn} {id : Nat} {old conn : Conn}
    (present : conns[id]? = some old)
    (same : conn.id = old.id ∧ conn.state = old.state ∧ conn.wait = old.wait) :
    (waiters (conns.set id conn)).Perm (waiters conns) := by
  obtain ⟨rest, before, after⟩ := waiters_set present
  have equal : waiters (conn :: rest) = waiters (old :: rest) := by
    cases waits : old.wait with
    | true =>
      rw [waiters_cons_waiting rest waits, waiters_cons_waiting rest (same.2.2.trans waits), same.1,
        same.2.1]
    | false => rw [waiters_cons_idle rest waits, waiters_cons_idle rest (same.2.2.trans waits)]
  have second := waiters_perm (after conn)
  rw [equal] at second
  exact second.trans (waiters_perm before).symm

theorem acceptLoopTransferConn_transfers (daemon : Daemon) (position locker : Nat) (conn : Conn)
    (writes : List Bool) :
    (acceptLoopTransferConn daemon position locker conn writes).daemon.transfers =
    daemon.transfers ++ [conn] := by
  unfold acceptLoopTransferConn
  dsimp only
  split_ifs <;> rfl

theorem acceptLoopIncubatorCalls_handed (locker : Nat) (resource : Resource) (fuel id : Nat)
    (daemon : Daemon) (writes : List Bool)
    (done : (acceptLoopIncubator locker resource fuel id daemon writes).1 ≠ .writeError) :
    ∃ handed, (acceptLoopIncubator locker resource fuel id daemon writes).2.transfers =
    daemon.transfers ++ handed ∧
      acceptLoopIncubatorCalls locker resource fuel id daemon writes =
        handed.map fun conn => .delConn conn.id true := by
  induction fuel generalizing id daemon writes with
  | zero => exact ⟨[], by simp [acceptLoopIncubator], rfl⟩
  | succ fuel ih =>
    rw [acceptLoopIncubator] at done ⊢
    rw [acceptLoopIncubatorCalls]
    cases present : daemon.conns[id]? with
    | none => exact ⟨[], by simp, rfl⟩
    | some conn =>
      simp only [present] at done ⊢
      by_cases waits : conn.waitsFor resource = true
      · simp only [waits, if_true] at done ⊢
        have bound := (List.getElem?_eq_some_iff.mp present).1
        have cases := @acceptLoopTransferConn_cases id daemon id locker conn writes bound
        have transfers := acceptLoopTransferConn_transfers daemon id locker conn writes
        generalize acceptLoopTransferConn daemon id locker conn writes =
          transferred at done cases transfers ⊢
        obtain ⟨failed, _⟩ | ⟨ok, _⟩ := cases
        · simp [failed] at done
        · rw [if_pos ok] at done ⊢
          rw [if_pos ok]
          obtain ⟨handed, later, calls⟩ := ih id transferred.daemon transferred.writes done
          refine ⟨conn :: handed, ?_, by rw [calls, List.map_cons]⟩
          rw [later, transfers, List.append_assoc, List.singleton_append]
      · simp only [waits, if_false, Bool.false_eq_true] at done ⊢
        exact ih (id + 1) daemon writes done

theorem acceptLoopNewLockerCalls_handed {daemon : Daemon} {id : Nat} {conn : Conn} {type : RsrcType}
    {name : Name} {accept : Accept} (bound : id < daemon.conns.length)
    (done : (acceptLoopNewLocker daemon id conn type name accept).1 ≠ .writeError) :
    ((acceptLoopNewLocker daemon id conn type name accept).2 = daemon ∧
        acceptLoopNewLockerCalls daemon id conn type name accept = []) ∨
      ∃ handed, (acceptLoopNewLocker daemon id conn type name accept).2.transfers =
          daemon.transfers ++ conn :: handed ∧
        acceptLoopNewLockerCalls daemon id conn type name accept =
          .addLocker accept.control :: handed.map fun conn => .delConn conn.id true := by
  unfold acceptLoopNewLocker at done ⊢
  unfold acceptLoopNewLockerCalls
  obtain ⟨failed, same⟩ | ⟨resource, _, _, same⟩ :=
    acceptLoopStartLocker_cases daemon type name accept
  · left
    simp only [failed, same, if_false]
    split_ifs
    · exact ⟨rfl, trivial⟩
    · exact ⟨same, trivial⟩
  · right
    simp only [same, reduceCtorEq, if_false, if_true] at done ⊢
    have inside : id < (daemon.started accept.control resource).conns.length := bound
    have cases := @acceptLoopTransferConn_cases id _ _ daemon.lockers.length conn accept.writes
      inside
    have transfers := acceptLoopTransferConn_transfers
      (daemon.started accept.control resource) id daemon.lockers.length conn accept.writes
    have length := congrArg List.length
      (acceptLoopTransferConn_faces (daemon.started accept.control resource) id
      daemon.lockers.length conn accept.writes)
    generalize acceptLoopTransferConn (daemon.started accept.control resource) id
      daemon.lockers.length conn accept.writes = transferred at done cases transfers length ⊢
    have slotted : daemon.lockers.length < transferred.daemon.lockers.length := by
      rw [List.length_map, List.length_map] at length
      simp [length, Daemon.started]
    simp only [List.getElem?_eq_getElem slotted] at done ⊢
    obtain ⟨failed, _⟩ | ⟨ok, _⟩ := cases
    · simp [failed] at done
    · rw [if_pos ok] at done ⊢
      rw [if_pos ok]
      obtain ⟨handed, later, calls⟩ := acceptLoopIncubatorCalls_handed _ _ _ _ _ _ done
      refine ⟨handed, ?_, by rw [calls]⟩
      rw [later, transfers, List.append_assoc, List.singleton_append]
      rfl

section

variable {decode : Name → Name} {origin : Daemon} {id : Nat} {accept : Accept} {old conn : Conn}

theorem Hatched.notes {control : ConnId} {resource : Resource} {type : RsrcType} {name : Name}
    {after : Daemon} (client : id ≠ 0) (present : origin.conns[id]? = some old)
    (idle : old.wait = false) (init : resourceInit type name = .ok resource)
    (hatched : Hatched origin id control resource conn after) :
    ∃ handed, after.transfers = origin.transfers ++ conn :: handed ∧
      origin.Notes after (.addLocker control :: handed.map fun conn => .delConn conn.id true) := by
  obtain ⟨left, handed, slot, rfl, stays, goes, face, _⟩ := hatched
  obtain ⟨head, front, behind, placed, rfl⟩ := placed_of_present client present
  rw [placed.others] at stays goes
  refine ⟨handed, rfl, .hatches control resource handed
    ⟨resourceInit_holding init, resourceInit_waiting init⟩ ?_ ?_⟩
  · simp [face]
  · have everybody : (front ++ behind).Perm (handed ++ left) :=
      (List.filter_append_perm _ (front ++ behind)).symm.trans (goes.symm.append stays.symm)
    have waiting : waiters handed = handed.map fun conn => (conn.id, conn.state) := by
      have all : ∀ other ∈ handed, other.wait = true := by
        intro other member
        have waits := (List.mem_filter.mp (goes.subset member)).2
        rw [Conn.waitsFor, Bool.and_eq_true] at waits
        exact waits.1
      rw [waiters, List.filter_eq_self.mpr all]
    have before : (waiters origin.conns).Perm (waiters [head] ++ waiters (handed ++ left)) := by
      have first : origin.conns.Perm ([head] ++ old :: (front ++ behind)) := by
        rw [placed.conns]
        exact List.perm_middle.cons head
      refine (waiters_perm first).trans ?_
      rw [waiters_append, waiters_cons_idle _ idle]
      exact (waiters_perm everybody).append_left _
    refine before.trans ?_
    have one : origin.conns.take 1 = [head] := by simp [placed.conns]
    rw [one, waiters_append handed, waiters_append [head], waiting]
    exact List.perm_append_comm_assoc _ _ _

theorem setConn_idle {daemon : Daemon} {id : Nat} {conn : Conn} (idle : conn.wait = false) :
    ∀ other ∈ (daemon.setConn id conn).conns[id]?, other.wait = false := by
  intro other here
  rw [Daemon.setConn, List.getElem?_set_self'] at here
  obtain ⟨_, _, rfl⟩ := Option.map_eq_some_iff.mp here
  exact idle

theorem acceptLoopReply_tells {rc : Rc} (present : origin.conns[id]? = some old)
    (same : conn.id = old.id ∧ conn.state = old.state ∧ conn.wait = old.wait)
    (idle : accept.send = .connectionClosed → old.wait = false) :
    origin.Tells id (acceptLoopReply (origin.setConn id conn) id conn rc accept).1
      (acceptLoopReply (origin.setConn id conn) id conn rc accept).2 [] := by
  unfold acceptLoopReply
  split_ifs with sent
  · refine ⟨.quiet rfl ?_, by simp⟩
    simp only [Daemon.setConn, List.set_set]
    exact waiters_set_same present same
  · refine ⟨.quiet rfl (waiters_set_same present same), fun gone => ⟨rfl, ?_⟩⟩
    exact setConn_idle (same.2.2.trans (idle gone))

theorem acceptLoopIncubate_notes {rc : Rc} (present : origin.conns[id]? = some old)
    (same : conn.id = old.id ∧ conn.state = old.state ∧ conn.wait = old.wait)
    (opened : old.state ≠ .remove) (idle : old.wait = false) :
    origin.Notes ((acceptLoopReply (origin.setConn id conn) id conn rc accept).2.setConn id
      { conn with lastStep := 2 * msgStepIncr, wait := true }) [.addIncubatorConn conn.id] := by
  have conns : ∀ other,
      (acceptLoopReply (origin.setConn id conn) id conn rc accept).2.conns.set id other =
      origin.conns.set id other := by
    intro other
    unfold acceptLoopReply
    split_ifs <;> simp [Daemon.setConn]
  obtain ⟨rest, before, after⟩ := waiters_set present
  refine .incubates conn.id conn.state (same.2.1 ▸ opened) ?_ ?_
  · simp only [Daemon.setConn, acceptLoopReply_lockers]
  · rw [Daemon.setConn, conns]
    have first := waiters_perm before
    rw [waiters_cons_idle rest idle] at first
    exact (waiters_perm (after _)).trans (first.symm.cons _)

theorem acceptLoopNewLocker_tells {name : Name} (client : id ≠ 0)
    (present : origin.conns[id]? = some old)
    (same : conn.id = old.id ∧ conn.state = old.state ∧ conn.wait = old.wait)
    (idle : (resourceInit (rsrcGetType name) name).isOk = true → old.wait = false)
    (done : (acceptLoopNewLocker (origin.setConn id conn) id conn (rsrcGetType name) name accept).1
      ≠ .writeError) :
    origin.Tells id (acceptLoopNewLocker (origin.setConn id conn) id conn
      (rsrcGetType name) name accept).1
      (acceptLoopNewLocker (origin.setConn id conn) id conn (rsrcGetType name) name accept).2
      (acceptLoopNewLockerCalls (origin.setConn id conn) id conn
          (rsrcGetType name) name accept) := by
  have bound : id < (origin.setConn id conn).conns.length := by
    simpa [Daemon.setConn] using (List.getElem?_eq_some_iff.mp present).1
  have standing : (origin.setConn id conn).conns[id]? = some conn :=
    List.getElem?_set_self (List.getElem?_eq_some_iff.mp present).1
  obtain ⟨unchanged, calls⟩ | ⟨handed, transfers, calls⟩ :=
    acceptLoopNewLockerCalls_handed bound done
  · refine ⟨?_, fun gone => ⟨calls, ?_⟩⟩
    · rw [unchanged, calls]
      exact .quiet rfl (waiters_set_same present same)
    · have init : (resourceInit (rsrcGetType name) name).isOk = true := by
        by_contra failed
        unfold acceptLoopNewLocker acceptLoopStartLocker at gone
        cases init : resourceInit (rsrcGetType name) name with
        | ok resource => simp [init, Except.isOk, Except.toBool] at failed
        | error rc =>
          simp only [init] at gone
          split_ifs at gone <;> simp_all
      rw [unchanged]
      exact setConn_idle (same.2.2.trans (idle init))
  · obtain unchanged | ⟨resource, init, _, ok, hatched⟩ :=
      acceptLoopNewLocker_hatched client standing done
    · rw [unchanged] at transfers
      simp at transfers
    · have free : old.wait = false := idle (by rw [init]; rfl)
      obtain ⟨handed', transfers', notes⟩ :=
        (hatched.of_setConn client present).notes client present free init
      obtain rfl : handed = handed' := by
        have equal := transfers.symm.trans transfers'
        simpa [Daemon.setConn] using equal
      rw [ok, calls]
      exact ⟨notes, by simp⟩

theorem acceptLoopTransfer_tells (heard : Heard decode origin id accept conn)
    (present : origin.conns[id]? = some old)
    (same : conn.id = old.id ∧ conn.state = old.state ∧ conn.wait = old.wait)
    (opened : old.state ≠ .remove) (ready : conn.msg.state = .ready)
    (still : old.wait = true → ∀ name, conn.requests name →
      ¬origin.takes conn.msg name ∧ accept.send ≠ .connectionClosed)
    (done : (acceptLoopTransfer (origin.setConn id conn) id conn accept).1 ≠ .writeError) :
    origin.Tells id (acceptLoopTransfer (origin.setConn id conn) id conn accept).1
      (acceptLoopTransfer (origin.setConn id conn) id conn accept).2
      (acceptLoopTransferCalls (origin.setConn id conn) id conn accept) := by
  have stepped : conn.lastStep = conn.msg.step := by
    obtain ⟨_, _, _, _, _, _, rfl⟩ := heard
    rfl
  have unchanged : ∀ rc, rc ≠ .connectionClosed → origin.Tells id rc (origin.setConn id conn) [] :=
    fun rc other => ⟨.quiet rfl (waiters_set_same present same), fun gone => absurd gone other⟩
  unfold acceptLoopTransfer at done ⊢
  unfold acceptLoopTransferCalls
  by_cases lock : conn.msg.verb = .lock ∧ conn.msg.step = msgStepIncr
  · simp only [lock, and_self, if_true] at done ⊢
    cases named : conn.msg.lock8.name with
    | none => exact unchanged .crash (by simp)
    | some name =>
      have requests : conn.requests name := ⟨ready, lock.1, lock.2, stepped.trans lock.2, named⟩
      have quiet : accept.send = .connectionClosed → old.wait = false := by
        intro gone
        by_contra waits
        exact (still (by simpa using waits) name requests).2 gone
      simp only [named] at done ⊢
      split_ifs at done ⊢ with type
      · exact acceptLoopReply_tells present same quiet
      · have idle : (¬origin.unmanaged name ∨
            if conn.msg.lock8.create = 0 then conn.msg.lock8.wait ≠ 0
            else (resourceInit (rsrcGetType name) name).isOk = true) → old.wait = false := by
          intro taken
          by_contra waits
          exact (still (by simpa using waits) name requests).1 ⟨type, taken⟩
        cases missing : (origin.setConn id conn).lockers.findIdx? (LockerSlot.manages name) with
        | some locker =>
          simp only [missing] at done ⊢
          have managed : ¬origin.unmanaged name := by
            intro free
            rw [Daemon.unmanaged] at free
            simp [Daemon.setConn, free] at missing
          have free : old.wait = false := idle (.inl managed)
          have bound : id < (origin.setConn id conn).conns.length := by
            simpa [Daemon.setConn] using (List.getElem?_eq_some_iff.mp present).1
          have standing : (origin.setConn id conn).conns[id]? = some conn :=
            List.getElem?_set_self (List.getElem?_eq_some_iff.mp present).1
          have faces := acceptLoopTransferConn_faces
            (origin.setConn id conn) id locker conn accept.writes
          obtain ⟨failed, _⟩ | ⟨ok, _⟩ := @acceptLoopTransferConn_cases id
            (origin.setConn id conn) id locker conn accept.writes bound
          · exact absurd failed done
          · refine ⟨.quiet faces ?_, by simp [ok]⟩
            rw [acceptLoopTransferConn_conns bound ok]
            have left := waiters_perm (removeIndexFast_perm standing)
            rw [waiters_cons_idle _ (same.2.2.trans free)] at left
            exact left.symm.trans (waiters_set_same present same)
        | none =>
          simp only [missing] at done ⊢
          unfold acceptLoopMissing at done ⊢
          unfold acceptLoopMissingCalls
          split_ifs at done ⊢ with create wait replied
          · exact acceptLoopReply_tells present same quiet
          · have free : old.wait = false := idle (.inr (by rwa [if_pos create]))
            dsimp only
            rw [if_pos replied]
            exact ⟨acceptLoopIncubate_notes present same opened free, by simp⟩
          · dsimp only
            rw [if_neg replied]
            exact acceptLoopReply_tells present same quiet
          · exact acceptLoopNewLocker_tells heard.1 present same
              (fun init => idle (.inr (by rwa [if_neg create]))) done
  · rw [if_neg lock, if_neg lock]
    exact unchanged .protocolError (by simp)

theorem waiters_close {conns : List Conn} {id : Nat} (idle : ∀ conn ∈ conns[id]?, conn.wait = false)
    (closed : Bool) :
    (waiters (connsCloseFd conns id closed).2).Perm (waiters conns) := by
  unfold connsCloseFd
  cases present : conns[id]? with
  | none => exact List.Perm.refl _
  | some conn =>
    obtain ⟨sockfd, same⟩ := connTerminate_snd conn closed
    have still : (connTerminate conn closed).2.wait = false := by
      rw [same]
      exact idle conn present
    exact waiters_set_idle present (idle conn present) still

theorem close_idle {conns : List Conn} {id : Nat} (idle : ∀ conn ∈ conns[id]?, conn.wait = false)
    (closed : Bool) :
    ∀ conn ∈ (connsCloseFd conns id closed).2[id]?, conn.wait = false := by
  unfold connsCloseFd
  cases present : conns[id]? with
  | none => simp [present]
  | some conn =>
    intro other here
    obtain ⟨sockfd, same⟩ := connTerminate_snd conn closed
    rw [List.getElem?_set_self', present] at here
    obtain rfl := Option.some.inj here
    rw [same]
    exact idle conn present

theorem daemonMngmnt_open (msg : Msg) : daemonMngmnt msg ≠ .connectionClosed := by
  unfold daemonMngmnt
  split
  · split_ifs <;> simp
  · simp

theorem identify_open {rc : Rc} (failed : origin.identify conn accept = .failed rc) :
    rc ≠ .connectionClosed := by
  rcases identify_failed failed with rfl | rfl | rfl <;> simp

theorem acceptLoopReady_tells (heard : Heard decode origin id accept conn)
    (present : origin.conns[id]? = some old)
    (same : conn.id = old.id ∧ conn.state = old.state ∧ conn.wait = old.wait)
    (opened : old.state ≠ .remove) (ready : conn.msg.state = .ready)
    (still : old.wait = true → msgCheckProtocol conn.msg true = true →
      (∀ rc, origin.identify conn accept ≠ .refused rc) ∧
      ∀ name, conn.requests name → ¬origin.takes conn.msg name ∧ accept.send ≠ .connectionClosed)
    (done : (acceptLoopReady (origin.setConn id conn) id conn accept).rc ≠ .writeError) :
    origin.Tells id (acceptLoopReady (origin.setConn id conn) id conn accept).rc
      (acceptLoopReady (origin.setConn id conn) id conn accept).daemon
      (acceptLoopReadyCalls (origin.setConn id conn) id conn accept) := by
  unfold acceptLoopReady at done ⊢
  unfold acceptLoopReadyCalls
  have kept : ∀ rc, (rc = .connectionClosed → old.wait = false) →
      origin.Tells id rc (origin.setConn id conn) [] := fun rc idle =>
    ⟨.quiet rfl (waiters_set_same present same), fun gone =>
      ⟨rfl, setConn_idle (same.2.2.trans (idle gone))⟩⟩
  by_cases protocol : msgCheckProtocol conn.msg true = true
  · rw [if_pos protocol] at done ⊢
    rw [if_pos protocol]
    have identified : (origin.setConn id conn).identify conn accept = origin.identify conn accept :=
      rfl
    rw [identified] at done ⊢
    cases identity : origin.identify conn accept with
    | passed =>
      simp only [identity] at done ⊢
      unfold acceptLoopDispatch at done ⊢
      by_cases discover : conn.msg.verb = .discover
      · simp only [discover, if_true, true_or]
        refine kept _ fun gone => ?_
        unfold acceptDiscoverReply at gone
        split_ifs at gone
      · by_cases mngmnt : conn.msg.verb = .mngmnt
        · rw [if_neg discover, if_pos mngmnt, if_pos (.inr mngmnt)]
          exact kept _ fun gone => absurd gone (daemonMngmnt_open conn.msg)
        · simp only [discover, mngmnt, if_false, or_self] at done ⊢
          exact acceptLoopTransfer_tells heard present same opened ready
            (fun waits => (still waits protocol).2) done
    | failed rc =>
      exact kept rc fun gone => absurd gone (identify_open identity)
    | refused rc =>
      have idle : old.wait = false := by
        by_contra waits
        exact (still (by simpa using waits) protocol).1 rc identity
      have closing := @setConn_idle origin id conn (same.2.2.trans idle)
      have waiting := (waiters_close closing accept.closed).trans (waiters_set_same present same)
      exact ⟨.quiet rfl waiting, fun _ => ⟨rfl, close_idle closing accept.closed⟩⟩
  · rw [if_neg protocol, if_neg protocol]
    exact kept .protocolError (by simp)

theorem acceptLoopData_tells {feed : Feed} (client : id ≠ 0)
    (present : origin.conns[id]? = some old) (opened : old.state ≠ .remove)
    (arrived : accept.arrival = .bytes feed)
    (still : old.wait = true → origin.leavesAlone decode old accept)
    (done : (acceptLoopData decode origin id old feed accept).rc ≠ .writeError) :
    origin.Tells id (acceptLoopData decode origin id old feed accept).rc
      (acceptLoopData decode origin id old feed accept).daemon
      (acceptLoopDataCalls decode origin id old feed accept) := by
  unfold acceptLoopData at done ⊢
  unfold acceptLoopDataCalls
  dsimp only at done ⊢
  by_cases parsed : (msgDeserialize decode feed old.msg).1 = .ok
  · have wellFormed : feed.wellFormed = true := by
      by_contra broken
      simp [msgDeserialize, broken] at parsed
    have heard : Heard decode origin id accept (old.fed decode feed) :=
      ⟨client, old, feed, present, arrived, wellFormed, rfl⟩
    have alone : old.wait = true → (old.fed decode feed).msg.state ≠ .invalid ∧
        ((old.fed decode feed).msg.state = .ready →
        msgCheckProtocol (old.fed decode feed).msg true = true →
          (∀ rc, origin.identify (old.fed decode feed) accept ≠ .refused rc) ∧
          ∀ name, (old.fed decode feed).requests name →
            ¬origin.takes (old.fed decode feed).msg name ∧ accept.send ≠ .connectionClosed) := by
      intro waits
      have left := still waits
      unfold Daemon.leavesAlone at left
      rw [arrived] at left
      exact left wellFormed
    simp only [parsed, if_true] at done ⊢
    cases state : (msgDeserialize decode feed old.msg).2.state with
    | ready =>
      simp only [state] at done ⊢
      exact @acceptLoopReady_tells decode origin id accept old
        (old.fed decode feed) heard present ⟨rfl, rfl, rfl⟩ opened state
        (fun waits => (alone waits).2 state) done
    | invalid =>
      have idle : old.wait = false := by
        by_contra waits
        exact (alone (by simpa using waits)).1 state
      have closing := @setConn_idle origin id (old.fed decode feed) idle
      have waiting := (waiters_close closing accept.closed).trans
        (waiters_set_idle present idle idle)
      exact ⟨.quiet rfl waiting, fun _ => ⟨rfl, close_idle closing accept.closed⟩⟩
    | initialized | parsing =>
      exact ⟨.quiet rfl (waiters_set_same present ⟨rfl, rfl, rfl⟩), by simp⟩
  · have spoilt : (msgDeserialize decode feed old.msg).1 = .markupParseError := by
      unfold msgDeserialize at parsed ⊢
      split_ifs at parsed ⊢
      · exact absurd rfl parsed
      · rfl
    rw [if_neg parsed, if_neg parsed]
    exact ⟨.quiet rfl (waiters_set_same present ⟨rfl, rfl, rfl⟩), by simp [spoilt]⟩

theorem acceptLoopNewConn_waiters (daemon : Daemon) (accept : Accept) :
    (acceptLoopNewConn daemon accept).daemon.lockers = daemon.lockers ∧
      waiters (acceptLoopNewConn daemon accept).daemon.conns = waiters daemon.conns := by
  have joins : ∀ conn : Conn, conn.wait = false →
      waiters (daemon.conns ++ [conn]) = waiters daemon.conns := by
    intro conn idle
    rw [waiters_append, waiters_cons_idle [] idle]
    exact List.append_nil _
  unfold acceptLoopNewConn
  split
  · exact ⟨rfl, rfl⟩
  · next connection accepted =>
    dsimp only
    split
    · exact ⟨rfl, joins _ rfl⟩
    · split_ifs
      · obtain ⟨sockfd, same⟩ := connTerminate_snd (connInit connection false true) accept.closed
        refine ⟨rfl, joins _ ?_⟩
        rw [same]
        rfl
      · exact ⟨rfl, rfl⟩

theorem acceptLoopPollin_tells (opened : ∀ conn ∈ origin.conns[id]?, conn.state ≠ .remove)
    (still : ∀ conn ∈ origin.conns[id]?, conn.wait = true → origin.leavesAlone decode conn accept)
    (done : (acceptLoopPollin decode origin id accept).rc ≠ .writeError) :
    origin.Tells id (acceptLoopPollin decode origin id accept).rc
      (acceptLoopPollin decode origin id accept).daemon
        (acceptLoopPollinCalls decode origin id accept) := by
  have listens := acceptLoopPollin_listening decode origin accept
  unfold acceptLoopPollin at done listens ⊢
  unfold acceptLoopPollinCalls
  cases present : origin.conns[id]? with
  | none => exact ⟨.quiet rfl (List.Perm.refl _), by simp⟩
  | some conn =>
    simp only [present] at done ⊢
    by_cases listening : id = 0
    · subst listening
      obtain ⟨lockers, waiting⟩ := acceptLoopNewConn_waiters origin accept
      simp only [present, if_true] at listens ⊢
      exact ⟨.quiet (by rw [lockers]) (by rw [waiting]), fun gone => absurd gone listens⟩
    · rw [if_neg listening] at done ⊢
      rw [if_neg listening]
      have alone := still conn present
      have left : (∀ feed, accept.arrival ≠ .bytes feed) → accept.arrival ≠ .stalled →
          conn.wait = false := by
        intro silent ends
        by_contra waits
        have kept := alone (by simpa using waits)
        unfold Daemon.leavesAlone at kept
        cases arrived : accept.arrival with
        | failed rc | empty => simp [arrived] at kept
        | stalled => exact ends arrived
        | bytes feed => exact silent feed arrived
      cases arrived : accept.arrival with
      | failed rc | empty =>
        refine ⟨.quiet rfl (List.Perm.refl _), fun _ => ⟨rfl, ?_⟩⟩
        intro other here
        obtain rfl := Option.some.inj (present.symm.trans here)
        exact left (by simp [arrived]) (by simp [arrived])
      | stalled => exact ⟨.quiet rfl (List.Perm.refl _), by simp⟩
      | bytes feed =>
        simp only [arrived] at done ⊢
        exact acceptLoopData_tells listening present (opened conn present) arrived alone done

theorem acceptLoopServe_notes {revents : Revents}
    (opened : ∀ conn ∈ origin.conns[id]?, conn.state ≠ .remove)
    (still : Undisturbed decode origin id revents)
    (goes : (acceptLoopServe decode origin id revents).flow ≠ .leave) :
    origin.Notes (acceptLoopServe decode origin id revents).daemon
      (acceptLoopServeCalls decode origin id revents) := by
  have polled := @acceptLoopPollin_tells decode origin id revents.accept opened
  unfold acceptLoopServeCalls
  obtain ⟨hup, same⟩ | ⟨hup, ⟨pollin, same⟩ | ⟨pollin, read⟩⟩ :=
    acceptLoopServe_cases decode origin id revents
  · rw [if_pos hup, same]
    have idle : ∀ conn ∈ origin.conns[id]?, conn.wait = false := by
      intro conn present
      by_contra waits
      have quiet := (still conn present (by simpa using waits)).1
      rw [hup.1] at quiet
      cases quiet
    exact .quiet rfl (waiters_close idle revents.accept.closed)
  · rw [if_neg hup, pollin, same]
    exact .quiet rfl (List.Perm.refl _)
  · rw [if_neg hup, if_pos pollin]
    replace polled := polled fun conn present waits => (still conn present waits).2 pollin
    obtain ⟨gone, same⟩ | ⟨done, same, _⟩ | ⟨_, _, leaves⟩ := read
    · obtain ⟨notes, closes⟩ := polled (by simp [gone])
      obtain ⟨silent, idle⟩ := closes gone
      rw [silent] at notes ⊢
      rw [same]
      cases notes with
      | quiet faces waiting =>
        exact .quiet faces ((waiters_close idle revents.accept.closed).trans waiting)
    · rw [same]
      exact (polled (by simp [done])).notes
    · exact absurd leaves goes

end

end Flom
