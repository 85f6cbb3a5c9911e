import Flom.Daemon
import Mathlib.Data.List.Perm.Basic

set_option autoImplicit false

namespace Flom

def Conn.listens (conn : Conn) : Bool := conn.datagram && decide (conn.state ≠ .remove)

def listening (conns : List Conn) : List ConnId :=
  ((conns.take 1).filter (fun conn => decide (conn.state ≠ .remove)) ++
    (conns.drop 1).filter Conn.listens).map Conn.id

/-- Whatever is to be released soon can be: the loop deletes the closed connections before it
polls again, and a locker releases the message it was handed over with. -/
structure Daemon.Intact (daemon : Daemon) : Prop where
  closed : ∀ conn ∈ daemon.conns, conn.state = .remove → conn.msg.releasable = true
  handed : ∀ conn ∈ daemon.transfers, conn.msg.releasable = true

theorem Daemon.Intact.same {daemon after : Daemon} (intact : daemon.Intact)
    (conns : after.conns = daemon.conns) (transfers : after.transfers = daemon.transfers) :
    after.Intact :=
  ⟨conns ▸ intact.closed, transfers ▸ intact.handed⟩

def Conn.Spare (conn : Conn) : Prop := conn.listens = false ∧ conn.msg.releasable = true

def Daemon.others (daemon : Daemon) (id : Nat) : List Conn := (daemon.conns.eraseIdx id).drop 1

theorem listening_cons (head : Conn) (rest : List Conn) :
    listening (head :: rest) =
      ([head].filter (fun conn => decide (conn.state ≠ .remove))).map Conn.id ++
        (rest.filter Conn.listens).map Conn.id := by
  simp [listening]

theorem listening_mute (head : Conn) {conn : Conn} (rest : List Conn)
    (mute : conn.listens = false) :
    listening (head :: conn :: rest) = listening (head :: rest) := by
  simp [listening, mute]

theorem listening_perm (head : Conn) {rest rest' : List Conn} (same : rest.Perm rest') :
    (listening (head :: rest)).Perm (listening (head :: rest')) := by
  rw [listening_cons, listening_cons]
  exact ((same.filter _).map _).append_left _

theorem listening_length (head : Conn) (rest : List Conn) :
    (listening (head :: rest)).length =
      ([head].filter (fun conn => decide (conn.state ≠ .remove))).length +
        rest.countP Conn.listens := by
  rw [listening_cons, List.length_append, List.length_map, List.length_map,
    List.countP_eq_length_filter]

theorem listening_lost_iff (head conn : Conn) (rest : List Conn) (gone : Conn → Bool) :
    (listening (head :: rest.filter fun other => !gone other)).Perm
    (listening (head :: conn :: rest)) ↔
      conn.listens = false ∧ ∀ other ∈ rest, other.listens = true → gone other = false := by
  have parts := List.countP_eq_countP_filter_add rest Conn.listens gone
  constructor
  · intro kept
    have count := kept.length_eq
    rw [listening_length, listening_length, List.countP_cons] at count
    have quiet : (rest.filter gone).countP Conn.listens = 0 := by omega
    constructor
    · by_contra listens
      rw [Bool.not_eq_false] at listens
      rw [if_pos listens] at count
      omega
    · intro other member listens
      by_contra leaves
      rw [Bool.not_eq_false] at leaves
      exact List.countP_eq_zero.mp quiet other (List.mem_filter.mpr ⟨member, leaves⟩) listens
  · rintro ⟨mute, kept⟩
    have same :
        (rest.filter fun other => !gone other).filter Conn.listens = rest.filter Conn.listens := by
      rw [List.filter_filter]
      refine List.filter_congr fun other member => ?_
      by_cases listens : other.listens = true
      · simp [listens, kept other member listens]
      · simp [listens]
    rw [listening_mute head rest mute, listening_cons, listening_cons, same]

theorem listening_left_iff (head conn : Conn) (rest : List Conn) :
    (listening (head :: rest)).Perm (listening (head :: conn :: rest)) ↔ conn.listens = false := by
  have law := listening_lost_iff head conn rest fun _ => false
  simpa using law

theorem listening_middle (head conn : Conn) (front behind : List Conn) :
    (listening (head :: (front ++ conn :: behind))).Perm
      (listening (head :: conn :: (front ++ behind))) :=
  listening_perm head List.perm_middle

theorem listening_same {conn conn' : Conn} (head : Conn) (front behind : List Conn)
    (same : conn'.listens = conn.listens) (id : conn'.id = conn.id) :
    listening (head :: (front ++ conn' :: behind)) =
      listening (head :: (front ++ conn :: behind)) := by
  rw [listening_cons, listening_cons]
  by_cases listens : conn.listens = true
  · simp [listens, same, id]
  · simp [listens, same]

theorem listening_closed_iff (head conn : Conn) (front behind : List Conn) :
    (listening (head :: (front ++ conn.terminated :: behind))).Perm
        (listening (head :: (front ++ conn :: behind))) ↔ conn.listens = false := by
  have closed : (listening (head :: (front ++ conn.terminated :: behind))).Perm
      (listening (head :: (front ++ behind))) := by
    refine (listening_middle head _ front behind).trans ?_
    rw [listening_mute head _ (by simp [Conn.listens, Conn.terminated, connTerminate_state])]
  rw [← listening_left_iff head conn (front ++ behind)]
  constructor
  · intro kept
    exact closed.symm.trans (kept.trans (listening_middle head conn front behind))
  · intro kept
    exact closed.trans (kept.trans (listening_middle head conn front behind).symm)

theorem daemonClose_eq {daemon : Daemon} {id : Nat} {conn : Conn}
    (present : daemon.conns[id]? = some conn) :
    daemonClose daemon id true = (.ok, daemon.setConn id conn.terminated) := by
  simp only [daemonClose, connsCloseFd, present, connTerminate_true, Daemon.setConn]

structure Placed (daemon : Daemon) (head : Conn) (front : List Conn) (conn : Conn)
    (behind : List Conn) : Prop where
  conns : daemon.conns = head :: (front ++ conn :: behind)

section

variable {daemon : Daemon} {head conn : Conn} {front behind : List Conn}

theorem placed_of_present {id : Nat} (client : id ≠ 0) (present : daemon.conns[id]? = some conn) :
    ∃ head front behind, Placed daemon head front conn behind ∧ id = front.length + 1 := by
  obtain ⟨bound, found⟩ := List.getElem?_eq_some_iff.mp present
  obtain ⟨position, rfl⟩ := Nat.exists_eq_add_one_of_ne_zero client
  match conns : daemon.conns with
  | [] => simp [conns] at bound
  | head :: rest =>
    simp only [conns, List.length_cons, Nat.add_lt_add_iff_right, List.getElem_cons_succ]
      at bound found
    refine ⟨head, rest.take position, rest.drop (position + 1), ⟨?_⟩, ?_⟩
    · rw [conns, ← found, ← List.drop_eq_getElem_cons bound, List.take_append_drop]
    · rw [List.length_take, Nat.min_eq_left (Nat.le_of_lt bound)]

theorem Placed.present (placed : Placed daemon head front conn behind) :
    daemon.conns[front.length + 1]? = some conn := by
  simp [placed.conns]

theorem Placed.set (placed : Placed daemon head front conn behind) (conn' : Conn) :
    Placed (daemon.setConn (front.length + 1) conn') head front conn' behind := by
  constructor
  simp [Daemon.setConn, placed.conns]

theorem Placed.others (placed : Placed daemon head front conn behind) :
    daemon.others (front.length + 1) = front ++ behind := by
  simp [Daemon.others, placed.conns, List.eraseIdx_append_of_length_le]

theorem Placed.updated {conn' : Conn} (placed : Placed daemon head front conn behind)
    (listens : conn'.listens = conn.listens) (id : conn'.id = conn.id) :
    listening (daemon.setConn (front.length + 1) conn').conns = listening daemon.conns := by
  rw [placed.conns, (placed.set conn').conns]
  exact listening_same head front behind listens id

theorem Placed.closed_iff (placed : Placed daemon head front conn behind) :
    (listening (daemonClose daemon (front.length + 1) true).2.conns).Perm (listening daemon.conns) ↔
      conn.listens = false := by
  rw [daemonClose_eq placed.present, (placed.set _).conns, placed.conns]
  exact listening_closed_iff head conn front behind

theorem Placed.intact_iff {conn' : Conn} (placed : Placed daemon head front conn behind)
    (intact : daemon.Intact) :
    (daemon.setConn (front.length + 1) conn').Intact ↔
      (conn'.state = .remove → conn'.msg.releasable = true) := by
  have conns := (placed.set conn').conns
  constructor
  · intro after
    exact after.closed conn' (by simp [conns])
  · intro spare
    refine ⟨fun other member gone => ?_, intact.handed⟩
    rw [conns, List.mem_cons, List.mem_append, List.mem_cons] at member
    have kept := intact.closed other
    rw [placed.conns, List.mem_cons, List.mem_append, List.mem_cons] at kept
    obtain here | before | rfl | after := member
    · exact kept (.inl here) gone
    · exact kept (.inr (.inl before)) gone
    · exact spare gone
    · exact kept (.inr (.inr (.inr after))) gone

theorem Placed.closed_spare (placed : Placed daemon head front conn behind)
    (intact : daemon.Intact) :
    (listening (daemonClose daemon (front.length + 1) true).2.conns).Perm (listening daemon.conns) ∧
      (daemonClose daemon (front.length + 1) true).2.Intact ↔ conn.Spare := by
  have msg : conn.terminated.msg = conn.msg := by
    obtain ⟨_, same⟩ := connTerminate_snd conn true
    rw [Conn.terminated, same]
  rw [placed.closed_iff, daemonClose_eq placed.present, placed.intact_iff intact, msg]
  exact and_congr_right fun _ => forall_prop_of_true (connTerminate_state conn true)

theorem Placed.bound (placed : Placed daemon head front conn behind) :
    front.length + 1 < daemon.conns.length :=
  (List.getElem?_eq_some_iff.mp placed.present).1

def Written (writes : List Bool) (connections : Nat) : Prop :=
  ∀ write ∈ writes.take (2 * connections), write = true

theorem written_one_iff (writes : List Bool) :
    Written writes 1 ↔ writes.headD true = true ∧ writes.tail.headD true = true := by
  unfold Written
  match writes with
  | [] => simp
  | [first] => simp
  | first :: second :: _ => simp

theorem written_add_iff (writes : List Bool) (count : Nat) :
    Written writes (1 + count) ↔ Written writes 1 ∧ Written writes.tail.tail count := by
  have later : writes.tail.tail = writes.drop (2 * 1) := by
    rw [← List.drop_one, ← List.drop_one, List.drop_drop]
  unfold Written
  rw [Nat.mul_add, List.take_add, List.forall_mem_append, later]

theorem acceptLoopTransferConn_ok {id : Nat} {writes : List Bool} (locker : Nat) (conn : Conn)
    (bound : id < daemon.conns.length) (written : Written writes 1) :
    let transferred := acceptLoopTransferConn daemon id locker conn writes
    transferred.rc = .ok ∧ transferred.daemon.conns = removeIndexFast daemon.conns id ∧
      transferred.daemon.transfers = daemon.transfers ++ [conn] ∧
      transferred.writes = writes.tail.tail := by
  obtain ⟨first, second⟩ := (written_one_iff writes).mp written
  simp only [acceptLoopTransferConn, connsTrnsFd, bound, first, second, if_true, and_self]

theorem acceptLoopTransferConn_failed {id : Nat} {writes : List Bool} (locker : Nat) (conn : Conn)
    (bound : id < daemon.conns.length) (failed : ¬Written writes 1) :
    (acceptLoopTransferConn daemon id locker conn writes).rc = .writeError := by
  rw [written_one_iff] at failed
  by_cases first : writes.headD true = true
  · have second : ¬writes.tail.headD true = true := fun second => failed ⟨first, second⟩
    simp only [acceptLoopTransferConn, connsTrnsFd, bound, first, second, if_true, if_false,
      Bool.false_eq_true]
  · simp only [acceptLoopTransferConn, first, if_false, Bool.false_eq_true]

theorem acceptLoopIncubator_cases (locker : Nat) (resource : Resource) (fuel : Nat)
    (daemon : Daemon) (writes : List Bool) (front rest : List Conn)
    (conns : daemon.conns = front ++ rest) (enough : rest.length ≤ fuel) :
    let result := acceptLoopIncubator locker resource fuel front.length daemon writes
    let waiting := rest.countP (·.waitsFor resource)
    (Written writes waiting → result.1 = .ok ∧ ∃ left taken, result.2.conns = front ++ left ∧
      left.Perm (rest.filter fun other => !other.waitsFor resource) ∧
      result.2.transfers = daemon.transfers ++ taken ∧
        taken.Perm (rest.filter (·.waitsFor resource))) ∧
    (¬Written writes waiting → result.1 = .writeError) := by
  induction fuel generalizing daemon writes front rest with
  | zero =>
    obtain rfl : rest = [] := List.length_eq_zero_iff.mp (Nat.le_zero.mp enough)
    simp [acceptLoopIncubator, conns, Written]
  | succ fuel ih =>
    match rest with
    | [] => simp [acceptLoopIncubator, conns, Written]
    | conn :: later =>
      have present : daemon.conns[front.length]? = some conn := by simp [conns]
      have bound := (List.getElem?_eq_some_iff.mp present).1
      have short : later.length ≤ fuel := by simpa using enough
      simp only [acceptLoopIncubator, present]
      by_cases waits : conn.waitsFor resource = true
      · obtain ⟨remaining, moved, same⟩ := removeIndexFast_split front later conn
        simp only [waits, if_true, List.countP_cons_of_pos, Nat.add_comm _ 1, written_add_iff]
        by_cases written : Written writes 1
        · obtain ⟨done, gone, handed, unused⟩ := acceptLoopTransferConn_ok locker conn bound written
          rw [conns, moved] at gone
          have scanned := ih _ writes.tail.tail front remaining gone (same.length_eq.trans_le short)
          rw [List.countP_eq_length_filter, (same.filter _).length_eq,
            ← List.countP_eq_length_filter] at scanned
          simp only [done, if_true, unused, written, true_and]
          refine ⟨fun more => ?_, scanned.2⟩
          obtain ⟨ok, left, taken, final, kept, passed, waited⟩ := scanned.1 more
          refine ⟨ok, left, conn :: taken, final, kept.trans ?_, ?_, ?_⟩
          · rw [List.filter_cons_of_neg (by simp [waits])]
            exact same.filter _
          · rw [passed, handed, List.append_assoc]
            rfl
          · rw [List.filter_cons_of_pos (by simp [waits])]
            exact (waited.trans (same.filter _)).cons conn
        · simp [acceptLoopTransferConn_failed locker conn bound written, written]
      · have scanned := ih daemon writes (front ++ [conn]) later (by simp [conns]) short
        rw [List.length_append, List.length_singleton] at scanned
        rw [if_neg waits, List.countP_cons, if_neg waits, Nat.add_zero]
        refine ⟨fun written => ?_, scanned.2⟩
        obtain ⟨ok, left, taken, final, kept, passed, waited⟩ := scanned.1 written
        refine ⟨ok, conn :: left, taken, by simp [final], ?_, passed, ?_⟩
        · rw [List.filter_cons_of_pos (by simp [waits])]
          exact kept.cons conn
        · rw [List.filter_cons_of_neg (by simp [waits])]
          exact waited

theorem Placed.left (placed : Placed daemon head front conn behind) :
    ∃ rest, removeIndexFast daemon.conns (front.length + 1) = head :: rest ∧
      rest.Perm (front ++ behind) := by
  obtain ⟨rest, moved, same⟩ := removeIndexFast_split (head :: front) behind conn
  rw [List.length_cons, List.cons_append, ← placed.conns] at moved
  exact ⟨front ++ rest, moved, same.append_left front⟩

end

theorem identify_failed {daemon : Daemon} {conn : Conn} {accept : Accept} {rc : Rc}
    (failed : daemon.identify conn accept = .failed rc) :
    rc = .noTlsConnection ∨ rc = .nullObject ∨ rc = .crash := by
  unfold Daemon.identify at failed
  split_ifs at failed
  · exact .inr (.inr (PeerCheck.failed.inj failed).symm)
  unfold checkPeer at failed
  cases present : conn.tls with
  | none =>
    simp only [present, PeerCheck.failed.injEq] at failed
    exact .inl failed.symm
  | some tls =>
    simp only [present] at failed
    split_ifs at failed
    exact .inr (.inl (PeerCheck.failed.inj failed).symm)

theorem others_setConn {daemon : Daemon} {id : Nat} {old : Conn} (client : id ≠ 0)
    (present : daemon.conns[id]? = some old) (conn : Conn) :
    (daemon.setConn id conn).others id = daemon.others id := by
  obtain ⟨head, front, behind, placed, rfl⟩ := placed_of_present client present
  rw [placed.others, (placed.set conn).others]

theorem removeIndexFast_others {daemon : Daemon} {id : Nat} {conn : Conn} (client : id ≠ 0)
    (present : daemon.conns[id]? = some conn) : (removeIndexFast daemon.conns id).tail.Perm
    (daemon.others id) := by
  obtain ⟨head, front, behind, placed, rfl⟩ := placed_of_present client present
  obtain ⟨rest, moved, same⟩ := placed.left
  rw [moved, placed.others]
  exact same

theorem others_sublist (daemon : Daemon) {id : Nat} (client : id ≠ 0) :
    (daemon.others id).Sublist daemon.conns.tail := by
  obtain ⟨place, rfl⟩ := Nat.exists_eq_add_one_of_ne_zero client
  unfold Daemon.others
  cases daemon.conns with
  | nil => exact .slnil
  | cons head rest => exact List.eraseIdx_sublist rest place

def LockerSlot.face (slot : LockerSlot) : Locker × Bool × Bool :=
  (slot.thread, slot.writePipe, slot.readPipe)

theorem acceptLoopTransferConn_faces (daemon : Daemon) (position locker : Nat) (conn : Conn)
    (writes : List Bool) :
    (acceptLoopTransferConn daemon position locker conn writes).daemon.lockers.map LockerSlot.face =
      daemon.lockers.map LockerSlot.face := by
  have modified : ∀ (lockers : List LockerSlot) (change : LockerSlot → LockerSlot),
      (∀ slot, (change slot).face = slot.face) →
      (lockers.modify locker change).map LockerSlot.face = lockers.map LockerSlot.face := by
    intro lockers change same
    apply List.ext_getElem?
    intro other
    rw [List.getElem?_map, List.getElem?_map, List.getElem?_modify]
    cases lockers[other]? with
    | none => rfl
    | some slot => by_cases here : locker = other <;> simp [here, same]
  unfold acceptLoopTransferConn
  dsimp only
  split_ifs
  · refine (modified _ _ ?_).trans (modified _ _ ?_) <;> exact fun _ => rfl
  all_goals
    refine modified _ _ ?_
    exact fun _ => rfl

end Flom
