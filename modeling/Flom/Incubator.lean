import Flom.DaemonLockers

set_option autoImplicit false

namespace Flom

open Lists

def Conn.transferred (conn : Conn) : Conn := { conn with state := .locker }

def LockerSlot.pushed (slot : LockerSlot) (conn : Conn) : LockerSlot :=
  { slot with
    writeSequence := slot.writeSequence + 1
    pipe := slot.pipe ++ [⟨slot.writeSequence + 1, conn.transferred⟩] }

theorem acceptLoopTransferConn_eq {daemon : Daemon} {position locker : Nat} {conn : Conn}
    {slot : LockerSlot} {writes : List Bool} (bound : position < daemon.conns.length)
    (slotted : daemon.lockers[locker]? = some slot)
    (done : (acceptLoopTransferConn daemon position locker conn writes).rc = .ok) :
    (acceptLoopTransferConn daemon position locker conn writes).daemon =
      { daemon with
        conns := removeIndexFast daemon.conns position
        lockers := daemon.lockers.set locker (slot.pushed conn)
        transfers := daemon.transfers ++ [conn] } := by
  obtain ⟨failed, _⟩ | ⟨_, same⟩ := @acceptLoopTransferConn_cases position daemon position locker
    conn writes bound
  · rw [failed] at done
    cases done
  · rw [same, Daemon.act, Daemon.push, Daemon.remove, Daemon.spend, modify_present _ slotted]
    obtain ⟨inside, _⟩ := List.getElem?_eq_some_iff.mp slotted
    dsimp only
    rw [modify_present _ (List.getElem?_set_self inside), List.set_set]
    rfl

theorem acceptLoopIncubator_swept (locker : Nat) (resource : Resource) (fuel : Nat)
    (daemon : Daemon) (writes : List Bool) (front rest : List Conn) (slot : LockerSlot)
    (conns : daemon.conns = front ++ rest) (enough : rest.length ≤ fuel)
    (slotted : daemon.lockers[locker]? = some slot)
    (done : (acceptLoopIncubator locker resource fuel front.length daemon writes).1 = .ok) :
    ∃ left handed slot', (acceptLoopIncubator locker resource fuel front.length daemon writes).2 =
        { daemon with
          conns := front ++ left
          lockers := daemon.lockers.set locker slot'
          transfers := daemon.transfers ++ handed } ∧
      left.Perm (rest.filter fun conn => !conn.waitsFor resource) ∧
      handed.Perm (rest.filter fun conn => conn.waitsFor resource) ∧ slot'.face = slot.face ∧
      slot'.pipe.map Token.conn = slot.pipe.map Token.conn ++ handed.map Conn.transferred := by
  have unmoved : ∀ (daemon : Daemon) (slot : LockerSlot), daemon.lockers[locker]? = some slot →
      daemon.lockers.set locker slot = daemon.lockers := by
    intro daemon slot slotted
    obtain ⟨inside, rfl⟩ := List.getElem?_eq_some_iff.mp slotted
    exact List.set_getElem_self inside
  induction fuel generalizing daemon writes front rest slot with
  | zero =>
    obtain rfl : rest = [] := List.length_eq_zero_iff.mp (Nat.le_zero.mp enough)
    refine ⟨[], [], slot, ?_, .nil, .nil, rfl, by simp⟩
    simp [acceptLoopIncubator, ← conns, unmoved daemon slot slotted]
  | succ fuel ih =>
    cases rest with
    | nil =>
      have absent : daemon.conns[front.length]? = none := by simp [conns]
      refine ⟨[], [], slot, ?_, .nil, .nil, rfl, by simp⟩
      simp [acceptLoopIncubator, absent, ← conns, unmoved daemon slot slotted]
    | cons conn later =>
      have present : daemon.conns[front.length]? = some conn := by simp [conns]
      have bound := (List.getElem?_eq_some_iff.mp present).1
      have short : later.length ≤ fuel := by simpa using enough
      simp only [acceptLoopIncubator, present] at done ⊢
      by_cases waits : conn.waitsFor resource = true
      · obtain ⟨remaining, removed, same⟩ := removeIndexFast_split front later conn
        simp only [waits, if_true] at done ⊢
        by_cases written : (acceptLoopTransferConn daemon front.length locker conn writes).rc = .ok
        · simp only [written, if_true] at done ⊢
          have moved := acceptLoopTransferConn_eq bound slotted written
          rw [moved] at done ⊢
          obtain ⟨inside, _⟩ := List.getElem?_eq_some_iff.mp slotted
          obtain ⟨left, handed, slot', swept, stays, goes, face, piped⟩ :=
            ih _ _ front remaining (slot.pushed conn) (by rw [conns, removed])
            (same.length_eq.trans_le short) (List.getElem?_set_self inside) done
          refine ⟨left, conn :: handed, slot', ?_, ?_, ?_, face, ?_⟩
          · rw [swept]
            simp
          · rw [List.filter_cons_of_neg (by simp [waits])]
            exact stays.trans (same.filter _)
          · rw [List.filter_cons_of_pos (by simp [waits])]
            exact (goes.trans (same.filter _)).cons conn
          · rw [piped]
            simp [LockerSlot.pushed]
        · simp only [written, if_false] at done
      · simp only [waits, if_false, Bool.false_eq_true] at done ⊢
        have moved : front.length + 1 = (front ++ [conn]).length := by simp
        rw [moved] at done ⊢
        obtain ⟨left, handed, slot', swept, stays, goes, face, piped⟩ :=
          ih daemon writes (front ++ [conn]) later slot (by simp [conns]) short slotted done
        refine ⟨conn :: left, handed, slot', by rw [swept]; simp, ?_, ?_, face, piped⟩
        · rw [List.filter_cons_of_pos (by simp [waits])]
          exact stays.cons conn
        · rwa [List.filter_cons_of_neg (by simp [waits])]

theorem acceptLoopIncubator_ok {locker : Nat} {resource : Resource} {fuel : Nat} {daemon : Daemon}
    {writes : List Bool} {front rest : List Conn} (conns : daemon.conns = front ++ rest)
    (enough : rest.length ≤ fuel)
    (done : (acceptLoopIncubator locker resource fuel front.length daemon writes).1 ≠ .writeError) :
    (acceptLoopIncubator locker resource fuel front.length daemon writes).1 = .ok := by
  obtain ⟨written, failed⟩ := acceptLoopIncubator_cases locker resource fuel daemon writes front
    rest conns enough
  by_cases every : Written writes (rest.countP (·.waitsFor resource))
  · exact (written every).1
  · exact absurd (failed every) done

def Hatched (before : Daemon) (id : Nat) (control : ConnId) (resource : Resource) (conn : Conn)
    (after : Daemon) :
    Prop :=
  ∃ left handed slot, after =
      { before with
        conns := before.conns.take 1 ++ left
        lockers := before.lockers ++ [slot]
        transfers := before.transfers ++ conn :: handed } ∧
    left.Perm ((before.others id).filter fun other => !other.waitsFor resource) ∧
    handed.Perm ((before.others id).filter fun other => other.waitsFor resource) ∧
    slot.face = (lockerStart control resource, true, true) ∧
    slot.pipe.map Token.conn = (conn :: handed).map Conn.transferred

theorem acceptLoopNewLocker_hatched {daemon : Daemon} {id : Nat} {conn : Conn} {type : RsrcType}
    {name : Name} {accept : Accept} (client : id ≠ 0) (present : daemon.conns[id]? = some conn)
    (done : (acceptLoopNewLocker daemon id conn type name accept).1 ≠ .writeError) :
    (acceptLoopNewLocker daemon id conn type name accept).2 = daemon ∨
      ∃ resource, resourceInit type name = .ok resource ∧ accept.started = .ok ∧
        (acceptLoopNewLocker daemon id conn type name accept).1 = .ok ∧
        Hatched daemon id accept.control resource conn
            (acceptLoopNewLocker daemon id conn type name accept).2 := by
  unfold acceptLoopNewLocker at done ⊢
  obtain ⟨failed, same⟩ | ⟨resource, init, started, same⟩ :=
    acceptLoopStartLocker_cases daemon type name accept
  · left
    simp only [failed, same, if_false]
    split_ifs <;> first | rfl | exact same
  · right
    refine ⟨resource, init, started, ?_⟩
    simp only [same, reduceCtorEq, if_false, if_true] at done ⊢
    obtain ⟨head, front, behind, placed, rfl⟩ := placed_of_present client present
    have slotted : (daemon.started accept.control resource).lockers[daemon.lockers.length]? =
        some ⟨lockerStart accept.control resource, true, true, 0, 0, []⟩ := by
      simp [Daemon.started]
    have bound : front.length + 1 < (daemon.started accept.control resource).conns.length :=
      placed.bound
    have moved := @acceptLoopTransferConn_eq _ _ _ conn _ accept.writes bound slotted
    have cases := @acceptLoopTransferConn_cases 0 _ _ daemon.lockers.length conn accept.writes bound
    have length := congrArg List.length
      (acceptLoopTransferConn_faces (daemon.started accept.control resource)
      (front.length + 1) daemon.lockers.length conn accept.writes)
    generalize acceptLoopTransferConn (daemon.started accept.control resource) (front.length + 1)
      daemon.lockers.length conn accept.writes = transferred at moved cases length done ⊢
    by_cases written : transferred.rc = .ok
    · obtain ⟨rest, removed, kept⟩ := placed.left
      have begun := moved written
      simp only [Daemon.started, List.set_append_right _ _ le_rfl, Nat.sub_self, List.set_cons_zero,
        removed] at begun
      have fresh : transferred.daemon.lockers[daemon.lockers.length]? =
          some (LockerSlot.pushed ⟨lockerStart accept.control resource, true, true, 0, 0, []⟩
            conn) := by
        simp [begun]
      have conns : transferred.daemon.conns = [head] ++ rest := by rw [begun]; rfl
      have enough : rest.length ≤ transferred.daemon.conns.length := by simp [conns]
      simp only [fresh, written, if_true] at done ⊢
      obtain ⟨left, handed, slot, swept, stays, goes, face, piped⟩ :=
        acceptLoopIncubator_swept _ _ _ _ _ [head] rest _ conns enough fresh
        (acceptLoopIncubator_ok conns enough done)
      refine ⟨acceptLoopIncubator_ok conns enough done, left, handed, slot, ?_, ?_, ?_, face, piped⟩
      · rw [← List.length_singleton (a := head), swept, begun]
        simp [placed.conns]
      · rw [placed.others]
        exact stays.trans (kept.filter _)
      · rw [placed.others]
        exact goes.trans (kept.filter _)
    · obtain ⟨failed, _⟩ | ⟨ok, _⟩ := cases
      · have inside : daemon.lockers.length < transferred.daemon.lockers.length := by
          rw [List.length_map, List.length_map] at length
          simp [length, Daemon.started]
        simp only [List.getElem?_eq_getElem inside, written, if_false] at done
        exact absurd failed done
      · exact absurd ok written

theorem Hatched.of_setConn {daemon : Daemon} {id : Nat} {control : ConnId} {resource : Resource}
    {old conn : Conn} {after : Daemon} (client : id ≠ 0) (present : daemon.conns[id]? = some old)
    (hatched : Hatched (daemon.setConn id conn) id control resource conn after) :
    Hatched daemon id control resource conn after := by
  obtain ⟨left, handed, slot, rfl, stays, goes, face, piped⟩ := hatched
  rw [others_setConn client present] at stays goes
  refine ⟨left, handed, slot, ?_, stays, goes, face, piped⟩
  obtain ⟨head, front, behind, placed, rfl⟩ := placed_of_present client present
  simp [placed.conns, Daemon.setConn]

def Grows (decode : Name → Name) (origin : Daemon) (id : Nat) (accept : Accept) (rc : Rc)
    (after : Daemon) : Prop :=
  after.lockers.map LockerSlot.face = origin.lockers.map LockerSlot.face ∨
    rc = .ok ∧ ∃ conn name resource, Starts decode origin id accept conn name resource ∧
      Hatched origin id accept.control resource conn after

section

variable {decode : Name → Name} {origin : Daemon} {id : Nat} {accept : Accept}

theorem acceptLoopReply_lockers (daemon : Daemon) (id : Nat) (conn : Conn) (rc : Rc)
    (accept : Accept) :
    (acceptLoopReply daemon id conn rc accept).2.lockers = daemon.lockers := by
  unfold acceptLoopReply
  split_ifs <;> rfl

theorem acceptLoopTransfer_grows {old conn : Conn} (heard : Heard decode origin id accept conn)
    (identified : origin.identify conn accept = .passed)
    (present : origin.conns[id]? = some old) (ready : conn.msg.state = .ready)
    (done : (acceptLoopTransfer (origin.setConn id conn) id conn accept).1 ≠ .writeError) :
    Grows decode origin id accept (acceptLoopTransfer (origin.setConn id conn) id conn accept).1
      (acceptLoopTransfer (origin.setConn id conn) id conn accept).2 := by
  have stepped : conn.lastStep = conn.msg.step := by
    obtain ⟨_, _, _, _, _, _, rfl⟩ := heard
    rfl
  have standing : (origin.setConn id conn).conns[id]? = some conn :=
    List.getElem?_set_self (List.getElem?_eq_some_iff.mp present).1
  have replied : ∀ rc rc', Grows decode origin id accept rc'
      (acceptLoopReply (origin.setConn id conn) id conn rc accept).2 := by
    intro rc rc'
    left
    rw [acceptLoopReply_lockers]
    rfl
  unfold acceptLoopTransfer at done ⊢
  by_cases lock : conn.msg.verb = .lock ∧ conn.msg.step = msgStepIncr
  · simp only [lock, and_self, if_true] at done ⊢
    cases named : conn.msg.lock8.name with
    | none => exact .inl rfl
    | some name =>
      have requests : conn.requests name := ⟨ready, lock.1, lock.2, stepped.trans lock.2, named⟩
      simp only [named] at done ⊢
      split_ifs at done ⊢ with type
      · exact replied _ _
      · cases missing : (origin.setConn id conn).lockers.findIdx? (LockerSlot.manages name) with
        | some locker => exact .inl (acceptLoopTransferConn_faces _ _ _ _ _)
        | none =>
          simp only [missing] at done ⊢
          unfold acceptLoopMissing at done ⊢
          split_ifs at done ⊢ with create wait
          · exact replied _ _
          · dsimp only
            split_ifs
            · left
              simp only [Daemon.setConn, acceptLoopReply_lockers]
            · exact replied _ _
          · obtain same | ⟨resource, init, started, ok, hatched⟩ :=
              acceptLoopNewLocker_hatched heard.1 standing done
            · left
              rw [same]
              rfl
            · right
              exact ⟨ok, conn, name, resource,
                ⟨heard, identified, requests, type, missing, create, init, started⟩,
                hatched.of_setConn heard.1 present⟩
  · rw [if_neg lock]
    exact .inl rfl

theorem acceptLoopReady_grows {old conn : Conn} (heard : Heard decode origin id accept conn)
    (present : origin.conns[id]? = some old) (ready : conn.msg.state = .ready)
    (done : (acceptLoopReady (origin.setConn id conn) id conn accept).rc ≠ .writeError) :
    Grows decode origin id accept (acceptLoopReady (origin.setConn id conn) id conn accept).rc
      (acceptLoopReady (origin.setConn id conn) id conn accept).daemon := by
  unfold acceptLoopReady at done ⊢
  by_cases protocol : msgCheckProtocol conn.msg true = true
  · rw [if_pos protocol] at done ⊢
    cases identity : (origin.setConn id conn).identify conn accept with
    | passed =>
      simp only [identity] at done ⊢
      unfold acceptLoopDispatch at done ⊢
      by_cases discover : conn.msg.verb = .discover
      · rw [if_pos discover]
        exact .inl rfl
      · by_cases mngmnt : conn.msg.verb = .mngmnt
        · rw [if_neg discover, if_pos mngmnt]
          exact .inl rfl
        · rw [if_neg discover, if_neg mngmnt] at done ⊢
          exact acceptLoopTransfer_grows heard identity present ready done
    | failed rc => exact .inl rfl
    | refused rc => exact .inl rfl
  · rw [if_neg protocol]
    exact .inl rfl

theorem acceptLoopData_grows {conn : Conn} {feed : Feed} (client : id ≠ 0)
    (present : origin.conns[id]? = some conn) (arrived : accept.arrival = .bytes feed)
    (done : (acceptLoopData decode origin id conn feed accept).rc ≠ .writeError) :
    Grows decode origin id accept (acceptLoopData decode origin id conn feed accept).rc
      (acceptLoopData decode origin id conn feed accept).daemon := by
  unfold acceptLoopData at done ⊢
  dsimp only at done ⊢
  by_cases parsed : (msgDeserialize decode feed conn.msg).1 = .ok
  · have wellFormed : feed.wellFormed = true := by
      by_contra broken
      simp [msgDeserialize, broken] at parsed
    simp only [parsed, if_true] at done ⊢
    cases state : (msgDeserialize decode feed conn.msg).2.state with
    | ready =>
      simp only [state] at done ⊢
      exact @acceptLoopReady_grows decode origin id accept conn (conn.fed decode feed)
        ⟨client, conn, feed, present, arrived, wellFormed, rfl⟩ present state done
    | invalid => exact .inl rfl
    | initialized => exact .inl rfl
    | parsing => exact .inl rfl
  · rw [if_neg parsed]
    exact .inl rfl

theorem acceptLoopPollin_grows
    (done : (acceptLoopPollin decode origin id accept).rc ≠ .writeError) :
    Grows decode origin id accept (acceptLoopPollin decode origin id accept).rc
      (acceptLoopPollin decode origin id accept).daemon := by
  unfold acceptLoopPollin at done ⊢
  cases present : origin.conns[id]? with
  | none => exact .inl rfl
  | some conn =>
    simp only [present] at done ⊢
    split_ifs at done ⊢ with listening
    · left
      unfold acceptLoopNewConn
      split
      · rfl
      · dsimp only
        split
        · rfl
        · split_ifs <;> rfl
    · cases arrived : accept.arrival with
      | failed rc => exact .inl rfl
      | empty => exact .inl rfl
      | stalled => exact .inl rfl
      | bytes feed =>
        simp only [arrived] at done ⊢
        exact acceptLoopData_grows listening present arrived done

theorem acceptLoopServe_grows {revents : Revents}
    (goes : (acceptLoopServe decode origin id revents).flow ≠ .leave) :
    Grows decode origin id revents.accept .ok
      (acceptLoopServe decode origin id revents).daemon := by
  have polled := @acceptLoopPollin_grows decode origin id revents.accept
  obtain ⟨_, same⟩ | ⟨_, ⟨_, same⟩ | ⟨_, ⟨gone, same⟩ | ⟨done, same, _⟩ | ⟨_, _, leaves⟩⟩⟩ :=
    acceptLoopServe_cases decode origin id revents
  · rw [same]
    exact .inl rfl
  · rw [same]
    exact .inl rfl
  · rw [same]
    obtain same | ⟨ok, _⟩ := polled (by simp [gone])
    · exact .inl same
    · rw [ok] at gone
      cases gone
  · rw [same]
    exact done ▸ polled (by simp [done])
  · exact absurd leaves goes

end

def Conn.asksFor (conn : Conn) (slot : LockerSlot) : Bool :=
  conn.msg.lock8.name.any fun name => slot.manages name

structure Unserved (slots : List LockerSlot) (conns : List Conn) : Prop where
  first : ∃ head, conns[0]? = some head ∧ head.wait = false ∧ head.state ≠ .remove
  waiting : ∀ conn ∈ conns, conn.wait = true → conn.state ≠ .remove → ∀ slot ∈ slots,
    conn.asksFor slot = false

def Daemon.complete (daemon : Daemon) : Prop := Unserved daemon.lockers daemon.conns

section

variable {slots : List LockerSlot} {conns : List Conn}

theorem Unserved.set (unserved : Unserved slots conns) {id : Nat} {conn : Conn} (client : id ≠ 0)
    (waiting : conn.wait = true → conn.state ≠ .remove →
      ∀ slot ∈ slots, conn.asksFor slot = false) :
    Unserved slots (conns.set id conn) := by
  constructor
  · rw [List.getElem?_set_ne client]
    exact unserved.first
  · intro other member
    obtain old | rfl := List.mem_or_eq_of_mem_set member
    · exact unserved.waiting other old
    · exact waiting

theorem Unserved.close (unserved : Unserved slots conns) {id : Nat} (client : id ≠ 0)
    (closed : Bool) :
    Unserved slots (connsCloseFd conns id closed).2 := by
  unfold connsCloseFd
  split
  · next conn present =>
    refine unserved.set client fun _ stays => ?_
    exact absurd (connTerminate_state conn closed) stays
  · exact unserved

theorem Unserved.remove (unserved : Unserved slots conns) {position : Nat} {conn : Conn}
    (behind : position ≠ 0) (present : conns[position]? = some conn) :
    Unserved slots (removeIndexFast conns position) := by
  obtain ⟨bound, _⟩ := List.getElem?_eq_some_iff.mp present
  constructor
  · rw [removeIndexFast_getElem? bound (Nat.pos_of_ne_zero behind)]
    exact unserved.first
  · intro other member
    exact unserved.waiting other
      ((removeIndexFast_perm present).symm.subset (List.mem_cons_of_mem conn member))

theorem Unserved.clean (unserved : Unserved slots conns) : Unserved slots (connsClean conns) := by
  obtain ⟨head, first, idle, alive⟩ := unserved.first
  constructor
  · exact ⟨head, connsClean_head first alive, idle, alive⟩
  · exact fun conn member => unserved.waiting conn (mem_connsClean.mp member).1

theorem Unserved.of_manages (unserved : Unserved slots conns) {slots' : List LockerSlot}
    (manages : ∀ slot' ∈ slots', ∃ slot ∈ slots, ∀ name, slot'.manages name = true →
      slot.manages name = true) :
    Unserved slots' conns := by
  refine ⟨unserved.first, fun conn member wait stays slot' inside => ?_⟩
  obtain ⟨slot, old, same⟩ := manages slot' inside
  have refused := unserved.waiting conn member wait stays slot old
  unfold Conn.asksFor at refused ⊢
  cases named : conn.msg.lock8.name with
  | none => rfl
  | some name =>
    rw [named, Option.any_some] at refused
    rw [Option.any_some, Bool.eq_false_iff]
    exact fun accepted => absurd (same name accepted) (by simp [refused])

end

def Arrival.isBytes : Arrival → Bool
  | .bytes _ => true
  | _ => false

def Silent (daemon : Daemon) (id : Nat) (revents : Revents) : Prop :=
  revents.pollin = true → revents.accept.arrival.isBytes = true → ∀ conn ∈ daemon.conns[id]?,
    conn.wait = false

instance (daemon : Daemon) (id : Nat) (revents : Revents) : Decidable (Silent daemon id revents) :=
  inferInstanceAs (Decidable (_ → _ → ∀ _ ∈ _, _))

section

variable {decode : Name → Name} {daemon : Daemon} {id : Nat} {revents : Revents}

theorem acceptLoopServe_unread (unread : revents.pollin = false ∨ revents.hup = true ∧ id ≠ 0) :
    (acceptLoopServe decode daemon id revents).daemon = daemon ∨
      id ≠ 0 ∧ (acceptLoopServe decode daemon id revents).daemon =
        (daemonClose daemon id revents.accept.closed).2 := by
  obtain ⟨hup, same⟩ | ⟨hup, ⟨_, same⟩ | ⟨pollin, _⟩⟩ :=
    acceptLoopServe_cases decode daemon id revents
  · exact .inr ⟨hup.2, by rw [same]; rfl⟩
  · exact .inl same
  · rw [unread.resolve_right hup] at pollin
    cases pollin

theorem unmanaged_asks {slots : List LockerSlot} {conn : Conn} {name : Name}
    (free : slots.findIdx? (LockerSlot.manages name) = none)
    (named : conn.msg.lock8.name = some name) :
    ∀ slot ∈ slots, conn.asksFor slot = false := by
  intro slot member
  rw [List.findIdx?_eq_none_iff] at free
  simpa [Conn.asksFor, named] using free slot member

theorem unserved_serve (complete : daemon.complete) (silent : Silent daemon id revents) :
    Unserved daemon.lockers (acceptLoopServe decode daemon id revents).daemon.conns := by
  by_cases pollin : revents.pollin = true
  · have quiet : ∀ conn feed, daemon.conns[id]? = some conn → revents.accept.arrival = .bytes feed →
        conn.wait = false := fun conn feed present arrived =>
        silent pollin (by rw [arrived]; rfl) conn present
    refine @acceptLoopServe_invariant decode
      (fun reached => Unserved daemon.lockers reached.conns) daemon id revents
      complete fun reached act unserved legal => ?_
    cases legal with
    | close closed client => exact unserved.close client closed
    | join conn listening same accepted state sockfd tls polled fresh =>
      obtain ⟨head, first, idle⟩ := unserved.first
      refine ⟨⟨head, List.getElem?_append_left (List.getElem?_eq_some_iff.mp first).1 |>.trans
        first, idle⟩, ?_⟩
      intro other member wait
      obtain old | new := List.mem_append.mp member
      · exact unserved.waiting other old wait
      · rw [List.mem_singleton.mp new, fresh] at wait
        cases wait
    | parse conn same heard =>
      obtain ⟨client, old, feed, present, arrived, _, rfl⟩ := heard
      refine unserved.set client fun wait => ?_
      exact absurd wait (by simp [Conn.fed, quiet old feed present arrived])
    | garble conn old feed same client present arrived broken spoilt =>
      refine unserved.set client fun wait => ?_
      rw [spoilt] at wait
      exact absurd wait (by simp [quiet old feed present arrived])
    | answer conn rc name heard present requests lockers answers =>
      obtain ⟨client, old, feed, standing, arrived, _, rfl⟩ := heard
      refine unserved.set client fun wait _ => ?_
      have idle : (old.fed decode feed).wait = false := quiet old feed standing arrived
      cases answers with
      | unknown => simp [idle] at wait
      | hurried => simp [idle] at wait
      | incubated type free => exact unmanaged_asks free requests.2.2.2.2
    | start conn name resource starts => exact unserved
    | spend position locker conn => exact unserved
    | drop position locker conn moves => exact unserved.remove moves.present.1 moves.present.2
    | hand position locker conn moves => exact unserved.remove moves.present.1 moves.present.2
  · obtain same | ⟨client, same⟩ := @acceptLoopServe_unread decode daemon id revents
      (.inl (by simpa using pollin))
    · rw [same]
      exact complete
    · rw [same]
      exact Unserved.close complete client _

theorem complete_serve (complete : daemon.complete) (silent : Silent daemon id revents)
    (goes : (acceptLoopServe decode daemon id revents).flow ≠ .leave) :
    (acceptLoopServe decode daemon id revents).daemon.complete := by
  have unserved := @unserved_serve decode daemon id revents complete silent
  obtain same | ⟨_, conn, name, resource, starts, hatched⟩ := acceptLoopServe_grows goes
  · refine unserved.of_manages fun slot' member => ?_
    have face := List.mem_map_of_mem (f := LockerSlot.face) member
    rw [same] at face
    obtain ⟨slot, old, equal⟩ := List.mem_map.mp face
    simp only [LockerSlot.face, Prod.mk.injEq] at equal
    obtain ⟨thread, writing, reading⟩ := equal
    refine ⟨slot, old, fun name manages => ?_⟩
    simpa only [LockerSlot.manages, thread, writing, reading] using manages
  · obtain ⟨left, handed, slot, after, stays, _, face, _⟩ := hatched
    rw [after] at unserved ⊢
    refine ⟨unserved.first, fun other member wait remains slot' inside => ?_⟩
    obtain old | new := List.mem_append.mp inside
    · exact unserved.waiting other member wait remains slot' old
    · obtain rfl := List.mem_singleton.mp new
      simp only [LockerSlot.face, Prod.mk.injEq] at face
      obtain first | swept := List.mem_append.mp member
      · obtain ⟨head, here, idle, _⟩ := complete.first
        rw [List.take_one, List.head?_eq_getElem?, here] at first
        obtain rfl := List.mem_singleton.mp first
        rw [idle] at wait
        cases wait
      · have refused := (List.mem_filter.mp (stays.subset swept)).2
        rw [Conn.waitsFor, wait, Bool.true_and, Bool.not_eq_true'] at refused
        simpa [Conn.asksFor, LockerSlot.manages, face, lockerStart] using refused

end

-- What holds while the loop of the daemon goes on: a step that ends it need not keep the
-- invariant.
section

variable {decode : Name → Name} {inv : Daemon → Prop} {allowed : Daemon → Nat → Revents → Prop}
  (serve : ∀ daemon id revents, inv daemon → allowed daemon id revents →
    (acceptLoopServe decode daemon id revents).flow ≠ .leave →
    inv (acceptLoopServe decode daemon id revents).daemon)

include serve

theorem acceptLoopScan_running (daemon : Daemon) (id : Nat) (revents : List Revents)
    (holds : inv daemon) (along : Run.ScanAlong (acceptLoopNext decode) allowed daemon id revents)
    (runs : (acceptLoopScan decode daemon id revents).running = true) :
    inv (acceptLoopScan decode daemon id revents) := by
  induction revents generalizing daemon id with
  | nil => exact holds
  | cons first rest ih =>
    have served := serve daemon id first holds along.1
    have later := along.2
    unfold acceptLoopNext at later
    rw [acceptLoopScan] at runs ⊢
    generalize acceptLoopServe decode daemon id first = reached at served later runs ⊢
    obtain ⟨flow, after⟩ := reached
    cases flow with
    | next => exact ih after (id + 1) (served (by simp)) (later after rfl) runs
    | again => exact served (by simp)
    | leave => cases runs

theorem daemonStep_running {quiet : LockerSlot → PollEvent → Prop}
    (clean : ∀ daemon, inv daemon → inv daemon.cleaned)
    (check : ∀ daemon closed, inv daemon → inv (daemonChklockers daemon closed))
    (turn : ∀ daemon locker slot event, inv daemon → daemon.lockers[locker]? = some slot →
      quiet slot event → inv (daemonLocker daemon locker event))
    (daemon : Daemon) (event : Turn) (holds : daemon.running = true → inv daemon)
    (along : event.Along decode allowed quiet daemon)
    (runs : (daemonStep decode daemon event).running = true) :
    inv (daemonStep decode daemon event) := by
  have running := running_of_step runs
  replace holds := holds running
  have cleaned := clean daemon holds
  have polls : ∀ polled : Daemon → Daemon,
      ((polled daemon.cleaned).running = true → inv (polled daemon.cleaned)) →
      (daemon.polls polled).running = true → inv (daemon.polls polled) := by
    intro polled served runs
    unfold Daemon.polls at runs ⊢
    by_cases ok : connsSetEvents daemon.cleaned.conns = .ok
    · rw [if_pos ok] at runs ⊢
      exact served runs
    · rw [if_neg ok] at runs
      cases runs
  unfold daemonStep at runs ⊢
  rw [if_pos running] at runs ⊢
  cases event with
  | poll revents closed =>
    refine polls _ (fun runs => ?_) runs
    unfold acceptLoopPoll at runs ⊢
    dsimp only at runs ⊢
    by_cases goes : (acceptLoopScan decode daemon.cleaned 0
      (revents.take daemon.cleaned.conns.length)).running = true
    · rw [if_pos goes]
      exact check _ closed (acceptLoopScan_running serve daemon.cleaned 0 _ cleaned along goes)
    · rw [if_neg goes] at runs
      exact absurd runs goes
  | timeout waited closed =>
    refine polls _ (fun runs => ?_) runs
    unfold acceptLoopTimeout at runs ⊢
    split_ifs at runs ⊢
    · exact cleaned
    · exact check _ closed cleaned
  | locker locker event =>
    cases present : daemon.lockers[locker]? with
    | none =>
      simp only [daemonLocker, present]
      exact holds
    | some slot => exact turn daemon locker slot event holds present (along slot present)

end

theorem complete_check {daemon : Daemon} (closed : List Bool) (complete : daemon.complete) :
    (daemonChklockers daemon closed).complete := by
  refine Unserved.of_manages complete fun slot' member => ?_
  obtain ⟨kept, shorter, checked⟩ := acceptLoopChklockers_checked daemon.lockers closed
  obtain ⟨slot, old, here⟩ := forall₂_mem checked member
  refine ⟨slot, shorter.subset old, fun name manages => ?_⟩
  cases here with
  | kept => exact manages
  | retired => simp [LockerSlot.manages] at manages

theorem turn_manages {slot : LockerSlot} {event : PollEvent} {name : Name}
    (manages : (slot.turn event).manages name = true) : slot.manages name = true := by
  have key : (slot.turn event).thread.resource.key = slot.thread.resource.key :=
    lockerStep_key { slot.thread with mail := [] } _
  simp only [LockerSlot.manages, resourceCompareName_key, key, Bool.and_eq_true] at manages ⊢
  obtain ⟨⟨writing, reading⟩, accepts⟩ := manages
  refine ⟨⟨writing, ?_⟩, accepts⟩
  exact (Bool.and_eq_true _ _ ▸ reading : _ ∧ _).1

theorem complete_turn {daemon : Daemon} {locker : Nat} {slot : LockerSlot} {event : PollEvent}
    (complete : daemon.complete) (present : daemon.lockers[locker]? = some slot) :
    (daemonLocker daemon locker event).complete := by
  have conns : (daemonLocker daemon locker event).conns = daemon.conns := by
    simp only [daemonLocker, present]
  rw [Daemon.complete, daemonLocker_lockers present, conns]
  refine Unserved.of_manages complete fun slot' member => ?_
  obtain old | rfl := List.mem_or_eq_of_mem_set member
  · exact ⟨slot', old, fun _ manages => manages⟩
  · exact ⟨slot, List.mem_of_getElem? present, fun _ manages => turn_manages manages⟩

theorem start_complete (multicast tlsCheckPeerId : Bool) :
    (daemonStart multicast tlsCheckPeerId).complete where
  first := ⟨connInit 0 false true, rfl, rfl, by simp [connInit]⟩
  waiting := by simp [daemonStart]

theorem complete_step {decode : Name → Name} {daemon : Daemon} {turn : Turn}
    (complete : daemon.running = true → daemon.complete)
    (silent : turn.Along decode Silent (fun _ _ => True) daemon)
    (runs : (daemonStep decode daemon turn).running = true) :
    (daemonStep decode daemon turn).complete := by
  apply daemonStep_running
  · exact fun _ _ _ complete silent goes => complete_serve complete silent goes
  · exact fun _ complete => Unserved.clean complete
  · exact fun _ closed complete => complete_check closed complete
  · exact fun _ _ _ _ complete present _ => complete_turn complete present
  · exact complete
  · exact silent
  · exact runs

theorem incubator_complete (decode : Name → Name) (multicast tlsCheckPeerId : Bool)
    (turns : List Turn)
    (silent : Run.Along (daemonStep decode)
      (fun daemon turn => turn.Along decode Silent (fun _ _ => True) daemon)
      (daemonStart multicast tlsCheckPeerId) turns) :
    ((Run.run (daemonStep decode) (daemonStart multicast tlsCheckPeerId) turns).running = true →
      (Run.run (daemonStep decode) (daemonStart multicast tlsCheckPeerId) turns).complete) ∧
    ∀ daemon id revents, (acceptLoopServe decode daemon id revents).flow ≠ .leave →
      (acceptLoopServe decode daemon id revents).daemon.lockers.length ≠ daemon.lockers.length →
      ∃ conn name resource, Starts decode daemon id revents.accept conn name resource ∧
        Hatched daemon id revents.accept.control resource conn
          (acceptLoopServe decode daemon id revents).daemon := by
  constructor
  · apply Run.along_invariant _ _ (fun daemon => daemon.running = true → daemon.complete) _ _ turns
      _ silent
    · exact fun _ _ complete silent => complete_step complete silent
    · exact fun _ => start_complete multicast tlsCheckPeerId
  · intro daemon id revents goes more
    obtain same | ⟨_, conn, name, resource, starts, hatched⟩ := acceptLoopServe_grows goes
    · have length := congrArg List.length same
      rw [List.length_map, List.length_map] at length
      exact absurd length more
    · exact ⟨conn, name, resource, starts, hatched⟩

theorem incubator_complete_swept :
    let turns := [joinTurn 2, requestTurn [.quiet] ['1'] ['0'], joinTurn 3,
      requestTurn [.quiet, .quiet] ['1'] ['1']]
    let before := Run.run (daemonStep decodeFive) (daemonStart false false) (turns.take 2)
    let reached := Run.run (daemonStep decodeFive) (daemonStart false false) turns
    before.conns.map Conn.wait = [false, true] ∧ reached.transfers.map Conn.id = [3, 2] ∧
      reached.running = true ∧ reached.complete := by
  intro turns before reached
  have silent : Run.Along (daemonStep decodeFive)
      (fun daemon turn => turn.Along decodeFive Silent (fun _ _ => True) daemon)
          (daemonStart false false) turns := by
    decide
  refine ⟨by decide, by decide, by decide, ?_⟩
  exact (incubator_complete decodeFive false false turns silent).1 (by decide)

end Flom
