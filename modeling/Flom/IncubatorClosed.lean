import Flom.Incubator

set_option autoImplicit false

namespace Flom

open Lists

def Stays (origin : Daemon) (id : Nat) (after : Daemon) : Prop :=
  ∀ position, position ≠ id → position < origin.conns.length →
    after.conns[position]? = origin.conns[position]?

section

variable {decode : Name → Name} {origin daemon : Daemon} {id : Nat} {accept : Accept}

theorem Stays.set (stays : Stays origin id daemon) (conn : Conn) :
    Stays origin id (daemon.setConn id conn) := by
  intro position other bound
  rw [Daemon.setConn, List.getElem?_set_ne other.symm]
  exact stays position other bound

theorem Stays.close (stays : Stays origin id daemon) (closed : Bool) :
    Stays origin id (daemonClose daemon id closed).2 := by
  unfold daemonClose connsCloseFd
  split
  · exact stays.set _
  · exact stays

theorem Stays.append (stays : Stays origin id daemon) (conn : Conn) :
    Stays origin id { daemon with conns := daemon.conns ++ [conn] } := by
  intro position other bound
  have same := stays position other bound
  rw [List.getElem?_eq_getElem bound] at same ⊢
  rw [List.getElem?_append_left (List.getElem?_eq_some_iff.mp same).1]
  exact same

theorem Stays.reply (stays : Stays origin id daemon) (conn : Conn) (rc : Rc) (accept : Accept) :
    Stays origin id (acceptLoopReply daemon id conn rc accept).2 := by
  unfold acceptLoopReply
  split_ifs
  · exact stays.set _
  · exact stays

theorem acceptLoopTransfer_stays {conn : Conn} (client : id ≠ 0)
    (present : daemon.conns[id]? = some conn) (stays : Stays origin id daemon)
    (gone : (acceptLoopTransfer daemon id conn accept).1 = .connectionClosed) :
    Stays origin id (acceptLoopTransfer daemon id conn accept).2 := by
  unfold acceptLoopTransfer at gone ⊢
  by_cases lock : conn.msg.verb = .lock ∧ conn.msg.step = msgStepIncr
  · rw [if_pos lock] at gone ⊢
    cases named : conn.msg.lock8.name with
    | none => exact stays
    | some name =>
      simp only [named] at gone ⊢
      split_ifs at gone ⊢ with type
      · exact stays.reply _ _ _
      · cases missing : daemon.lockers.findIdx? (LockerSlot.manages name) with
        | some locker =>
          simp only [missing] at gone
          obtain ⟨failed, _⟩ | ⟨ok, _⟩ :=
            @acceptLoopTransferConn_cases id daemon id locker conn accept.writes
            (List.getElem?_eq_some_iff.mp present).1
          · rw [failed] at gone
            cases gone
          · rw [ok] at gone
            cases gone
        | none =>
          simp only [missing] at gone ⊢
          unfold acceptLoopMissing at gone ⊢
          split_ifs at gone ⊢ with create wait
          · exact stays.reply _ _ _
          · dsimp only
            split_ifs
            · exact (stays.reply _ _ _).set _
            · exact stays.reply _ _ _
          · have written : (acceptLoopNewLocker daemon id conn (rsrcGetType name) name accept).1 ≠
                .writeError := by
              simp [gone]
            obtain same | ⟨_, _, _, ok, _⟩ := acceptLoopNewLocker_hatched client present written
            · rw [same]
              exact stays
            · rw [ok] at gone
              cases gone
  · rw [if_neg lock]
    exact stays

theorem acceptLoopReady_stays {conn : Conn} (client : id ≠ 0)
    (present : daemon.conns[id]? = some conn)
    (stays : Stays origin id daemon)
    (unmoved : (acceptLoopReady daemon id conn accept).rc = .connectionClosed ∨
      (acceptLoopReady daemon id conn accept).rc = .ok ∧
      (acceptLoopReady daemon id conn accept).moved = false) :
    Stays origin id (acceptLoopReady daemon id conn accept).daemon := by
  unfold acceptLoopReady at unmoved ⊢
  by_cases protocol : msgCheckProtocol conn.msg true = true
  · rw [if_pos protocol] at unmoved ⊢
    cases identity : daemon.identify conn accept with
    | passed =>
      simp only [identity] at unmoved ⊢
      unfold acceptLoopDispatch at unmoved ⊢
      by_cases discover : conn.msg.verb = .discover
      · rw [if_pos discover]
        exact stays
      · by_cases mngmnt : conn.msg.verb = .mngmnt
        · rw [if_neg discover, if_pos mngmnt]
          exact stays
        · rw [if_neg discover, if_neg mngmnt] at unmoved ⊢
          refine acceptLoopTransfer_stays client present stays (unmoved.resolve_right ?_)
          rintro ⟨ok, unmoved⟩
          exact absurd ok (by simpa using unmoved)
    | failed rc => exact stays
    | refused rc => exact stays.close _
  · rw [if_neg protocol]
    exact stays

theorem acceptLoopData_stays {conn : Conn} {feed : Feed} (client : id ≠ 0)
    (present : origin.conns[id]? = some conn)
    (unmoved : (acceptLoopData decode origin id conn feed accept).rc = .connectionClosed ∨
      (acceptLoopData decode origin id conn feed accept).rc = .ok ∧
        (acceptLoopData decode origin id conn feed accept).moved = false) :
    Stays origin id (acceptLoopData decode origin id conn feed accept).daemon := by
  have kept : Stays origin id origin := fun _ _ _ => rfl
  unfold acceptLoopData at unmoved ⊢
  dsimp only at unmoved ⊢
  by_cases parsed : (msgDeserialize decode feed conn.msg).1 = .ok
  · rw [if_pos parsed] at unmoved ⊢
    cases state : (msgDeserialize decode feed conn.msg).2.state with
    | ready =>
      simp only [state] at unmoved ⊢
      refine acceptLoopReady_stays client ?_ (kept.set _) unmoved
      exact List.getElem?_set_self (List.getElem?_eq_some_iff.mp present).1
    | invalid => exact (kept.set _).close _
    | initialized => exact kept.set _
    | parsing => exact kept.set _
  · rw [if_neg parsed]
    exact kept.set _

theorem acceptLoopPollin_stays (unmoved : (acceptLoopPollin decode origin id accept).rc =
      .connectionClosed ∨
      (acceptLoopPollin decode origin id accept).rc = .ok ∧
      (acceptLoopPollin decode origin id accept).moved = false) :
    Stays origin id (acceptLoopPollin decode origin id accept).daemon := by
  have kept : Stays origin id origin := fun _ _ _ => rfl
  unfold acceptLoopPollin at unmoved ⊢
  cases present : origin.conns[id]? with
  | none => exact kept
  | some conn =>
    simp only [present] at unmoved ⊢
    split_ifs at unmoved ⊢ with listening
    · unfold acceptLoopNewConn
      split
      · exact kept
      · dsimp only
        split
        · exact kept.append _
        · split_ifs
          · exact kept.append _
          · exact kept
    · cases arrived : accept.arrival with
      | failed rc => exact kept
      | empty => exact kept
      | stalled => exact kept
      | bytes feed =>
        simp only [arrived] at unmoved ⊢
        exact acceptLoopData_stays listening present unmoved

theorem acceptLoopServe_stays {revents : Revents}
    (goes : (acceptLoopServe decode origin id revents).flow = .next) :
    Stays origin id (acceptLoopServe decode origin id revents).daemon := by
  have kept : Stays origin id origin := fun _ _ _ => rfl
  have polled := @acceptLoopPollin_stays decode origin id revents.accept
  obtain ⟨_, same⟩ | ⟨_, ⟨_, same⟩ | ⟨_, ⟨gone, same⟩ | ⟨done, same, again⟩ | ⟨_, _, leaves⟩⟩⟩ :=
    acceptLoopServe_cases decode origin id revents
  · rw [same]
    exact kept.close _
  · rwa [same]
  · rw [same]
    exact (polled (.inl gone)).close _
  · rw [same]
    cases moved : (acceptLoopPollin decode origin id revents.accept).moved with
    | true =>
      rw [again moved] at goes
      cases goes
    | false => exact polled (.inr ⟨done, moved⟩)
  · rw [leaves] at goes
    cases goes

end

def Conn.opened (conn : Conn) : Prop := conn.state ≠ .remove ∧ conn.sockfd = true

structure Daemon.Open (daemon : Daemon) : Prop where
  polled : ∀ conn ∈ daemon.conns, conn.state ≠ .remove → conn.sockfd = true
  piped : ∀ slot ∈ daemon.lockers, ∀ token ∈ slot.pipe, token.conn.sockfd = true
  threads : ∀ slot ∈ daemon.lockers, slot.thread.polled
  transfers : ∀ conn ∈ daemon.transfers, conn.opened

/-- A locker is not started while somebody who waited for it and has been closed in this cycle is
still in the array. -/
def Unspoilt (decode : Name → Name) (daemon : Daemon) (id : Nat) (revents : Revents) : Prop :=
  revents.pollin = true → revents.hup = false → ∀ conn name resource,
    Starts decode daemon id revents.accept conn name resource →
    ∀ other ∈ daemon.others id, other.waitsFor resource = true → other.state ≠ .remove

section

variable {decode : Name → Name} {origin daemon : Daemon} {id : Nat} {accept : Accept}
  {revents : Revents}

theorem Daemon.Open.set (opened : daemon.Open) {id : Nat} {conn : Conn}
    (polled : conn.state ≠ .remove → conn.sockfd = true) : (daemon.setConn id conn).Open := by
  refine ⟨fun other member => ?_, opened.piped, opened.threads, opened.transfers⟩
  obtain old | rfl := List.mem_or_eq_of_mem_set member
  · exact opened.polled other old
  · exact polled

theorem Daemon.Open.close (opened : daemon.Open) (id : Nat) (closed : Bool) :
    (daemonClose daemon id closed).2.Open := by
  unfold daemonClose connsCloseFd
  split
  · next conn _ => exact opened.set fun stays => absurd (connTerminate_state conn closed) stays
  · exact opened

theorem Daemon.Open.spend (opened : daemon.Open) {conn : Conn} (locker : Nat)
    (transferred : conn.opened) :
    (daemon.spend locker conn).Open := by
  refine ⟨opened.polled, fun slot member => ?_, fun slot member => ?_, fun other member => ?_⟩
  · obtain old | ⟨before, old, rfl⟩ := mem_modify member
    · exact opened.piped slot old
    · exact opened.piped before (List.mem_of_getElem? old)
  · obtain old | ⟨before, old, rfl⟩ := mem_modify member
    · exact opened.threads slot old
    · exact opened.threads before (List.mem_of_getElem? old)
  · obtain old | new := List.mem_append.mp member
    · exact opened.transfers other old
    · exact List.mem_singleton.mp new ▸ transferred

theorem Daemon.Open.remove (opened : daemon.Open) {position : Nat} {conn : Conn}
    (present : daemon.conns[position]? = some conn) : (daemon.remove position).Open := by
  refine ⟨fun other member => ?_, opened.piped, opened.threads, opened.transfers⟩
  exact opened.polled other ((removeIndexFast_perm present).symm.subset
    (List.mem_cons_of_mem conn member))

theorem Daemon.Open.push (opened : daemon.Open) {conn : Conn} (locker : Nat)
    (transferred : conn.sockfd = true) :
    (daemon.push locker conn).Open := by
  refine ⟨opened.polled, fun slot member => ?_, fun slot member => ?_, opened.transfers⟩
  · obtain old | ⟨before, old, rfl⟩ := mem_modify member
    · exact opened.piped slot old
    · intro token inside
      obtain earlier | last := List.mem_append.mp inside
      · exact opened.piped before (List.mem_of_getElem? old) token earlier
      · obtain rfl := List.mem_singleton.mp last
        exact transferred
  · obtain old | ⟨before, old, rfl⟩ := mem_modify member
    · exact opened.threads slot old
    · exact opened.threads before (List.mem_of_getElem? old)

theorem moves_opened {reached : Daemon} {position locker : Nat} {conn : Conn} (opened : daemon.Open)
    (here : ∀ conn ∈ daemon.conns[id]?, conn.state ≠ .remove)
    (unspoilt : ∀ conn name resource, Starts decode daemon id accept conn name resource →
      ∀ other ∈ daemon.others id, other.waitsFor resource = true → other.state ≠ .remove)
    (moves : Moves decode daemon id accept reached position locker conn) : conn.opened := by
  cases moves with
  | route locker slot conn name heard =>
    obtain ⟨_, old, feed, present, _, _, rfl⟩ := heard
    have stays := here old present
    exact ⟨stays, opened.polled old (List.mem_of_getElem? present) stays⟩
  | hatch position locker slot conn requester name behind present other slotted piped starts
      waits =>
    have stays := unspoilt requester name _ starts conn other waits
    have inside := (others_sublist daemon starts.heard.1).subset other
    exact ⟨stays, opened.polled conn (List.mem_of_mem_tail inside) stays⟩

theorem open_serve (opened : daemon.Open) (here : ∀ conn ∈ daemon.conns[id]?, conn.state ≠ .remove)
    (unspoilt : Unspoilt decode daemon id revents) :
    (acceptLoopServe decode daemon id revents).daemon.Open := by
  by_cases unread : revents.pollin = false ∨ revents.hup = true ∧ id ≠ 0
  · obtain same | ⟨_, same⟩ := @acceptLoopServe_unread decode daemon id revents unread
    · rwa [same]
    · rw [same]
      exact opened.close id _
  · obtain ⟨pollin, hup⟩ := not_or.mp unread
    refine acceptLoopServe_invariant daemon id revents opened fun reached act opened' legal => ?_
    have transferred : ∀ position locker conn,
      Moves decode daemon id revents.accept reached position locker conn →
        conn.opened := by
      refine fun position locker conn moves =>
        moves_opened opened here (fun conn name resource starts => ?_) moves
      refine unspoilt (by simpa using pollin) ?_ conn name resource starts
      simpa [starts.heard.1] using hup
    cases legal with
    | close closed client => exact opened'.close id closed
    | join conn listening same accepted state sockfd tls polled fresh =>
      refine ⟨fun other member => ?_, opened'.piped, opened'.threads, opened'.transfers⟩
      obtain old | new := List.mem_append.mp member
      · exact opened'.polled other old
      · rw [List.mem_singleton.mp new, fresh]
        exact polled
    | parse conn same heard =>
      obtain ⟨_, old, feed, present, _, _, rfl⟩ := heard
      exact opened'.set (opened.polled old (List.mem_of_getElem? present))
    | garble conn old feed same client present arrived broken spoilt =>
      rw [spoilt]
      exact opened'.set (opened.polled old (List.mem_of_getElem? present))
    | answer conn rc name heard present requests lockers answers =>
      have answered := @Daemon.Open.set reached opened' id
        { conn with lastStep := 2 * msgStepIncr, wait := conn.wait || decide (rc =
          .lockWaitResource) }
        (opened'.polled conn (List.mem_of_getElem? present))
      exact ⟨answered.polled, answered.piped, answered.threads, answered.transfers⟩
    | start conn name resource starts =>
      refine ⟨opened'.polled, fun slot member => ?_, fun slot member => ?_, opened'.transfers⟩
      · obtain old | new := List.mem_append.mp member
        · exact opened'.piped slot old
        · rw [List.mem_singleton.mp new]
          simp
      · obtain old | new := List.mem_append.mp member
        · exact opened'.threads slot old
        · rw [List.mem_singleton.mp new]
          intro conn inside _
          obtain rfl := List.mem_singleton.mp inside
          rfl
    | spend position locker conn moves => exact opened'.spend locker (transferred _ _ _ moves)
    | drop position locker conn moves =>
      exact (opened'.spend locker (transferred _ _ _ moves)).remove moves.present.2
    | hand position locker conn moves =>
      have moving := transferred _ _ _ moves
      exact ((opened'.spend locker moving).remove moves.present.2).push locker moving.2

end

theorem acceptLoopScan_opened {decode : Name → Name} {allowed : Daemon → Nat → Revents → Prop}
    (daemon : Daemon) (id : Nat) (entries : List Revents)
    (along : Run.ScanAlong (acceptLoopNext decode) allowed daemon id entries)
    (fresh : ∀ position, id ≤ position → position < id + entries.length →
      ∃ conn, daemon.conns[position]? = some conn ∧ conn.state ≠ .remove) :
    Run.ScanAlong (acceptLoopNext decode)
      (fun daemon id revents => allowed daemon id revents ∧ ∀ conn ∈ daemon.conns[id]?,
        conn.state ≠ .remove)
      daemon id entries := by
  induction entries generalizing daemon id with
  | nil => trivial
  | cons first rest ih =>
    rw [List.length_cons] at fresh
    refine ⟨⟨along.1, ?_⟩, fun after next => ih after (id + 1) (along.2 after next) ?_⟩
    · intro conn present
      obtain ⟨found, standing, stays⟩ := fresh id le_rfl (by omega)
      obtain rfl := Option.some.inj (standing.symm.trans present)
      exact stays
    · intro position behind inside
      obtain ⟨conn, present, stays⟩ := fresh position (by omega) (by omega)
      refine ⟨conn, ?_, stays⟩
      have served : acceptLoopServe decode daemon id first = ⟨.next, after⟩ := by
        unfold acceptLoopNext at next
        split at next
        · next reached served =>
          rw [served, Option.some.inj next]
        · cases next
      have kept := @acceptLoopServe_stays decode daemon id first (by rw [served])
      rw [served] at kept
      rw [← present]
      exact kept position (by omega) (List.getElem?_eq_some_iff.mp present).1

theorem turn_opened {decode : Name → Name} {allowed : Daemon → Nat → Revents → Prop}
    {quiet : LockerSlot → PollEvent → Prop} {daemon : Daemon} {turn : Turn}
    (along : turn.Along decode allowed quiet daemon) :
    turn.Along decode
      (fun daemon id revents => allowed daemon id revents ∧ ∀ conn ∈ daemon.conns[id]?,
        conn.state ≠ .remove)
      quiet daemon := by
  cases turn with
  | poll revents closed =>
    refine acceptLoopScan_opened _ _ _ along fun position _ inside => ?_
    rw [Nat.zero_add, List.length_take] at inside
    have bound : position < daemon.cleaned.conns.length := by omega
    refine ⟨_, List.getElem?_eq_getElem bound, ?_⟩
    exact (mem_connsClean.mp (List.getElem_mem bound)).2
  | timeout waited closed => trivial
  | locker locker event => exact along

theorem piped_admitted {locker : Locker} {event : PollEvent} {handed : Option Conn} {conn : Conn}
    (member : conn ∈ locker.admitted (event.piped handed)) : handed = some conn := by
  cases event with
  | failed => cases member
  | timeout env => cases member
  | ready revents =>
    cases revents with
    | nil => cases member
    | cons first rest =>
      simp only [PollEvent.piped, Locker.admitted, Locker.admits] at member
      split_ifs at member
      · exact Option.mem_toList.mp member
      · cases member

theorem open_turn {daemon : Daemon} {locker : Nat} {slot : LockerSlot} {event : PollEvent}
    (opened : daemon.Open) (present : daemon.lockers[locker]? = some slot) :
    (daemonLocker daemon locker event).Open := by
  have same : (daemonLocker daemon locker event).conns = daemon.conns ∧
      (daemonLocker daemon locker event).transfers = daemon.transfers := by
    simp only [daemonLocker, present, and_self]
  have old := List.mem_of_getElem? present
  have piped : ∀ token ∈ (slot.turn event).pipe, token.conn.sockfd = true := by
    intro token member
    apply opened.piped slot old
    simp only [LockerSlot.turn] at member
    split_ifs at member
    · exact List.mem_of_mem_tail member
    · exact member
  have polled : (slot.turn event).thread.polled := by
    refine @lockerStep_polled { slot.thread with mail := [] } _
      (opened.threads slot old) fun conn member => ?_
    obtain ⟨token, first, rfl⟩ := Option.map_eq_some_iff.mp (piped_admitted member)
    exact opened.piped slot old token (List.mem_of_mem_head? first)
  refine ⟨?_, ?_, ?_, ?_⟩
  · rw [same.1]
    exact opened.polled
  · rw [daemonLocker_lockers present]
    intro other member
    obtain kept | rfl := List.mem_or_eq_of_mem_set member
    · exact opened.piped other kept
    · exact piped
  · rw [daemonLocker_lockers present]
    intro other member
    obtain kept | rfl := List.mem_or_eq_of_mem_set member
    · exact opened.threads other kept
    · exact polled
  · rw [same.2]
    exact opened.transfers

theorem open_check {daemon : Daemon} (opened : daemon.Open) (closed : List Bool) :
    Daemon.Open { daemon with lockers := (acceptLoopChklockers daemon.lockers closed).2 } := by
  obtain ⟨kept, shorter, checked⟩ := acceptLoopChklockers_checked daemon.lockers closed
  refine ⟨opened.polled, fun slot' member => ?_, fun slot' member => ?_, opened.transfers⟩
  · obtain ⟨slot, old, here⟩ := forall₂_mem checked member
    have piped := opened.piped slot (shorter.subset old)
    cases here with
    | kept => exact piped
    | retired => exact piped
  · obtain ⟨slot, old, here⟩ := forall₂_mem checked member
    have polled := opened.threads slot (shorter.subset old)
    cases here with
    | kept => exact polled
    | retired => exact polled

theorem start_open (multicast tlsCheckPeerId : Bool) :
    (daemonStart multicast tlsCheckPeerId).Open where
  polled := by cases multicast <;> simp [daemonStart, connInit]
  piped := by simp [daemonStart]
  threads := by simp [daemonStart]
  transfers := by simp [daemonStart]

theorem transferred_connections_open (decode : Name → Name) (multicast tlsCheckPeerId : Bool)
    (turns : List Turn)
    (unspoilt : Run.Along (daemonStep decode)
      (fun daemon turn => turn.Along decode (Unspoilt decode) (fun _ _ => True) daemon)
      (daemonStart multicast tlsCheckPeerId) turns) :
    let reached := Run.run (daemonStep decode) (daemonStart multicast tlsCheckPeerId) turns
    (∀ conn ∈ reached.transfers, conn.state ≠ .remove ∧ conn.sockfd = true) ∧
      ∀ slot ∈ reached.lockers, connsSetEvents slot.thread.cleaned.conns = .ok := by
  intro reached
  have opened : reached.Open := by
    apply Run.along_invariant _ _ Daemon.Open _ _ turns
      (start_open multicast tlsCheckPeerId) unspoilt
    intro daemon turn opened unspoilt
    refine daemonStep_invariant ?_ ?_ ?_ ?_ ?_ daemon turn opened (turn_opened unspoilt)
    · intro daemon opened
      exact ⟨fun conn member => opened.polled conn (mem_connsClean.mp member).1, opened.piped,
        opened.threads,
        opened.transfers⟩
    · exact fun _ _ _ opened entry => open_serve opened entry.2 entry.1
    · exact fun _ opened => ⟨opened.polled, opened.piped, opened.threads, opened.transfers⟩
    · exact fun _ closed opened => open_check opened closed
    · exact fun _ _ _ _ opened present _ => open_turn opened present
  exact ⟨opened.transfers, fun slot member => cleaned_setEvents (opened.threads slot member)⟩

/-- Client 2 waits for x[5]. In one cycle it hangs up and client 3 has the locker started. -/
def hungUpTurns : List Turn :=
  [joinTurn 2, requestTurn [.quiet] ['1'] ['0'], joinTurn 3,
    requestTurn [.quiet, { Revents.quiet with hup := true }] ['1'] ['1'], readTurn,
    .locker 0 (.ready [{ Ready.idle with pollin := true, send := .sendError }])]

theorem closed_connection_handed :
    let reached := Run.run (daemonStep decodeFive) (daemonStart false false) hungUpTurns
    reached.transfers.map (fun conn => (conn.id, conn.state, conn.sockfd)) =
    [(3, .daemon, true), (2, .remove, false)] ∧
      reached.running = true ∧
      reached.lockers.map (fun slot => connsSetEvents slot.thread.cleaned.conns) =
          [.objCorrupted] := by
  decide

theorem transferred_connections_open_cycle :
    let turns := [joinTurn 2, requestTurn [.quiet] ['1'] ['0'], joinTurn 3,
      .poll [.quiet, { Revents.quiet with hup := true }] [], requestTurn [.quiet] ['1'] ['1'],
      readTurn]
    let reached := Run.run (daemonStep decodeFive) (daemonStart false false) turns
    reached.transfers.map Conn.id = [3] ∧
    (∀ conn ∈ reached.transfers, conn.state ≠ .remove ∧ conn.sockfd = true) ∧
      ∀ slot ∈ reached.lockers, connsSetEvents slot.thread.cleaned.conns = .ok := by
  intro turns reached
  have open_ : Run.Along (daemonStep decodeFive)
      (fun daemon turn => turn.Along decodeFive
        (fun daemon id _ => ∀ other ∈ daemon.others id, other.state ≠ .remove)
          (fun _ _ => True) daemon)
      (daemonStart false false) turns := by
    decide
  refine ⟨by decide,
    transferred_connections_open decodeFive false false turns (Run.along_imp ?_ open_)⟩
  intro daemon turn
  exact Turn.Along.imp (fun _ _ _ opened _ _ _ _ _ _ other member _ => opened other member)
    fun _ _ quiet => quiet

end Flom
