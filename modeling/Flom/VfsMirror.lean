import Flom.IncubatorClosed
import Flom.VfsApart

set_option autoImplicit false

namespace Flom

open Lists

structure Mounted.Kept (mounted : Mounted) : Prop where
  incubator : mounted.tree.incubator.Perm ((waiters mounted.daemon.conns).map Prod.fst)
  opened : ∀ waiter ∈ waiters mounted.daemon.conns, waiter.2 ≠ .remove
  lockers : List.Forall₂ Locker.Listed (mounted.daemon.lockers.map LockerSlot.thread)
    mounted.tree.lockers
  apart : mounted.daemon.Apart

theorem waiters_incubated {daemon : Daemon}
    (opened : ∀ waiter ∈ waiters daemon.conns, waiter.2 ≠ .remove) :
    (waiters daemon.conns).map Prod.fst = daemon.incubated := by
  have stays : ∀ conn ∈ daemon.conns, conn.wait = true → conn.state ≠ .remove :=
      fun conn member waits =>
    opened (conn.id, conn.state)
      (List.mem_map_of_mem (f := fun conn : Conn => (conn.id, conn.state))
      (List.mem_filter.mpr ⟨member, waits⟩))
  rw [waiters, Daemon.incubated, List.map_map]
  congr 1
  refine List.filter_congr fun conn member => ?_
  by_cases waits : conn.wait = true
  · simp [waits, stays conn member waits]
  · simp [waits]

theorem conns_nodup {daemon : Daemon} (apart : daemon.Apart) :
    (daemon.conns.map Conn.id).Nodup := by
  have singles := List.Pairwise.sublist (List.sublist_append_left _ _) apart
  rw [List.pairwise_map] at singles
  refine singles.imp ?_
  rintro first _ disjoint rfl
  exact disjoint (List.mem_singleton_self first) (List.mem_singleton_self first)

theorem Mounted.Kept.mirrors {mounted : Mounted} (kept : mounted.Kept) : mounted.Mirrors where
  incubator := waiters_incubated kept.opened ▸ kept.incubator
  once := by
    have less : ((waiters mounted.daemon.conns).map Prod.fst).Sublist
        (mounted.daemon.conns.map Conn.id) := by
      rw [waiters, List.map_map]
      exact List.filter_sublist.map Conn.id
    exact kept.incubator.nodup_iff.mpr ((conns_nodup kept.apart).sublist less)
  lockers := kept.lockers

theorem threads_of_faces {slots slots' : List LockerSlot}
    (faces : slots'.map LockerSlot.face = slots.map LockerSlot.face) :
    slots'.map LockerSlot.thread = slots.map LockerSlot.thread := by
  simpa [LockerSlot.face, Function.comp_def] using congrArg (List.map Prod.fst) faces

theorem run_hatched {incubator rest : List ConnId} {handed : List Conn} (dirs : List VfsLocker)
    (waiting : incubator.Perm (handed.map Conn.id ++ rest)) :
    ∃ left,
      VfsTree.run ⟨incubator, dirs⟩ (handed.map fun conn => .delConn conn.id true) = ⟨left, dirs⟩ ∧
      left.Perm rest := by
  induction handed generalizing incubator with
  | nil => exact ⟨incubator, rfl, waiting⟩
  | cons conn others ih =>
    have less : (incubator.erase conn.id).Perm (others.map Conn.id ++ rest) := by
      have erased := waiting.erase conn.id
      rwa [List.map_cons, List.cons_append, List.erase_cons_head] at erased
    exact ih less

theorem kept_serve {decode : Name → Name} {daemon : Daemon} {tree : VfsTree} {id : Nat}
    {revents : Revents} (kept : Mounted.Kept ⟨daemon, tree⟩)
    (recorded : Recorded decode daemon id revents)
    (opened : ∀ conn ∈ daemon.conns[id]?, conn.state ≠ .remove)
    (goes : (acceptLoopServe decode daemon id revents).flow ≠ .leave) :
    Mounted.Kept ⟨(acceptLoopServe decode daemon id revents).daemon,
      tree.run (acceptLoopServeCalls decode daemon id revents)⟩ := by
  have apart := apart_serve kept.apart recorded
  have notes := acceptLoopServe_notes opened recorded.still goes
  generalize (acceptLoopServe decode daemon id revents).daemon = after at apart notes
  generalize acceptLoopServeCalls decode daemon id revents = calls at notes
  cases notes with
  | quiet faces waiting =>
    refine ⟨kept.incubator.trans (waiting.map Prod.fst).symm, ?_,
      threads_of_faces faces ▸ kept.lockers, apart⟩
    exact fun waiter member => kept.opened waiter (waiting.subset member)
  | incubates conn state stays faces waiting =>
    refine ⟨?_, ?_, threads_of_faces faces ▸ kept.lockers, apart⟩
    · refine (List.perm_append_singleton conn tree.incubator).trans ?_
      exact (kept.incubator.cons conn).trans (waiting.map Prod.fst).symm
    · intro waiter member
      obtain rfl | old := List.mem_cons.mp (waiting.subset member)
      · exact stays
      · exact kept.opened waiter old
  | hatches control resource handed empty faces waiting =>
    have queue := kept.incubator.trans (waiting.map Prod.fst)
    rw [List.map_append, List.map_map] at queue
    obtain ⟨left, run, rest⟩ := run_hatched (tree.lockers ++ [⟨control, [], []⟩]) queue
    have hatched : tree.run (.addLocker control :: handed.map fun conn => .delConn conn.id true) =
        ⟨left, tree.lockers ++ [⟨control, [], []⟩]⟩ := run
    have threads : after.lockers.map LockerSlot.thread =
        daemon.lockers.map LockerSlot.thread ++ [lockerStart control resource] := by
      simpa [LockerSlot.face, Function.comp_def] using congrArg (List.map Prod.fst) faces
    have listed : Locker.Listed (lockerStart control resource) ⟨control, [], []⟩ := by
      refine ⟨rfl, ?_, ?_, ?_⟩
      · exact empty.1 ▸ List.Perm.refl _
      · exact empty.2 ▸ List.Perm.refl _
      · simp [lockerStart, empty]
    rw [hatched]
    refine ⟨rest, ?_, ?_, apart⟩
    · exact fun waiter member => kept.opened waiter
        (waiting.symm.subset (List.mem_append_right _ member))
    · dsimp only
      rw [threads]
      exact List.rel_append kept.lockers (.cons listed .nil)

theorem kept_scan {decode : Name → Name} {daemon : Daemon} {tree : VfsTree} {id : Nat}
    {entries : List Revents} (kept : Mounted.Kept ⟨daemon, tree⟩)
    (along : Run.ScanAlong (acceptLoopNext decode)
      (fun daemon id revents => Recorded decode daemon id revents ∧ ∀ conn ∈ daemon.conns[id]?,
        conn.state ≠ .remove)
      daemon id entries)
    (runs : (acceptLoopScan decode daemon id entries).running = true) :
    Mounted.Kept ⟨acceptLoopScan decode daemon id entries,
      tree.run (acceptLoopScanCalls decode daemon id entries)⟩ := by
  induction entries generalizing daemon tree id with
  | nil => exact kept
  | cons first rest ih =>
    have served := kept_serve kept along.1.1 along.1.2
    have later := along.2
    unfold acceptLoopNext at later
    rw [acceptLoopScan] at runs ⊢
    rw [acceptLoopScanCalls]
    generalize acceptLoopServe decode daemon id first = reached at served later runs ⊢
    obtain ⟨flow, after⟩ := reached
    cases flow with
    | next =>
      simp only [run_append]
      exact ih (served (by simp)) (later after rfl) runs
    | again =>
      simp only [List.append_nil]
      exact served (by simp)
    | leave => cases runs

theorem chklockersCalls_cases (slots : List LockerSlot) (closed : List Bool) :
    acceptLoopChklockersCalls slots closed = [] ∨
      ∃ slot ∈ slots,
        acceptLoopChklockersCalls slots closed = [.delLocker slot.thread.control] := by
  induction slots generalizing closed with
  | nil => exact .inl rfl
  | cons slot rest ih =>
    have behind : ∀ closed, acceptLoopChklockersCalls rest closed = [] ∨
        ∃ other ∈ slot :: rest,
          acceptLoopChklockersCalls rest closed = [.delLocker other.thread.control] := by
      intro closed
      obtain none | ⟨other, member, one⟩ := ih closed
      · exact .inl none
      · exact .inr ⟨other, List.mem_cons_of_mem slot member, one⟩
    rw [acceptLoopChklockersCalls]
    split_ifs
    · exact behind closed.tail
    · exact .inl rfl
    · exact behind closed
    · exact .inr ⟨slot, List.mem_cons_self, rfl⟩
    · exact behind closed

theorem chklockers_listed {slots : List LockerSlot} {dirs : List VfsLocker}
    (incubator : List ConnId) (closed : List Bool)
    (listed : List.Forall₂ Locker.Listed (slots.map LockerSlot.thread) dirs)
    (distinct : (slots.map fun slot => slot.thread.control).Nodup) :
    ∃ dirs',
      VfsTree.run ⟨incubator, dirs⟩ (acceptLoopChklockersCalls slots closed) = ⟨incubator, dirs'⟩ ∧
      List.Forall₂ Locker.Listed ((acceptLoopChklockers slots closed).2.map LockerSlot.thread)
        dirs' := by
  induction slots generalizing dirs closed with
  | nil => exact ⟨dirs, rfl, listed⟩
  | cons slot rest ih =>
    obtain ⟨dir, others, here, later, rfl⟩ := List.forall₂_cons_left_iff.mp listed
    rw [List.map_cons, List.nodup_cons] at distinct
    have behind : ∀ (closed : List Bool) (slot' : LockerSlot), slot'.thread = slot.thread →
        ∃ dirs', VfsTree.run ⟨incubator, dir :: others⟩ (acceptLoopChklockersCalls rest closed) =
          ⟨incubator, dirs'⟩ ∧
          List.Forall₂ Locker.Listed
            ((slot' :: (acceptLoopChklockers rest closed).2).map LockerSlot.thread) dirs' := by
      intro closed slot' same
      obtain ⟨dirs', run, kept⟩ := ih closed later distinct.2
      refine ⟨dir :: dirs', ?_, .cons (same ▸ here) kept⟩
      obtain none | ⟨other, member, one⟩ := chklockersCalls_cases rest closed
      · rw [none] at run ⊢
        rw [run_nil, VfsTree.mk.injEq] at run
        rw [run_nil, run.2]
      · rw [one] at run ⊢
        have foreign : dir.uid ≠ other.thread.control := by
          rw [here.1]
          intro equal
          rw [equal] at distinct
          exact distinct.1 (List.mem_map_of_mem member)
        simp only [VfsTree.run, List.foldl_cons, List.foldl_nil, VfsTree.call, VfsTree.mk.injEq,
          true_and] at run ⊢
        rw [List.eraseP_cons_of_neg (by simpa using foreign), run]
    rw [acceptLoopChklockers, acceptLoopChklockersCalls]
    split_ifs with idle writing success reading
    · exact behind closed.tail { slot with writePipe := false } rfl
    · exact ⟨dir :: others, rfl, listed⟩
    · exact behind closed slot rfl
    · refine ⟨others, ?_, later⟩
      simp [VfsTree.run, VfsTree.call, here.1]
    · exact behind closed slot rfl

variable {daemon : Daemon} {tree : VfsTree}

theorem controls_nodup (apart : daemon.Apart) :
    (daemon.lockers.map fun slot => slot.thread.control).Nodup := by
  have lockers := List.Pairwise.sublist (List.sublist_append_right _ _) apart
  rw [List.pairwise_map] at lockers
  rw [List.Nodup, List.pairwise_map]
  refine lockers.imp fun disjoint same => disjoint List.mem_cons_self ?_
  rw [same]
  exact List.mem_cons_self

theorem kept_check (kept : Mounted.Kept ⟨daemon, tree⟩) (closed : List Bool) :
    Mounted.Kept ⟨daemonChklockers daemon closed,
      tree.run (acceptLoopChklockersCalls daemon.lockers closed)⟩ := by
  obtain ⟨dirs, run, listed⟩ := chklockers_listed tree.incubator closed kept.lockers
    (controls_nodup kept.apart)
  have same : tree.run (acceptLoopChklockersCalls daemon.lockers closed) = ⟨tree.incubator, dirs⟩ :=
    run
  rw [same]
  refine ⟨kept.incubator, kept.opened, listed, ?_⟩
  obtain ⟨left, shorter, checked⟩ := acceptLoopChklockers_checked daemon.lockers closed
  have ids : (acceptLoopChklockers daemon.lockers closed).2.map LockerSlot.ids =
      left.map LockerSlot.ids := by
    clear shorter
    generalize (acceptLoopChklockers daemon.lockers closed).2 = after at checked
    induction checked with
    | nil => rfl
    | cons here later ih =>
      rw [List.map_cons, List.map_cons, ih]
      cases here with
      | kept => rfl
      | retired => rfl
  refine List.Pairwise.sublist ?_ kept.apart
  rw [Daemon.groups, Daemon.groups]
  refine List.Sublist.append (List.Sublist.refl _) ?_
  show ((acceptLoopChklockers daemon.lockers closed).2.map LockerSlot.ids).Sublist _
  rw [ids]
  exact shorter.map LockerSlot.ids

theorem kept_clean (kept : Mounted.Kept ⟨daemon, tree⟩) : Mounted.Kept ⟨daemon.cleaned, tree⟩ := by
  have waiting : (waiters (connsClean daemon.conns)).Perm (waiters daemon.conns) := by
    refine (waiters_perm (connsClean_perm daemon.conns)).trans ?_
    have stays : (daemon.conns.filter fun conn => decide (conn.state ≠ .remove)).filter Conn.wait =
        daemon.conns.filter Conn.wait := by
      rw [List.filter_filter]
      refine List.filter_congr fun conn member => ?_
      by_cases waits : conn.wait = true
      · have open_ := kept.opened (conn.id, conn.state) (List.mem_map_of_mem
          (f := fun conn : Conn => (conn.id, conn.state)) (List.mem_filter.mpr ⟨member, waits⟩))
        simpa [waits] using open_
      · simp [waits]
    rw [waiters, stays]
    exact List.Perm.refl _
  refine ⟨kept.incubator.trans (waiting.map Prod.fst).symm, ?_, kept.lockers, ?_⟩
  · exact fun waiter member => kept.opened waiter (waiting.subset member)
  · obtain ⟨left, same, part⟩ := connsClean_subperm daemon.conns
    have cleaned := ((same.map Conn.id).map fun conn => [conn]).append_right
      (daemon.lockers.map LockerSlot.ids)
    refine (disjoint_perm cleaned).mp (List.Pairwise.sublist ?_ kept.apart)
    exact ((part.map Conn.id).map _).append (List.Sublist.refl _)

theorem lockerStep_control (locker : Locker) (event : PollEvent) :
    (lockerStep locker event).control = locker.control := by
  by_cases running : locker.running = true
  · obtain seats | ⟨left, same, gone⟩ := lockerStep_seats running event
    · exact seats.control
    · rw [gone]
      exact same.control
  · rw [lockerStep, if_neg running]

section

variable {slot : LockerSlot} {event : PollEvent} {dir : VfsLocker}

theorem turn_conns {ids : List ConnId} (conns : slot.thread.conns.map Conn.id ⊆ ids)
    (joins : ∀ conn ∈ { slot.thread with mail := [] }.cleaned.admitted
      (event.piped (slot.pipe.head?.map Token.conn)), conn.id ∈ ids) :
    (slot.turn event).thread.conns.map Conn.id ⊆ ids := by
  have thread : (slot.turn event).thread =
      lockerStep { slot.thread with mail := [] } (event.piped (slot.pipe.head?.map Token.conn)) :=
      rfl
  rw [thread]
  by_cases running : slot.thread.running = true
  · obtain seats | ⟨left, _, gone⟩ := @lockerStep_seats { slot.thread with mail := [] } running
      (event.piped (slot.pipe.head?.map Token.conn))
    · rw [seats.ids, List.map_append]
      refine List.append_subset.mpr ⟨?_, ?_⟩
      · refine List.Subset.trans (List.map_subset Conn.id fun conn member => ?_) conns
        exact (mem_connsClean.mp member).1
      · intro uid member
        obtain ⟨conn, joined, rfl⟩ := List.mem_map.mp member
        exact joins conn joined
    · rw [gone]
      exact List.nil_subset ids
  · rw [lockerStep, if_neg running]
    exact conns

theorem turn_within (listed : slot.thread.Listed dir) (followed : slot.Followed event) :
    let calls := lockerVfsCalls slot.thread.control slot.thread.resource (slot.calls event)
    (∀ call ∈ calls, call.within dir.uid slot.ids) ∧
    (slot.turn event).thread.Listed (dir.run calls) ∧
      (slot.turn event).ids ⊆ slot.ids := by
  intro calls
  have conns : slot.thread.conns.map Conn.id ⊆ slot.ids := fun uid member => by
    simp only [LockerSlot.ids, List.mem_cons, List.mem_append]
    tauto
  have piped : (slot.pipe.map fun token => token.conn.id) ⊆ slot.ids := fun uid member => by
    simp only [LockerSlot.ids, List.mem_cons, List.mem_append]
    tauto
  have records : slot.thread.resource.holding ++ slot.thread.resource.waiting ⊆ slot.ids :=
      fun uid member => by
    simp only [LockerSlot.ids, List.mem_cons, List.mem_append] at member ⊢
    tauto
  have joins : ∀ conn ∈ { slot.thread with mail := [] }.cleaned.admitted
      (event.piped (slot.pipe.head?.map Token.conn)), conn.id ∈ slot.ids := by
    intro conn member
    obtain ⟨token, first, rfl⟩ := Option.map_eq_some_iff.mp (piped_admitted member)
    exact piped (List.mem_map_of_mem (f := fun token : Token => token.conn.id)
      (List.mem_of_mem_head? first))
  have called := @lockerStep_called slot.ids { slot.thread with mail := [] } _
    (fun conn member => conns (List.mem_map_of_mem member)) joins
  have within : ∀ call ∈ calls, call.within dir.uid slot.ids := by
    rw [listed.1]
    exact lockerVfsCalls_within slot.thread.control called.conns (List.append_subset.mp records).2
  have control : (slot.turn event).thread.control = slot.thread.control := lockerStep_control _ _
  have lists : (dir.run calls).Lists (slot.turn event).thread.resource.holding
      (slot.turn event).thread.resource.waiting := by
    have after : (slot.turn event).thread.resource = Run.run resourceCall slot.thread.resource
        (slot.calls event) :=
      called.resource
    rw [after]
    have lists := lockerVfsCalls_lists followed listed.2
    rwa [listed.1] at lists
  refine ⟨within, ⟨(dir_run_uid dir calls).trans (listed.1.trans control.symm), lists⟩, ?_⟩
  have names : (dir.run calls).holders ++ (dir.run calls).waitings ⊆ slot.ids := by
    refine dir_run_names within (List.Subset.trans ?_ records)
    exact (listed.2.holders.append listed.2.waitings).subset
  have seats : (slot.turn event).thread.conns.map Conn.id ⊆ slot.ids := turn_conns conns joins
  have left : ((slot.turn event).pipe.map fun token => token.conn.id) ⊆ slot.ids := by
    refine List.Subset.trans ?_ piped
    unfold LockerSlot.turn
    dsimp only
    split_ifs
    · exact List.map_subset _ (List.tail_subset slot.pipe)
    · exact List.Subset.refl _
  have same : (slot.turn event).thread.control ∈ slot.ids := control ▸ List.mem_cons_self
  refine List.cons_subset.mpr ⟨same, List.append_subset.mpr
    ⟨List.append_subset.mpr ⟨seats, left⟩, ?_⟩⟩
  exact List.Subset.trans (lists.holders.append lists.waitings).symm.subset names

theorem apart_slots {front behind : List LockerSlot} (apart : daemon.Apart)
    (whole : daemon.lockers = front ++ slot :: behind) : ∀ other ∈ front ++ behind,
    slot.ids.Disjoint other.ids := by
  have groups : daemon.groups.Perm
      (slot.ids :: ((daemon.conns.map Conn.id).map (fun conn => [conn]) ++
      (front ++ behind).map LockerSlot.ids)) := by
    rw [Daemon.groups, whole, List.map_append, List.map_append, List.map_cons]
    exact (List.perm_middle.append_left _).trans List.perm_middle
  have first := (List.pairwise_cons.mp ((disjoint_perm groups).mp apart)).1
  exact fun other member => first other.ids (List.mem_append_right _ (List.mem_map_of_mem member))

theorem listed_uid (listed : slot.thread.Listed dir) : dir.uid ∈ slot.ids := by
  rw [listed.1]
  exact List.mem_cons_self

theorem listed_names {conn : ConnId} (listed : slot.thread.Listed dir)
    (named : dir.names conn = true) :
    conn ∈ slot.ids := by
  have recorded := (listed.2.holders.append listed.2.waitings).subset
    (by simpa [VfsLocker.names] using named)
  exact List.mem_cons_of_mem _ (List.mem_append_right _ recorded)

theorem kept_turn {locker : Nat} (kept : Mounted.Kept ⟨daemon, tree⟩)
    (present : daemon.lockers[locker]? = some slot) (followed : slot.Followed event) :
    Mounted.Kept ⟨daemonLocker daemon locker event,
      tree.run (daemonLockerCalls daemon locker event)⟩ := by
  have conns : (daemonLocker daemon locker event).conns = daemon.conns := by
    simp only [daemonLocker, present]
  have calls : daemonLockerCalls daemon locker event =
      lockerVfsCalls slot.thread.control slot.thread.resource (slot.calls event) := by
    simp only [daemonLockerCalls, present]
  have turned := @daemonLocker_lockers daemon locker slot event present
  obtain ⟨front, behind, whole, rfl⟩ := split_of_getElem? present
  rw [whole, List.set_append_right _ _ le_rfl, Nat.sub_self, List.set_cons_zero] at turned
  have listed := kept.lockers
  rw [whole, List.map_append, List.map_cons] at listed
  obtain ⟨before, dir, after, dirs, first, here, last⟩ := forall₂_split listed
  obtain ⟨within, listed', fewer⟩ := turn_within here followed
  have pairs : List.Forall₂ Locker.Listed ((front ++ behind).map LockerSlot.thread)
      (before ++ after) := by
    rw [List.map_append]
    exact List.rel_append first last
  have others : ∀ other ∈ before ++ after, other.uid ≠ dir.uid ∧ ∀ conn ∈ slot.ids,
      other.names conn = false := by
    intro other member
    obtain ⟨thread, inside, listed⟩ := forall₂_mem pairs member
    obtain ⟨slot', old, rfl⟩ := List.mem_map.mp inside
    have disjoint := apart_slots kept.apart whole slot' old
    refine ⟨fun same => disjoint (listed_uid here) (same ▸ listed_uid listed), ?_⟩
    intro conn mine
    by_contra named
    exact disjoint mine (listed_names listed (by simpa using named))
  have ran : tree.run (daemonLockerCalls daemon front.length event) = ⟨tree.incubator, before ++
      dir.run (lockerVfsCalls slot.thread.control slot.thread.resource (slot.calls event)) ::
        after⟩ := by
    rw [calls, ← run_within tree.incubator within others, ← dirs]
  rw [ran]
  refine ⟨?_, ?_, ?_, ?_⟩
  · rw [conns]
    exact kept.incubator
  · rw [conns]
    exact kept.opened
  · dsimp only
    rw [turned, List.map_append, List.map_cons]
    exact List.rel_append first (.cons listed' last)
  · have same : ∀ groups : List (List ConnId),
        List.Forall₂ (fun group group' => group' ⊆ group) groups groups :=
      fun groups => List.forall₂_same.mpr fun group _ => List.Subset.refl group
    have apart := kept.apart
    rw [Daemon.Apart, Daemon.groups, whole, List.map_append, List.map_cons] at apart
    rw [Daemon.Apart, Daemon.groups, turned, conns, List.map_append, List.map_cons]
    exact disjoint_shrink (List.rel_append (same _)
      (List.rel_append (same _) (.cons fewer (same _)))) apart

end

theorem kept_step {decode : Name → Name} {mounted : Mounted} {turn : Turn}
    (kept : mounted.daemon.running = true → mounted.Kept)
    (along : turn.Along decode (Recorded decode) LockerSlot.Followed mounted.daemon)
    (runs : (mountedStep decode mounted turn).daemon.running = true) :
    (mountedStep decode mounted turn).Kept := by
  obtain ⟨daemon, tree⟩ := mounted
  have running : daemon.running = true := running_of_step runs
  have begun := kept running
  have cleaned := kept_clean begun
  unfold mountedStep daemonStep at runs ⊢
  unfold daemonStepCalls
  dsimp only at along runs ⊢
  rw [if_pos running] at runs ⊢
  rw [if_pos running]
  cases turn with
  | poll revents closed =>
    have opened := turn_opened along
    simp only [Daemon.polls] at runs ⊢
    by_cases polls : connsSetEvents daemon.cleaned.conns = .ok
    · rw [if_pos polls] at runs ⊢
      rw [if_pos polls]
      unfold acceptLoopPoll at runs ⊢
      unfold acceptLoopPollCalls
      dsimp only at runs ⊢
      by_cases goes : (acceptLoopScan decode daemon.cleaned 0
        (revents.take daemon.cleaned.conns.length)).running = true
      · rw [if_pos goes, if_pos goes, run_append]
        exact kept_check (kept_scan cleaned opened goes) closed
      · rw [if_neg goes] at runs
        exact absurd runs goes
    · rw [if_neg polls] at runs
      cases runs
  | timeout waited closed =>
    simp only [Daemon.polls] at runs ⊢
    by_cases polls : connsSetEvents daemon.cleaned.conns = .ok
    · rw [if_pos polls] at runs ⊢
      rw [if_pos polls]
      unfold acceptLoopTimeout at runs ⊢
      unfold acceptLoopTimeoutCalls
      by_cases none : daemon.cleaned.lockers.isEmpty = true
      · rw [if_pos none] at runs ⊢
        rw [if_pos none]
        split_ifs at runs ⊢
        exact cleaned
      · rw [if_neg none, if_neg none]
        exact kept_check cleaned closed
    · rw [if_neg polls] at runs
      cases runs
  | locker locker event =>
    cases present : daemon.lockers[locker]? with
    | none =>
      simp only [daemonLocker, daemonLockerCalls, present]
      exact begun
    | some slot => exact kept_turn begun present (along slot present)

theorem start_kept (multicast tlsCheckPeerId : Bool) :
    (mountedStart multicast tlsCheckPeerId).Kept := by
  cases multicast with
  | false =>
    exact ⟨List.Perm.refl _, by simp [mountedStart, daemonStart, waiters, connInit], .nil, by
      simp [mountedStart, Daemon.Apart, Daemon.groups, daemonStart]⟩
  | true =>
    exact ⟨List.Perm.refl _, by simp [mountedStart, daemonStart, waiters, connInit], .nil, by
      simp [mountedStart, Daemon.Apart, Daemon.groups, daemonStart, connInit]⟩

theorem vfs_mirrors (decode : Name → Name) (multicast tlsCheckPeerId : Bool) (turns : List Turn)
    (followed : Run.Along (mountedStep decode)
      (fun mounted turn => turn.Along decode (Recorded decode) LockerSlot.Followed mounted.daemon)
      (mountedStart multicast tlsCheckPeerId) turns)
    (runs : (Run.run (mountedStep decode) (mountedStart multicast tlsCheckPeerId)
      turns).daemon.running = true) :
    (Run.run (mountedStep decode) (mountedStart multicast tlsCheckPeerId) turns).Mirrors := by
  have kept := Run.along_invariant _ _
      (fun mounted : Mounted => mounted.daemon.running = true → mounted.Kept)
    (fun _ _ kept along => kept_step kept along) _ turns
    (fun _ => start_kept multicast tlsCheckPeerId) followed
  exact (kept runs).mirrors

def sweptTurns : List Turn :=
  [joinTurn 2, requestTurn [.quiet] ['5'] ['0'], joinTurn 3,
    requestTurn [.quiet, .quiet] ['5'] ['1'],
    readTurn, readTurn]

def leavingTurn (sends : List Rc) : Turn :=
  .locker 0
    (.ready [Ready.idle, { Ready.idle with
    hup := true, cleanEnv := { Env.fine with sends := sends } }])

theorem vfs_mirrors_promoted :
    let reached :=
      Run.run (mountedStep decodeFive) (mountedStart false false) (sweptTurns ++ [leavingTurn []])
    reached.tree = ⟨[], [⟨9, [2], []⟩]⟩ ∧ reached.daemon.running = true ∧ reached.Mirrors := by
  intro reached
  have followed : Run.Along (mountedStep decodeFive)
      (fun mounted turn => turn.Along decodeFive
        (fun daemon id revents =>
          (∀ conn ∈ daemon.conns[id]?, conn.wait = true → revents.hup = false ∧
            revents.pollin = false) ∧
          (id = 0 → ∀ conn ∈ revents.accept.accepted, daemon.unnamed conn) ∧
          (revents.accept.arrival.isBytes = true → daemon.unnamed revents.accept.control))
        LockerSlot.Followed mounted.daemon)
      (mountedStart false false) (sweptTurns ++ [leavingTurn []]) := by
    decide
  refine ⟨by decide, by decide,
    vfs_mirrors decodeFive false false _ (Run.along_imp ?_ followed) (by decide)⟩
  intro mounted turn
  refine Turn.Along.imp (fun daemon id revents entry => ?_) fun _ _ quiet => quiet
  obtain ⟨silent, joins, starts⟩ := entry
  refine ⟨fun conn present waits => ?_, joins, fun conn name resource requested => starts ?_⟩
  · obtain ⟨hup, pollin⟩ := silent conn present waits
    exact ⟨hup, fun polled => absurd polled (by simp [pollin])⟩
  · obtain ⟨_, _, feed, _, arrived, _⟩ := requested.heard
    rw [arrived]
    rfl

-- A client hangs up in the incubator; a client in the queue cannot be told of its lock; a client
-- locks twice.
theorem vfs_stale :
    let reached (turns : List Turn) :=
      Run.run (mountedStep decodeFive) (mountedStart false false) turns
    let hungUp := reached [joinTurn 2, requestTurn [.quiet] ['1'] ['0'],
      .poll [.quiet, { Revents.quiet with hup := true }] [], joinTurn 3]
    let untold := reached (sweptTurns ++ [leavingTurn [.sendError]])
    let twice := reached [joinTurn 2, requestTurn [.quiet] ['1'] ['1'], readTurn,
      .locker 0 (.ready [Ready.idle,
        { Ready.idle with
          pollin := true
          received := .data .ok (msgDeserialize decodeFive (requestFeed ['1'] ['1']) msgInit).2 }])]
    (hungUp.tree = ⟨[2], []⟩ ∧ hungUp.daemon.incubated = [] ∧ hungUp.daemon.running = true ∧
      ¬hungUp.Mirrors) ∧
      (untold.tree = ⟨[], [⟨9, [3], [2]⟩]⟩ ∧
        untold.daemon.lockers.map
          (fun slot => slot.thread.resource.holding ++ slot.thread.resource.waiting) = [[]] ∧
        untold.daemon.running = true ∧ ¬untold.Mirrors) ∧
      twice.tree = ⟨[], [⟨9, [2, 2], []⟩]⟩ ∧ twice.daemon.running = true ∧ ¬twice.Mirrors := by
  intro reached hungUp untold twice
  have unlisted : ∀ {mounted : Mounted} {dir : VfsLocker}, mounted.tree.lockers = [dir] →
      (∀ slot ∈ mounted.daemon.lockers, ¬dir.Lists slot.thread.resource.holding
        slot.thread.resource.waiting) →
      ¬mounted.Mirrors := by
    intro mounted dir single never mirrors
    obtain ⟨thread, member, listed⟩ := forall₂_mem mirrors.lockers
      (single ▸ List.mem_singleton_self dir)
    obtain ⟨slot, inside, rfl⟩ := List.mem_map.mp member
    exact never slot inside listed.2
  refine ⟨⟨by decide, by decide, by decide, fun mirrors => ?_⟩,
    ⟨by decide, by decide, by decide, ?_⟩, by decide,
    by decide, ?_⟩
  · exact absurd mirrors.incubator.length_eq (by decide)
  · have free : ∀ slot ∈ untold.daemon.lockers, slot.thread.resource.holding.length ≠ 1 := by decide
    exact @unlisted untold ⟨9, [3], [2]⟩ (by decide) fun slot member lists =>
      free slot member lists.holders.symm.length_eq
  · have double : ∀ slot ∈ twice.daemon.lockers,
        ¬(slot.thread.resource.holding ++ slot.thread.resource.waiting).Nodup := by
      decide
    exact @unlisted twice ⟨9, [2, 2], []⟩ (by decide) fun slot member lists =>
      double slot member lists.once

end Flom
