import Flom.DaemonLockers
import Flom.LockKept

set_option autoImplicit false

namespace Flom

open Lists

structure Locker.Lends (client : ConnId) (lent : Resource) (locker : Locker) : Prop where
  running : locker.running = true
  serves : locker.serves client
  apart : client ≠ locker.control
  unqueued : client ∉ locker.resource.waiting
  key : locker.resource.key = lent.key
  kept : lent.Kept locker.resource client

def Daemon.Lends (client : ConnId) (lent : Resource) (daemon : Daemon) : Prop :=
  ∃ slot ∈ daemon.lockers, slot.thread.Lends client lent

def LockerSlot.Spares (client : ConnId) (slot : LockerSlot) (event : PollEvent) : Prop :=
  slot.thread.serves client →
    slot.thread.Quiet client (event.piped (slot.pipe.head?.map Token.conn)) ∧
    (slot.turn event).thread.running = true

section

variable {client : ConnId} {lent : Resource} {slot : LockerSlot} {daemon : Daemon}

theorem turn_lends {event : PollEvent} (lends : slot.thread.Lends client lent)
    (spares : slot.Spares client event) :
    (slot.turn event).thread.Lends client lent := by
  obtain ⟨quiet, runs⟩ := spares lends.serves
  obtain ⟨kept, unqueued⟩ := @lockerStep_kept { slot.thread with mail := [] } client _
    ⟨quiet.hushed, quiet.joins⟩ lends.unqueued
  have serves := (@lockerStep_spares { slot.thread with mail := [] } client _
    ⟨quiet.hushed, quiet.joins⟩).2 lends.serves runs
  have same : (slot.turn event).thread.control = slot.thread.control := by
    obtain seats | ⟨left, same, gone⟩ := @lockerStep_seats
      { slot.thread with mail := [] } lends.running (event.piped (slot.pipe.head?.map Token.conn))
    · exact seats.control
    · exact (congrArg Locker.control gone).trans same.control
  exact ⟨runs, serves, same ▸ lends.apart, unqueued,
    (lockerStep_key { slot.thread with mail := [] } _).trans lends.key, lends.kept.trans kept⟩

theorem alone_serves {locker : Locker} (alone : locker.alone) (serves : locker.serves client) :
    client = locker.control := by
  obtain ⟨conn, member, rfl, _⟩ := serves
  exact alone.2 conn member

theorem busy_of_serves (sound : slot.Sound) (serves : slot.thread.serves client)
    (apart : client ≠ slot.thread.control) :
    slot.thread.idlePeriods = 0 := by
  by_contra idle
  exact apart (alone_serves (sound.lonely (Nat.pos_of_ne_zero idle)) serves)

theorem acceptLoopChklockers_busy {slots : List LockerSlot} (closed : List Bool)
    (member : slot ∈ slots) (busy : slot.thread.idlePeriods = 0) :
    slot ∈ (acceptLoopChklockers slots closed).2 := by
  induction slots generalizing closed with
  | nil => cases member
  | cons first rest ih =>
    have later (flags : List Bool) (behind : slot ∈ rest) :
      slot ∈ (acceptLoopChklockers rest flags).2 := ih flags behind
    rw [acceptLoopChklockers]
    obtain rfl | behind := List.mem_cons.mp member
    · rw [if_neg (by simp [busy])]
      exact List.mem_cons_self
    · split_ifs
      · exact List.mem_cons_of_mem _ (later _ behind)
      · exact member
      · exact List.mem_cons_of_mem _ (later _ behind)
      · exact behind
      · exact List.mem_cons_of_mem _ (later _ behind)

theorem act_threads (id : Nat) (act : Act) (member : slot ∈ daemon.lockers) :
    ∃ slot' ∈ (daemon.act id act).lockers, slot'.thread = slot.thread := by
  have modified {lockers : List LockerSlot} (index : Nat) (change : LockerSlot → LockerSlot)
      (same : ∀ other, (change other).thread = other.thread)
      (inside : ∃ slot' ∈ lockers, slot'.thread = slot.thread) :
      ∃ slot' ∈ lockers.modify index change, slot'.thread = slot.thread := by
    obtain ⟨slot', member', equal⟩ := inside
    obtain ⟨place, found⟩ := List.mem_iff_getElem?.mp member'
    have changed : (lockers.modify index change)[place]? = some
        (if index = place then change slot' else slot') := by
      rw [List.getElem?_modify, found]
      split_ifs <;> rfl
    refine ⟨_, List.mem_of_getElem? changed, ?_⟩
    split_ifs
    · exact (same slot').trans equal
    · exact equal
  have here : ∃ slot' ∈ daemon.lockers, slot'.thread = slot.thread := ⟨slot, member, rfl⟩
  cases act with
  | close closed | join conn | parse conn | garble conn | answer conn rc => exact here
  | start control resource => exact ⟨slot, List.mem_append_left _ member, rfl⟩
  | spend locker conn | drop position locker conn => exact modified locker _ (fun _ => rfl) here
  | hand position locker conn =>
    exact modified locker _ (fun _ => rfl) (modified locker _ (fun _ => rfl) here)

theorem lends_serve {decode : Name → Name} (lends : daemon.Lends client lent) (id : Nat)
    (revents : Revents) :
    (acceptLoopServe decode daemon id revents).daemon.Lends client lent := by
  refine acceptLoopServe_invariant daemon id revents lends fun reached act lends _ => ?_
  obtain ⟨slot, member, lent⟩ := lends
  obtain ⟨slot', member', same⟩ := act_threads id act member
  exact ⟨slot', member', same ▸ lent⟩

theorem lends_turn {locker : Nat} {slot : LockerSlot} {event : PollEvent}
    (lends : daemon.Lends client lent) (present : daemon.lockers[locker]? = some slot)
    (spares : slot.Spares client event) :
    (daemonLocker daemon locker event).Lends client lent := by
  obtain ⟨lender, member, holds⟩ := lends
  obtain ⟨place, found⟩ := List.mem_iff_getElem?.mp member
  rw [Daemon.Lends, daemonLocker_lockers present]
  by_cases here : locker = place
  · subst here
    obtain rfl := Option.some.inj (found.symm.trans present)
    exact ⟨lender.turn event, List.mem_set (List.getElem?_eq_some_iff.mp present).1 _,
      turn_lends holds spares⟩
  · have other : (daemon.lockers.set locker (slot.turn event))[place]? = some lender := by
      rwa [List.getElem?_set_ne here]
    exact ⟨lender, List.mem_of_getElem? other, holds⟩

def Turn.Spares (client : ConnId) (daemon : Daemon) : Turn → Prop
  | .locker index event => ∀ slot ∈ daemon.lockers[index]?, slot.Spares client event
  | .poll _ _ | .timeout _ _ => True

theorem lends_step {decode : Name → Name} {turn : Turn} (housed : daemon.Housed)
    (lends : daemon.Lends client lent) (keeps : (daemonStep decode daemon turn).keepsControl)
    (spares : turn.Spares client daemon) :
    (daemonStep decode daemon turn).Lends client lent := by
  by_cases running : daemon.running = true
  · have along : turn.Along decode (fun _ _ _ => True)
        (fun slot event => (slot.writePipe = true → (slot.turn event).thread.controlOpen) ∧
          slot.Spares client event)
        daemon := by
      have kept := keepsControl_along running keeps
      cases turn with
      | poll revents closed => exact kept
      | timeout waited closed => trivial
      | locker locker event => exact fun slot present => ⟨kept slot present, spares slot present⟩
    refine (@daemonStep_invariant decode (fun reached => reached.Housed ∧ reached.Lends client lent)
      _ _ ?_ ?_ ?_ ?_ ?_ daemon turn ⟨housed, lends⟩ along).2
    · exact fun _ both => ⟨both.1.same rfl, both.2⟩
    · exact fun _ id revents both _ =>
        ⟨housed_serve both.1 id revents, lends_serve both.2 id revents⟩
    · exact fun _ both => ⟨both.1.same rfl, both.2⟩
    · rintro reached closed ⟨housed, slot, member, lends⟩
      refine ⟨housed_check housed closed, slot, ?_, lends⟩
      exact acceptLoopChklockers_busy closed member
        (busy_of_serves (housed.sound slot member) lends.serves lends.apart)
    · exact fun _ _ _ _ both present quiet =>
        ⟨housed_turn both.1 present quiet.1, lends_turn both.2 present quiet.2⟩
  · unfold daemonStep
    rw [if_neg running]
    exact lends

theorem lends_run {decode : Name → Name} {turns : List Turn} (housed : daemon.Housed)
    (lends : daemon.Lends client lent)
    (along : Run.Along (daemonStep decode)
      (fun daemon turn => (daemonStep decode daemon turn).keepsControl) daemon turns)
    (spared :
      Run.Along (daemonStep decode) (fun daemon turn => turn.Spares client daemon) daemon turns) :
    (Run.run (daemonStep decode) daemon turns).Lends client lent := by
  induction turns generalizing daemon with
  | nil => exact lends
  | cons turn rest ih =>
    exact ih (housed_step housed along.1) (lends_step housed lends along.1 spared.1) along.2
      spared.2

end

theorem housed_run {decode : Name → Name} {multicast tlsCheckPeerId : Bool} {turns : List Turn}
    (along : Run.Along (daemonStep decode)
      (fun daemon turn => (daemonStep decode daemon turn).keepsControl)
      (daemonStart multicast tlsCheckPeerId) turns) :
    (Run.run (daemonStep decode) (daemonStart multicast tlsCheckPeerId) turns).Housed := by
  apply Run.along_invariant _ _ Daemon.Housed (fun _ _ => housed_step) _ turns ?_ along
  exact ⟨by simp [daemonStart], .nil⟩

theorem held_lock_stays (decode : Name → Name) (multicast tlsCheckPeerId : Bool)
    (earlier later : List Turn) (client : ConnId) (slot : LockerSlot)
    (along : Run.Along (daemonStep decode)
      (fun daemon turn => (daemonStep decode daemon turn).keepsControl)
      (daemonStart multicast tlsCheckPeerId) (earlier ++ later))
    (here : slot ∈ (Run.run (daemonStep decode)
      (daemonStart multicast tlsCheckPeerId) earlier).lockers)
    (running : slot.thread.running = true) (serves : slot.thread.serves client)
    (apart : client ≠ slot.thread.control) (unqueued : client ∉ slot.thread.resource.waiting)
    (spared : Run.Along (daemonStep decode) (fun daemon turn => turn.Spares client daemon)
      (Run.run (daemonStep decode) (daemonStart multicast tlsCheckPeerId) earlier) later) :
    ∃ slot' ∈ (Run.run (daemonStep decode) (daemonStart multicast tlsCheckPeerId)
      (earlier ++ later)).lockers,
      slot'.thread.running = true ∧ slot'.thread.serves client ∧
        slot'.thread.resource.key = slot.thread.resource.key ∧
        client ∉ slot'.thread.resource.waiting ∧
        slot.thread.resource.Kept slot'.thread.resource client := by
  obtain ⟨before, after⟩ := Run.along_append.mp along
  have lends : Daemon.Lends client slot.thread.resource _ :=
    ⟨slot, here, running, serves, apart, unqueued, rfl, Resource.kept_refl _ client⟩
  obtain ⟨slot', member, lent⟩ := lends_run (housed_run before) lends after spared
  rw [← Run.run_append] at member
  exact ⟨slot', member, lent.running, lent.serves, lent.key, lent.unqueued, lent.kept⟩

instance clientServedDecidable (locker : Locker) (client : ConnId) :
    Decidable (locker.serves client) :=
  inferInstanceAs (Decidable (∃ conn ∈ locker.conns, conn.id = client ∧ conn.state ≠ .remove))

instance silentDecidable (ready : Ready) : Decidable ready.silent :=
  inferInstanceAs (Decidable (_ ∧ _ ∧ _))

theorem hushed_iff {locker : Locker} {client : ConnId} {id : Nat} {revents : List Ready} :
    locker.hushed client id revents ↔
      ∀ pair ∈ (locker.conns.drop id).zip revents, pair.1.id = client → pair.2.silent := by
  constructor
  · intro hushed pair member
    obtain ⟨position, found⟩ := List.mem_iff_getElem?.mp member
    obtain ⟨present, entry⟩ := List.getElem?_zip_eq_some.mp found
    rw [List.getElem?_drop] at present
    exact fun same => hushed position pair.1 pair.2 present same entry
  · intro pairs position conn ready present same entry
    refine pairs (conn, ready) (List.mem_of_getElem? (i := position) ?_) same
    rw [List.getElem?_zip_eq_some, List.getElem?_drop]
    exact ⟨present, entry⟩

instance hushedDecidable (locker : Locker) (client : ConnId) (id : Nat) (revents : List Ready) :
    Decidable (locker.hushed client id revents) :=
  decidable_of_iff _ hushed_iff.symm

theorem quiet_iff {locker : Locker} {client : ConnId} {event : PollEvent} :
    locker.Quiet client event ↔
      (match event with
        | .ready revents => locker.cleaned.hushed client 0 revents
        | _ => True) ∧ ∀ conn ∈ locker.cleaned.admitted event, conn.id ≠ client := by
  constructor
  · intro quiet
    cases event with
    | failed | timeout env => exact ⟨trivial, quiet.joins⟩
    | ready revents => exact ⟨quiet.hushed revents rfl, quiet.joins⟩
  · rintro ⟨hushed, joins⟩
    refine ⟨?_, joins⟩
    rintro revents rfl
    exact hushed

instance quietDecidable (locker : Locker) (client : ConnId) (event : PollEvent) :
    Decidable (locker.Quiet client event) :=
  match event with
  | .failed | .timeout _ | .ready _ => decidable_of_iff _ quiet_iff.symm

instance sparesDecidable (client : ConnId) (slot : LockerSlot) (event : PollEvent) :
    Decidable (slot.Spares client event) :=
  inferInstanceAs (Decidable (_ → _ ∧ _))

instance turnSparesDecidable (client : ConnId) (daemon : Daemon) (turn : Turn) :
    Decidable (turn.Spares client daemon) :=
  match turn with
  | .locker index event =>
    inferInstanceAs (Decidable (∀ slot ∈ daemon.lockers[index]?, slot.Spares client event))
  | .poll _ _ | .timeout _ _ => isTrue trivial

def besideTurns : List Turn :=
  [joinTurn 3, requestTurn [.quiet] ['1'] ['1'], readTurn,
    .locker 0 (.ready [Ready.idle, Ready.idle, { Ready.idle with hup := true }])]

theorem held_lock_stays_beside :
    let earlier := [joinTurn 2, requestTurn [.quiet] ['1'] ['1'], readTurn]
    let reached := Run.run (daemonStep decodeFive) (daemonStart false false) earlier
    ∃ slot : LockerSlot, reached.lockers = [slot] ∧ slot.thread.resource.holding = [2] ∧
      ∃ slot' ∈ (Run.run (daemonStep decodeFive) (daemonStart false false)
        (earlier ++ besideTurns)).lockers,
        slot'.thread.running = true ∧ slot'.thread.serves 2 ∧
          slot'.thread.resource.key = slot.thread.resource.key ∧ 2 ∉ slot'.thread.resource.waiting ∧
          slot.thread.resource.Kept slot'.thread.resource 2 := by
  intro earlier reached
  refine ⟨_, rfl, by decide, ?_⟩
  exact held_lock_stays decodeFive false false earlier besideTurns 2 _ (by decide)
    (List.mem_singleton_self _) (by decide) (by decide) (by decide) (by decide) (by decide)

end Flom
