import Flom.Incubator
import Flom.LockerInput

set_option autoImplicit false

namespace Flom

open Lists

def Msg.locksOwn (msg : Msg) (resource : Resource) : Bool :=
  msg.lock8.name.any (resourceCompareName resource)

def Received.parsed : Received → Option Msg
  | .data rc msg => if rc = .ok then some msg else none
  | .failed _ => none

def Ready.namesOwn (locker : Locker) (id : Nat) (ready : Ready) : Prop :=
  id ≠ 0 → ready.err = false → ready.pollin = true →
    ∀ msg ∈ ready.received.parsed, msg.verb = .lock → msg.locksOwn locker.resource = true

instance namesOwnDecidable (locker : Locker) (id : Nat) (ready : Ready) :
    Decidable (ready.namesOwn locker id) :=
  inferInstanceAs (Decidable (_ → _ → _ → ∀ msg ∈ ready.received.parsed, msg.verb = .lock →
    msg.locksOwn locker.resource = true))

def Routed (locker : Locker) (id : Nat) (ready : Ready) : Prop :=
  ∀ conn ∈ lockerInput locker id ready, conn.msg.verb = .lock →
    conn.msg.locksOwn locker.resource = true

instance routedDecidable (locker : Locker) (id : Nat) (ready : Ready) :
    Decidable (Routed locker id ready) :=
  inferInstanceAs (Decidable (∀ conn ∈ lockerInput locker id ready, _ → _))

theorem lockerInput_arrived {locker : Locker} {id : Nat} {ready : Ready} {conn : Conn}
    (input : conn ∈ lockerInput locker id ready) :
    ready.err = false ∧ ready.pollin = true ∧ lockerArrived locker id ready = some conn := by
  unfold lockerInput at input
  split_ifs at input with polled
  · exact ⟨polled.1, polled.2, (Option.filter_eq_some_iff.mp input).1⟩
  · cases input

theorem dataArrived_msg {conn arrived : Conn} {rc : Rc} {msg : Msg} {closed : Bool}
    (found : dataArrived conn rc msg closed = some arrived) : rc = .ok ∧ arrived.msg = msg := by
  unfold dataArrived at found
  dsimp only at found
  split_ifs at found with parsed invalid terminated
  · obtain ⟨sockfd, same⟩ := connTerminate_snd { conn with lastStep := msg.step, msg := msg } closed
    rw [same] at found
    obtain rfl := Option.some.inj found
    exact ⟨parsed, rfl⟩
  · obtain rfl := Option.some.inj found
    exact ⟨parsed, rfl⟩

theorem lockerArrived_client {locker : Locker} {id : Nat} {ready : Ready} {arrived : Conn}
    (client : id ≠ 0) (found : lockerArrived locker id ready = some arrived) :
    ready.received.parsed = some arrived.msg := by
  obtain ⟨conn, rc, msg, _, received, opened⟩ := lockerArrived_data client found
  obtain ⟨rfl, rfl⟩ := dataArrived_msg opened
  rw [received]
  rfl

theorem lockerArrived_control {locker : Locker} {ready : Ready} {arrived : Conn}
    (found : lockerArrived locker 0 ready = some arrived) : ready.handed = some arrived := by
  unfold lockerArrived lockerRead at found
  split at found
  · cases found
  · rw [if_pos rfl] at found
    split_ifs at found
    exact found

theorem routed_client {locker : Locker} {id : Nat} {ready : Ready} (client : id ≠ 0)
    (own : ready.namesOwn locker id) : Routed locker id ready := by
  intro conn input lock
  obtain ⟨quiet, pollin, arrived⟩ := lockerInput_arrived input
  exact own client quiet pollin conn.msg (lockerArrived_client client arrived) lock

def Daemon.Carries (fits : Resource → Conn → Prop) (daemon : Daemon) : Prop :=
  ∀ slot ∈ daemon.lockers, ∀ token ∈ slot.pipe, fits slot.thread.resource token.conn

section

variable {fits : Resource → Conn → Prop} {daemon : Daemon}

theorem Daemon.Carries.same (carries : daemon.Carries fits) {after : Daemon}
    (same : after.lockers = daemon.lockers) : after.Carries fits := by
  unfold Daemon.Carries
  rw [same]
  exact carries

theorem Daemon.Carries.spend (carries : daemon.Carries fits) (locker : Nat) (conn : Conn) :
    (daemon.spend locker conn).Carries fits := by
  intro slot member
  obtain old | ⟨before, old, rfl⟩ := mem_modify member
  · exact carries slot old
  · exact carries before (List.mem_of_getElem? old)

theorem Daemon.Carries.push (carries : daemon.Carries fits) {locker : Nat} {slot : LockerSlot}
    {conn : Conn} (slotted : daemon.lockers[locker]? = some slot)
    (own : fits slot.thread.resource conn) :
    (daemon.push locker conn).Carries fits := by
  intro other member
  rw [Daemon.push, modify_present _ slotted] at member
  obtain old | rfl := List.mem_or_eq_of_mem_set member
  · exact carries other old
  · intro token inside
    obtain earlier | last := List.mem_append.mp inside
    · exact carries slot (List.mem_of_getElem? slotted) token earlier
    · obtain rfl := List.mem_singleton.mp last
      exact own

def Hands (decode : Name → Name) (fits : Resource → Conn → Prop) (daemon : Daemon) (id : Nat)
    (revents : Revents) : Prop :=
  revents.pollin = true → (id ≠ 0 → revents.hup = false) → ∀ reached position locker slot conn,
    Moves decode daemon id revents.accept reached position locker conn →
    reached.lockers[locker]? = some slot →
    fits slot.thread.resource { conn with state := .locker }

theorem carries_serve {decode : Name → Name} {id : Nat} {revents : Revents}
    (carries : daemon.Carries fits) (hands : Hands decode fits daemon id revents) :
    (acceptLoopServe decode daemon id revents).daemon.Carries fits := by
  by_cases unread : revents.pollin = false ∨ revents.hup = true ∧ id ≠ 0
  · obtain same | ⟨_, same⟩ := @acceptLoopServe_unread decode daemon id revents unread
    · rwa [same]
    · rw [same]
      exact carries.same rfl
  · obtain ⟨pollin, hup⟩ := not_or.mp unread
    refine acceptLoopServe_invariant daemon id revents carries fun reached act carries legal => ?_
    cases legal with
    | close closed => exact carries.same rfl
    | join conn => exact carries.same rfl
    | parse conn => exact carries.same rfl
    | garble conn => exact carries.same rfl
    | answer conn => exact carries.same rfl
    | start conn name resource =>
      intro slot member
      obtain old | new := List.mem_append.mp member
      · exact carries slot old
      · obtain rfl := List.mem_singleton.mp new
        simp
    | spend position locker conn => exact carries.spend locker conn
    | drop position locker conn => exact (carries.spend locker conn).same rfl
    | hand position locker conn moves =>
      obtain ⟨slot, slotted⟩ := moves.slotted
      have spent : ((reached.spend locker conn).remove position).Carries fits :=
        (carries.spend locker conn).same rfl
      refine spent.push (spend_slotted slotted conn) ?_
      exact hands (by simpa using pollin) (fun client => by simpa [client] using hup) reached
        position locker slot conn moves slotted

theorem carries_check (carries : daemon.Carries fits) (closed : List Bool) :
    Daemon.Carries fits
      { daemon with lockers := (acceptLoopChklockers daemon.lockers closed).2 } := by
  obtain ⟨kept, shorter, checked⟩ := acceptLoopChklockers_checked daemon.lockers closed
  intro slot' member
  obtain ⟨slot, old, here⟩ := forall₂_mem checked member
  have own := carries slot (shorter.subset old)
  cases here with
  | kept => exact own
  | retired => exact own

theorem turn_pipe (slot : LockerSlot) (event : PollEvent) : (slot.turn event).pipe ⊆ slot.pipe := by
  simp only [LockerSlot.turn]
  split_ifs
  · exact List.tail_subset _
  · exact List.Subset.refl _

theorem carries_turn (stable : ∀ (before after : Resource) conn, after.key = before.key →
      fits before conn → fits after conn) (carries : daemon.Carries fits) {locker : Nat}
    {slot : LockerSlot} {event : PollEvent} (present : daemon.lockers[locker]? = some slot) :
    (daemonLocker daemon locker event).Carries fits := by
  unfold Daemon.Carries
  rw [daemonLocker_lockers present]
  intro other member
  obtain old | rfl := List.mem_or_eq_of_mem_set member
  · exact carries other old
  · intro token inside
    have key : (slot.turn event).thread.resource.key = slot.thread.resource.key :=
      lockerStep_key { slot.thread with mail := [] } _
    exact stable _ _ _ key (carries slot (List.mem_of_getElem? present) token
      (turn_pipe slot event inside))

theorem carries_step {decode : Name → Name} {turn : Turn} {quiet : LockerSlot → PollEvent → Prop}
    (stable : ∀ (before after : Resource) conn, after.key = before.key → fits before conn →
      fits after conn) (carries : daemon.Carries fits)
    (hands : turn.Along decode (Hands decode fits) quiet daemon) :
    (daemonStep decode daemon turn).Carries fits := by
  refine daemonStep_invariant ?_ ?_ ?_ ?_ ?_ daemon turn carries hands
  · exact fun _ carries => carries.same rfl
  · exact fun _ _ _ carries hands => carries_serve carries hands
  · exact fun _ carries => carries.same rfl
  · exact fun _ closed carries => carries_check carries closed
  · exact fun _ _ _ _ carries present _ => carries_turn stable carries present

end

def Daemon.Addressed (daemon : Daemon) : Prop :=
  ∀ slot ∈ daemon.lockers, ∀ token ∈ slot.pipe, token.conn.msg.locksOwn slot.thread.resource = true

section

variable {daemon : Daemon}

theorem hands_addressed {decode : Name → Name} {id : Nat} {revents : Revents} :
    Hands decode (fun resource conn => conn.msg.locksOwn resource = true) daemon id revents := by
  intro _ _ reached position locker slot conn moves here
  cases moves with
  | route locker standing conn name heard present requests slotted manages =>
    obtain rfl := Option.some.inj (slotted.symm.trans here)
    simp only [LockerSlot.manages, Bool.and_eq_true] at manages
    simpa [Msg.locksOwn, requests.2.2.2.2] using manages.2
  | hatch position locker standing conn requester name behind present other slotted piped starts
      waits =>
    obtain rfl := Option.some.inj (slotted.symm.trans here)
    simp only [Conn.waitsFor, Bool.and_eq_true] at waits
    exact waits.2

theorem addressed_step {decode : Name → Name} {turn : Turn} (addressed : daemon.Addressed) :
    (daemonStep decode daemon turn).Addressed := by
  refine @carries_step (fun resource conn => conn.msg.locksOwn resource = true) daemon decode turn
    (fun _ _ => True) ?_ addressed ?_
  · intro before after conn key own
    have same : resourceCompareName after = resourceCompareName before := by
      funext name
      rw [resourceCompareName_key, resourceCompareName_key, key]
    rwa [Msg.locksOwn, same]
  · cases turn with
    | poll revents closed => exact Run.scanAlong_of_forall fun _ _ _ => hands_addressed
    | timeout waited closed => trivial
    | locker locker event => exact fun _ _ => trivial

theorem routed_turn {slot : LockerSlot} {event : PollEvent} (addressed : daemon.Addressed)
    (member : slot ∈ daemon.lockers)
    (own : slot.Serves (fun locker id ready => ready.namesOwn locker id) event) :
    slot.Serves Routed event := by
  refine PollEvent.Serves.imp (fun locker id ready client => routed_client client) ?_ own
  intro ready handed conn input _
  have found := lockerArrived_control (lockerInput_arrived input).2.2
  rw [handed] at found
  obtain ⟨token, first, rfl⟩ := Option.map_eq_some_iff.mp found
  exact addressed slot member token (List.mem_of_mem_head? first)

end

theorem locks_routed (decode : Name → Name) (multicast tlsCheckPeerId : Bool) (turns : List Turn)
    (own : Run.Along (daemonStep decode)
      (fun daemon turn => turn.Along decode (fun _ _ _ => True)
        (LockerSlot.Serves fun locker id ready => ready.namesOwn locker id) daemon)
      (daemonStart multicast tlsCheckPeerId) turns) :
    Run.Along (daemonStep decode)
      (fun daemon turn => turn.Along decode (fun _ _ _ => True) (LockerSlot.Serves Routed) daemon)
      (daemonStart multicast tlsCheckPeerId) turns := by
  refine Run.along_with Daemon.Addressed (fun _ _ addressed _ => addressed_step addressed) ?_ ?_ own
  · intro daemon turn addressed along
    cases turn with
    | poll revents closed => exact along
    | timeout waited closed => trivial
    | locker locker event =>
      exact fun slot present => routed_turn addressed (List.mem_of_getElem? present)
        (along slot present)
  · simp [Daemon.Addressed, daemonStart]

def lockAgain (name : Name) : List Turn :=
  [joinTurn 2, requestTurn [.quiet] ['9'] ['1'], readTurn,
    .locker 0 (.ready [Ready.idle,
      { Ready.idle with pollin := true, received := .data .ok (msgLock name .ex 1 1 1) }])]

theorem locks_routed_again :
    (Run.run (daemonStep decodeFive) (daemonStart false false)
        (lockAgain ['x', '[', '5', ']'])).lockers.map (·.thread.resource.holding) = [[2]] ∧
      Run.Along (daemonStep decodeFive)
        (fun daemon turn => turn.Along decodeFive (fun _ _ _ => True)
          (LockerSlot.Serves Routed) daemon)
        (daemonStart false false) (lockAgain ['x', '[', '5', ']']) := by
  refine ⟨by decide, locks_routed decodeFive false false _ ?_⟩
  decide

-- The locker of x[5] grants a LOCK of y[9].
theorem foreign_lock_granted :
    (Run.run (daemonStep decodeFive) (daemonStart false false)
        (lockAgain ['y', '[', '9', ']'])).lockers.map
          (fun slot => (resourceCompareName slot.thread.resource ['y', '[', '9', ']'],
            slot.thread.resource.holding)) =
        [(false, [2])] ∧
      ¬Run.Along (daemonStep decodeFive)
        (fun daemon turn => turn.Along decodeFive (fun _ _ _ => True)
          (LockerSlot.Serves Routed) daemon)
        (daemonStart false false) (lockAgain ['y', '[', '9', ']']) := by
  decide

end Flom
