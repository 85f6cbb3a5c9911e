import Flom.DaemonMoves
import Flom.LockerControl

set_option autoImplicit false

namespace Flom

open Lists

section

variable {locker : Locker} {ready : Ready}

theorem lockerHup_pipe (bound : 0 < locker.conns.length) (hup : ready.hup = true)
    (closed : ready.closed = true) :
    ∃ after : Locker, lockerHup locker 0 ready = ⟨.again, after⟩ ∧ ¬after.controlOpen := by
  have present := List.getElem?_eq_getElem bound
  refine ⟨(lockerClose locker 0 ready.closed).2, ?_, ?_⟩
  · simp only [lockerHup, hup, if_true, lockerClose_ok bound closed]
  · rintro ⟨_, conn, first, _, state⟩
    simp only [lockerClose, connsCloseFd, present, List.getElem?_set_self bound] at first
    obtain rfl := Option.some.inj first
    exact state (connTerminate_state _ _)

theorem lockerServe_hangsUp (bound : 0 < locker.conns.length) (quiet : ready.err = false)
    (hup : ready.hup = true) (closed : ready.closed = true)
    (polled : ready.pollin = true → (lockerLoopPollin locker 0 ready).rc = .ok) :
    ∃ after : Locker, lockerServe locker 0 ready = ⟨.again, after⟩ ∧ ¬after.controlOpen := by
  unfold lockerServe
  simp only [quiet, Bool.false_eq_true, if_false]
  by_cases pollin : ready.pollin = true
  · have seats := @lockerLoopPollin_seats locker 0 ready quiet pollin
    have inside : 0 < (lockerLoopPollin locker 0 ready).locker.conns.length := by
      rw [← seats.conns.length_eq, Locker.admitting, List.length_append]
      omega
    obtain ⟨first, present⟩ : ∃ first, locker.conns[0]? = some first :=
      ⟨_, List.getElem?_eq_getElem bound⟩
    have single : (lockerLoopPollin locker 0 ready).refresh = false := by
      simp only [lockerLoopPollin, present, if_true, lockerHandover]
      split
      · exact lockerProcess_refresh _ _ _ _
      · rfl
    simp only [pollin, if_true, polled pollin, single, Bool.false_eq_true, if_false]
    exact lockerHup_pipe inside hup closed
  · simp only [pollin, Bool.false_eq_true, if_false]
    exact lockerHup_pipe bound hup closed

theorem hangsUp_closes {event : PollEvent} (hangs : locker.hangsUp event = true) :
    ¬(lockerStep locker event).controlOpen := by
  unfold Locker.hangsUp at hangs
  split at hangs
  · next first rest =>
    simp only [Bool.and_eq_true, Bool.not_eq_true', Bool.or_eq_true, decide_eq_true_eq,
      List.isEmpty_eq_false_iff] at hangs
    obtain ⟨⟨⟨⟨⟨⟨running, left⟩, polls⟩, quiet⟩, hup⟩, closed⟩, polled⟩ := hangs
    obtain ⟨count, length⟩ := Nat.exists_eq_add_one_of_ne_zero
      (fun zero => left (List.length_eq_zero_iff.mp zero))
    obtain ⟨after, served, shut⟩ := lockerServe_hangsUp (by omega) quiet hup closed
      fun pollin => polled.resolve_left (by simp [pollin])
    rw [lockerStep, if_pos running, if_neg left, if_pos polls, lockerPoll, length,
      List.take_succ_cons, lockerScan,
      served]
    exact shut
  · cases hangs

end

theorem lockerProcess_rc_mail (locker : Locker) (mail : List Mail) (id : Nat) (conn : Conn)
    (ready : Ready) :
    (lockerProcess { locker with mail := mail } id conn ready).rc =
    (lockerProcess locker id conn ready).rc := by
  unfold lockerProcess
  dsimp only
  split_ifs <;> first | rfl | (split <;> rfl)

theorem lockerLoopPollin_rc_mail (locker : Locker) (mail : List Mail) (ready : Ready) :
    (lockerLoopPollin { locker with mail := mail } 0 ready).rc =
    (lockerLoopPollin locker 0 ready).rc := by
  have same : ∀ idlePeriods,
      lockerRead { locker with mail := mail, idlePeriods := idlePeriods } ready =
      lockerRead { locker with idlePeriods := idlePeriods } ready := fun _ => rfl
  unfold lockerLoopPollin
  dsimp only
  cases locker.conns[0]? with
  | none => rfl
  | some first =>
    simp only [if_true, lockerHandover, same]
    cases lockerRead { locker with idlePeriods := 0 } ready with
    | none => rfl
    | some conn =>
      exact lockerProcess_rc_mail { locker with conns := locker.conns ++ [conn], idlePeriods := 0 }
        mail _ _ _

theorem hangsUp_mail (locker : Locker) (mail : List Mail) (event : PollEvent) :
    { locker with mail := mail }.hangsUp event = locker.hangsUp event := by
  unfold Locker.hangsUp
  split
  · next first _ =>
    have pollin := lockerLoopPollin_rc_mail locker.cleaned mail first
    rw [← pollin]
    rfl
  · rfl

structure LockerSlot.Sound (slot : LockerSlot) : Prop where
  ordered : (slot.pipe.map Token.sequence).Pairwise (· < ·)
  ahead : ∀ token ∈ slot.pipe, slot.readSequence < token.sequence ∧
    token.sequence ≤ slot.writeSequence
  caught : slot.readSequence ≤ slot.writeSequence
  lonely : 0 < slot.thread.idlePeriods → slot.thread.alone
  retired : slot.writePipe = false → slot.pipe = [] ∧ slot.thread.alone
  piped : slot.writePipe = true → slot.readPipe = true ∧ slot.thread.controlOpen

theorem started_sound (control : ConnId) (resource : Resource) :
    LockerSlot.Sound ⟨lockerStart control resource, true, true, 0, 0, []⟩ where
  ordered := .nil
  ahead := by simp
  caught := le_rfl
  lonely := fun idle => absurd idle (lt_irrefl 0)
  retired := by simp
  piped := fun _ => ⟨rfl, rfl, _, rfl, rfl, by simp [connInit]⟩

section

variable {slot : LockerSlot}

theorem spend_sound (sound : slot.Sound) : LockerSlot.Sound
    { slot with writeSequence := slot.writeSequence + 1 } := by
  refine ⟨sound.ordered, fun token member => ?_, sound.caught.trans (by simp), sound.lonely,
    sound.retired,
    sound.piped⟩
  obtain ⟨above, below⟩ := sound.ahead token member
  exact ⟨above, below.trans (by simp)⟩

theorem push_sound (sound : slot.Sound) (writing : slot.writePipe = true) (conn : Conn) :
    LockerSlot.Sound { slot with
      writeSequence := slot.writeSequence + 1
      pipe := slot.pipe ++ [⟨slot.writeSequence + 1, conn⟩] } := by
  refine ⟨?_, ?_, sound.caught.trans (by simp), sound.lonely, fun closed => ?_, sound.piped⟩
  · rw [List.map_append, List.pairwise_append]
    refine ⟨sound.ordered, List.pairwise_singleton _ _, ?_⟩
    intro earlier member later last
    obtain rfl := List.mem_singleton.mp last
    obtain ⟨token, inside, rfl⟩ := List.mem_map.mp member
    exact Int.lt_add_one_of_le (sound.ahead token inside).2
  · intro token member
    obtain inside | last := List.mem_append.mp member
    · obtain ⟨above, below⟩ := sound.ahead token inside
      exact ⟨above, below.trans (by simp)⟩
    · obtain rfl := List.mem_singleton.mp last
      exact ⟨Int.lt_add_one_of_le sound.caught, le_rfl⟩
  · exact Bool.noConfusion (writing.symm.trans closed)

theorem retire_sound (sound : slot.Sound) (read : slot.writeSequence = slot.readSequence)
    (idle : lockerMaxIdlePeriods < slot.thread.idlePeriods) :
    LockerSlot.Sound { slot with writePipe := false } := by
  have empty : slot.pipe = [] := by
    rw [List.eq_nil_iff_forall_not_mem]
    intro token member
    obtain ⟨above, below⟩ := sound.ahead token member
    omega
  refine ⟨sound.ordered, sound.ahead, sound.caught, sound.lonely, fun _ => ⟨empty, ?_⟩, by simp⟩
  exact sound.lonely (Nat.zero_lt_of_lt idle)

theorem checked_sound (sound : slot.Sound) {after : LockerSlot} (checked : slot.Checked after) :
    after.Sound := by
  cases checked with
  | kept => exact sound
  | retired read idle _ => exact retire_sound sound read idle

theorem single_alone (sound : slot.Sound) (single : slot.thread.cleaned.conns.length = 1) :
    slot.thread.cleaned.alone := by
  by_cases writing : slot.writePipe = true
  · obtain ⟨_, conn, first, same, _⟩ := cleaned_controlOpen (sound.piped writing).2
    exact Locker.alone_single single first same
  · exact cleaned_alone (sound.retired (by simpa using writing)).2

theorem admitted_empty (locker : Locker) (event : PollEvent) :
    locker.admitted (event.piped none) = [] := by
  cases event with
  | failed | timeout env => rfl
  | ready revents =>
    cases revents with
    | nil => rfl
    | cons first rest => simp [PollEvent.piped, Locker.admitted, Locker.admits]

theorem turn_sound {event : PollEvent} (sound : slot.Sound)
    (keeps : slot.writePipe = true → (slot.turn event).thread.controlOpen) :
    (slot.turn event).Sound := by
  have lonely : 0 < (slot.turn event).thread.idlePeriods → (slot.turn event).thread.alone :=
    @lockerStep_lonely { slot.thread with mail := [] } _ sound.lonely (single_alone sound)
  refine ⟨?_, ?_, ?_, lonely, ?_, ?_⟩
  · unfold LockerSlot.turn
    dsimp only
    split_ifs
    · exact sound.ordered.sublist ((List.tail_sublist slot.pipe).map _)
    · exact sound.ordered
  · unfold LockerSlot.turn
    dsimp only
    split_ifs
    · cases pipe : slot.pipe with
      | nil => simp
      | cons token later =>
        have ordered := sound.ordered
        have ahead := sound.ahead
        rw [pipe] at ordered ahead
        rw [List.map_cons, List.pairwise_cons] at ordered
        intro other member
        exact ⟨ordered.1 _ (List.mem_map_of_mem member),
          (ahead other (List.mem_cons_of_mem _ member)).2⟩
    · exact sound.ahead
  · unfold LockerSlot.turn
    dsimp only
    split_ifs
    · cases pipe : slot.pipe with
      | nil => exact sound.caught
      | cons token later => exact (sound.ahead token (by simp [pipe])).2
    · exact sound.caught
  · intro closed
    obtain ⟨empty, alone⟩ := sound.retired closed
    refine ⟨by simp [LockerSlot.turn, empty], ?_⟩
    apply @lockerStep_alone { slot.thread with mail := [] }
    · exact alone
    · rw [empty]
      exact admitted_empty _ event
  · intro writing
    refine ⟨?_, keeps writing⟩
    have still : slot.thread.hangsUp (event.piped (slot.pipe.head?.map Token.conn)) = false := by
      by_contra hangs
      rw [Bool.not_eq_false, ← hangsUp_mail slot.thread []] at hangs
      exact hangsUp_closes hangs (keeps writing)
    simp [LockerSlot.turn, still, (sound.piped writing).1]

end

structure LockerSlot.Ages (before after : LockerSlot) : Prop where
  key : after.thread.resource.key = before.thread.resource.key
  writePipe : after.writePipe = true → before.writePipe = true

theorem LockerSlot.ages_refl (slot : LockerSlot) : slot.Ages slot := ⟨rfl, fun writing => writing⟩

def LockerSlot.Apart (first second : LockerSlot) : Prop :=
  first.writePipe = true → second.writePipe = true →
    first.thread.resource.key ≠ second.thread.resource.key

theorem apart_ages {before after : List LockerSlot}
    (ages : List.Forall₂ LockerSlot.Ages before after) (apart : before.Pairwise LockerSlot.Apart) :
    after.Pairwise LockerSlot.Apart := by
  induction ages with
  | nil => exact .nil
  | @cons slot slot' rest rest' here later ih =>
    rw [List.pairwise_cons] at apart ⊢
    refine ⟨?_, ih apart.2⟩
    intro other' member writing writing'
    obtain ⟨other, old, aged⟩ := forall₂_mem later member
    rw [here.key]
    refine fun same => apart.1 other old (here.writePipe writing) (aged.writePipe writing') ?_
    exact same.trans aged.key

structure Daemon.Housed (daemon : Daemon) : Prop where
  sound : ∀ slot ∈ daemon.lockers, slot.Sound
  apart : daemon.lockers.Pairwise LockerSlot.Apart

section

variable {daemon : Daemon}

theorem Daemon.Housed.set (housed : daemon.Housed) {locker : Nat} {slot slot' : LockerSlot}
    (present : daemon.lockers[locker]? = some slot) (sound : slot'.Sound) (ages : slot.Ages slot')
    {after : Daemon} (changed : after.lockers = daemon.lockers.set locker slot') :
    after.Housed := by
  constructor
  · rw [changed]
    intro other member
    obtain old | rfl := List.mem_or_eq_of_mem_set member
    · exact housed.sound other old
    · exact sound
  · rw [changed]
    exact apart_ages (forall₂_set LockerSlot.ages_refl present ages) housed.apart

theorem Daemon.Housed.same (housed : daemon.Housed) {after : Daemon}
    (same : after.lockers = daemon.lockers) :
    after.Housed := by
  constructor
  · rw [same]
    exact housed.sound
  · rw [same]
    exact housed.apart

theorem Daemon.Housed.spend (housed : daemon.Housed) (locker : Nat) (conn : Conn) :
    (daemon.spend locker conn).Housed := by
  cases present : daemon.lockers[locker]? with
  | none => exact housed.same (modify_absent present)
  | some slot =>
    refine housed.set present (spend_sound (housed.sound slot (List.mem_of_getElem? present))) ?_
      (modify_present _ present)
    exact ⟨rfl, fun writing => writing⟩

theorem Daemon.Housed.hand (housed : daemon.Housed) {position locker : Nat} {slot : LockerSlot}
    (conn moved : Conn) (present : daemon.lockers[locker]? = some slot)
    (writing : slot.writePipe = true) :
    (((daemon.spend locker conn).remove position).push locker moved).Housed := by
  have sound := housed.sound slot (List.mem_of_getElem? present)
  refine housed.set present (push_sound sound writing moved) ⟨rfl, fun writing => writing⟩ ?_
  simp only [Daemon.push, Daemon.remove, modify_present _ (spend_slotted present conn)]
  rw [Daemon.spend, modify_present _ present, List.set_set]

theorem Daemon.Housed.start (housed : daemon.Housed) {name : Name} {resource : Resource}
    (control : ConnId) (free : daemon.unmanaged name)
    (init : resourceInit (rsrcGetType name) name = .ok resource) :
    (daemon.started control resource).Housed := by
  constructor
  · intro slot member
    obtain old | new := List.mem_append.mp member
    · exact housed.sound slot old
    · obtain rfl := List.mem_singleton.mp new
      exact started_sound control resource
  · refine List.pairwise_append.mpr ⟨housed.apart, List.pairwise_singleton _ _, ?_⟩
    intro slot old new member writing _ same
    obtain rfl := List.mem_singleton.mp member
    have compare : resourceCompareName slot.thread.resource name = true := by
      rw [resourceCompareName_key, same, ← resourceCompareName_key]
      exact resourceInit_compare init
    have reading := ((housed.sound slot old).piped writing).1
    rw [Daemon.unmanaged, List.findIdx?_eq_none_iff] at free
    have unmanaged := free slot old
    simp [LockerSlot.manages, writing, reading, compare] at unmanaged

theorem housed_serve {decode : Name → Name} (housed : daemon.Housed) (id : Nat)
    (revents : Revents) :
    (acceptLoopServe decode daemon id revents).daemon.Housed := by
  refine acceptLoopServe_invariant daemon id revents housed fun reached act housed legal => ?_
  cases legal with
  | close closed => exact housed.same rfl
  | join conn => exact housed.same rfl
  | parse conn => exact housed.same rfl
  | garble conn => exact housed.same rfl
  | answer conn => exact housed.same rfl
  | start conn name resource starts present lockers =>
    refine housed.start revents.accept.control ?_ starts.init
    rw [Daemon.unmanaged, lockers]
    exact starts.free
  | spend position locker conn => exact housed.spend locker conn
  | drop position locker conn => exact (housed.spend locker conn).same rfl
  | hand position locker conn moves =>
    cases moves with
    | route locker slot conn name heard present requests slotted manages =>
      refine housed.hand _ _ slotted ?_
      simp only [LockerSlot.manages, Bool.and_eq_true] at manages
      exact manages.1.1
    | hatch position locker slot conn requester name behind present other slotted piped =>
      exact housed.hand _ _ slotted piped.1

theorem housed_check (housed : daemon.Housed) (closed : List Bool) :
    Daemon.Housed { daemon with lockers := (acceptLoopChklockers daemon.lockers closed).2 } := by
  obtain ⟨kept, shorter, checked⟩ := acceptLoopChklockers_checked daemon.lockers closed
  constructor
  · intro slot' member
    obtain ⟨slot, old, here⟩ := forall₂_mem checked member
    exact checked_sound (housed.sound slot (shorter.subset old)) here
  · refine apart_ages (checked.imp ?_) (housed.apart.sublist shorter)
    intro slot slot' here
    cases here with
    | kept => exact slot.ages_refl
    | retired => exact ⟨rfl, by simp⟩

theorem daemonLocker_lockers {locker : Nat} {slot : LockerSlot} {event : PollEvent}
    (present : daemon.lockers[locker]? = some slot) :
    (daemonLocker daemon locker event).lockers = daemon.lockers.set locker (slot.turn event) := by
  simp only [daemonLocker, present]

theorem housed_turn (housed : daemon.Housed) {locker : Nat} {slot : LockerSlot} {event : PollEvent}
    (present : daemon.lockers[locker]? = some slot)
    (keeps : slot.writePipe = true → (slot.turn event).thread.controlOpen) :
    (daemonLocker daemon locker event).Housed := by
  refine housed.set present (turn_sound (housed.sound slot (List.mem_of_getElem? present)) keeps) ?_
    (daemonLocker_lockers present)
  exact ⟨lockerStep_key { slot.thread with mail := [] } _, fun writing => writing⟩

end

/-- No locker closes its connection zero before the daemon closes the pipe. -/
def Daemon.keepsControl (daemon : Daemon) : Prop :=
  ∀ slot ∈ daemon.lockers, slot.writePipe = true → slot.thread.controlOpen

instance keepsControlDecidable (daemon : Daemon) : Decidable daemon.keepsControl :=
  inferInstanceAs (Decidable (∀ _ ∈ _, _ → _))

theorem keepsControl_along {decode : Name → Name} {daemon : Daemon} {turn : Turn}
    (running : daemon.running = true) (keeps : (daemonStep decode daemon turn).keepsControl) :
    turn.Along decode (fun _ _ _ => True)
      (fun slot event => slot.writePipe = true → (slot.turn event).thread.controlOpen) daemon := by
  cases turn with
  | poll revents closed => exact Run.scanAlong_of_forall fun _ _ _ => trivial
  | timeout waited closed => trivial
  | locker locker event =>
    intro slot present
    obtain ⟨bound, _⟩ := List.getElem?_eq_some_iff.mp present
    refine keeps (slot.turn event) ?_
    simp only [daemonStep, running, if_true]
    rw [daemonLocker_lockers present]
    exact List.mem_set bound _

theorem housed_step {decode : Name → Name} {daemon : Daemon} {turn : Turn} (housed : daemon.Housed)
    (keeps : (daemonStep decode daemon turn).keepsControl) :
    (daemonStep decode daemon turn).Housed := by
  by_cases running : daemon.running = true
  · apply daemonStep_invariant
    · exact fun _ housed => housed.same rfl
    · exact fun _ id revents housed _ => housed_serve housed id revents
    · exact fun _ housed => housed.same rfl
    · exact fun _ closed housed => housed_check housed closed
    · exact fun _ _ _ _ housed present keeps => housed_turn housed present keeps
    · exact housed
    · exact keepsControl_along running keeps
  · unfold daemonStep
    rw [if_neg running]
    exact housed

theorem one_locker_per_resource (decode : Name → Name) (multicast tlsCheckPeerId : Bool)
    (turns : List Turn)
    (along : Run.Along (daemonStep decode)
      (fun daemon turn => (daemonStep decode daemon turn).keepsControl)
      (daemonStart multicast tlsCheckPeerId) turns) (i j : Nat) (first second : LockerSlot)
        (distinct : i ≠ j)
    (here : (Run.run (daemonStep decode) (daemonStart multicast tlsCheckPeerId) turns).lockers[i]? =
      some first)
    (there : (Run.run (daemonStep decode) (daemonStart multicast tlsCheckPeerId) turns).lockers[j]?
      = some second) (same : first.thread.resource.key = second.thread.resource.key) :
    ¬(first.writePipe = true ∧ first.readPipe = true ∧ second.writePipe = true ∧
      second.readPipe = true) ∧
      (first.thread.alone ∨ second.thread.alone) := by
  have housed : (Run.run (daemonStep decode) (daemonStart multicast tlsCheckPeerId)
      turns).Housed := by
    apply Run.along_invariant _ _ Daemon.Housed (fun _ _ => housed_step) _ turns ?_ along
    exact ⟨by simp [daemonStart], .nil⟩
  have apart : ¬(first.writePipe = true ∧ second.writePipe = true) := by
    rintro ⟨writing, writing'⟩
    obtain ⟨bound, rfl⟩ := List.getElem?_eq_some_iff.mp here
    obtain ⟨bound', rfl⟩ := List.getElem?_eq_some_iff.mp there
    have pairs := List.pairwise_iff_getElem.mp housed.apart
    obtain before | after := Nat.lt_or_gt_of_ne distinct
    · exact pairs i j bound bound' before writing writing' same
    · exact pairs j i bound' bound after writing' writing same.symm
  refine ⟨fun both => apart ⟨both.1, both.2.2.1⟩, ?_⟩
  by_cases writing : first.writePipe = true
  · right
    have closed : second.writePipe = false := by
      by_contra writing'
      exact apart ⟨writing, by simpa using writing'⟩
    exact ((housed.sound second (List.mem_of_getElem? there)).retired closed).2
  · left
    exact ((housed.sound first (List.mem_of_getElem? here)).retired (by simpa using writing)).2

/-- The client of the first locker goes, the locker is retired, and another client comes before
its thread has noticed. -/
def replacedLocker : List Turn :=
  [joinTurn 2, requestTurn [.quiet] ['1'] ['1'], readTurn,
    .locker 0 (.ready [Ready.idle, { Ready.idle with pollin := true }]),
    .locker 0 (.timeout Env.fine), .locker 0 (.timeout Env.fine), .timeout true [],
    joinTurn 3, requestTurn [.quiet] ['1'] ['1'],
      .locker 1 (.ready [{ Ready.idle with pollin := true }])]

theorem one_locker_per_resource_replaced :
    let reached := Run.run (daemonStep decodeFive) (daemonStart false false) replacedLocker
    ∃ first second : LockerSlot, reached.lockers = [first, second] ∧
      first.thread.resource.key = second.thread.resource.key ∧ first.readPipe = true ∧
      ¬second.thread.alone ∧
      ¬(first.writePipe = true ∧ first.readPipe = true ∧ second.writePipe = true ∧
        second.readPipe = true) ∧
      (first.thread.alone ∨ second.thread.alone) := by
  intro reached
  have along : Run.Along (daemonStep decodeFive)
      (fun daemon turn => (daemonStep decodeFive daemon turn).keepsControl)
      (daemonStart false false) replacedLocker := by
    decide
  refine ⟨_, _, rfl, by decide, by decide, ?_, ?_⟩
  · rintro ⟨short, _⟩
    exact absurd short (by decide)
  · exact one_locker_per_resource decodeFive false false replacedLocker along 0 1 _ _
      (by decide) rfl rfl (by decide)

end Flom
