import Flom.DaemonLockers
import Flom.SequenceGaps
import Flom.TimestampHistory
import Flom.VfsDaemon

set_option autoImplicit false

namespace Flom

theorem turn_resource (slot : LockerSlot) (event : PollEvent) :
    (slot.turn event).thread.resource = Run.run resourceCall slot.thread.resource
      (slot.calls event) := by
  have called := @lockerStep_called
    (slot.thread.conns.map Conn.id ++ ({ slot.thread with mail := [] }.cleaned.admitted
      (event.piped (slot.pipe.head?.map Token.conn))).map Conn.id)
    { slot.thread with mail := [] } (event.piped (slot.pipe.head?.map Token.conn))
    (fun conn member => List.mem_append_left _ (List.mem_map_of_mem member))
    (fun conn member => List.mem_append_right _ (List.mem_map_of_mem member))
  exact called.resource

theorem resourceCall_key (resource : Resource) (call : LockerCall) :
    (resourceCall resource call).key = resource.key := by
  cases call with
  | inmsg conn lastStep msg env => exact resourceInmsg_key resource conn lastStep msg env
  | clean conn env => exact resourceClean_key resource conn env
  | timeout env => exact resourceTimeout_key resource env

theorem act_lockers {decode : Name → Name} {origin daemon : Daemon} {id : Nat} {accept : Accept}
    {act : Act} {slot : LockerSlot} (legal : Legal decode origin id accept daemon act)
    (member : slot ∈ (daemon.act id act).lockers) :
    (∃ before ∈ daemon.lockers, slot.thread = before.thread) ∨
      ∃ name resource, resourceInit (rsrcGetType name) name = .ok resource ∧
        slot.thread = lockerStart accept.control resource := by
  have modified (lockers : List LockerSlot) {index : Nat} {change : LockerSlot → LockerSlot}
      {slot : LockerSlot} (member : slot ∈ lockers.modify index change)
      (same : ∀ other, (change other).thread = other.thread) :
      ∃ before ∈ lockers, slot.thread = before.thread := by
    obtain ⟨place, found⟩ := List.mem_iff_getElem?.mp member
    rw [List.getElem?_modify] at found
    obtain ⟨before, present, rfl⟩ := Option.map_eq_some_iff.mp found
    refine ⟨before, List.mem_of_getElem? present, ?_⟩
    split_ifs
    · exact same before
    · rfl
  cases legal with
  | close | join | parse | garble | answer => exact .inl ⟨slot, member, rfl⟩
  | start conn name resource starts =>
    obtain old | new := List.mem_append.mp member
    · exact .inl ⟨slot, old, rfl⟩
    · obtain rfl := List.mem_singleton.mp new
      exact .inr ⟨name, resource, starts.init, rfl⟩
  | spend position locker conn | drop position locker conn =>
    exact .inl (modified daemon.lockers member fun _ => rfl)
  | hand position locker conn =>
    obtain ⟨between, inside, same⟩ := modified _ member fun _ => rfl
    obtain ⟨before, old, equal⟩ := modified daemon.lockers inside fun _ => rfl
    exact .inl ⟨before, old, same.trans equal⟩

def LockerSlot.Makes (allowed : Resource → LockerCall → Prop) (slot : LockerSlot)
    (event : PollEvent) : Prop :=
  Run.Along resourceCall allowed slot.thread.resource (slot.calls event)

section

variable {decode : Name → Name} {allowed : Resource → LockerCall → Prop} {inv : Resource → Prop}

def Daemon.Resources (inv : Resource → Prop) (daemon : Daemon) : Prop :=
  ∀ slot ∈ daemon.lockers, inv slot.thread.resource

theorem resources_step (starts : ∀ name resource,
      resourceInit (rsrcGetType name) name = .ok resource → inv resource)
    (calls : ∀ resource call, inv resource → allowed resource call →
      inv (resourceCall resource call)) (daemon : Daemon) (turn : Turn)
    (holds : daemon.Resources inv)
    (along : turn.Along decode (fun _ _ _ => True) (LockerSlot.Makes allowed) daemon) :
    (daemonStep decode daemon turn).Resources inv := by
  refine daemonStep_invariant ?_ ?_ ?_ ?_ ?_ daemon turn holds along
  · exact fun _ holds => holds
  · intro reached id revents holds _
    refine acceptLoopServe_invariant reached id revents
      holds fun between act holds legal slot member => ?_
    obtain ⟨before, old, same⟩ | ⟨name, resource, init, same⟩ := act_lockers legal member
    · exact same ▸ holds before old
    · rw [same]
      exact starts name resource init
  · exact fun _ holds => holds
  · intro reached closed holds slot' member
    obtain ⟨kept, shorter, checked⟩ := acceptLoopChklockers_checked reached.lockers closed
    obtain ⟨slot, old, here⟩ := Lists.forall₂_mem checked member
    cases here with
    | kept => exact holds _ (shorter.subset old)
    | retired => exact holds slot (shorter.subset old)
  · intro reached locker slot event holds present makes other member
    rw [daemonLocker_lockers present] at member
    obtain old | rfl := List.mem_or_eq_of_mem_set member
    · exact holds other old
    · rw [turn_resource]
      exact Run.along_invariant resourceCall allowed inv calls slot.thread.resource _
        (holds slot (List.mem_of_getElem? present)) makes

theorem resources_run (starts : ∀ name resource,
      resourceInit (rsrcGetType name) name = .ok resource → inv resource)
    (calls : ∀ resource call, inv resource → allowed resource call →
      inv (resourceCall resource call)) {multicast tlsCheckPeerId : Bool} {turns : List Turn}
    (along : Run.Along (daemonStep decode)
      (fun daemon turn => turn.Along decode (fun _ _ _ => True) (LockerSlot.Makes allowed) daemon)
      (daemonStart multicast tlsCheckPeerId) turns) :
    (Run.run (daemonStep decode) (daemonStart multicast tlsCheckPeerId) turns).Resources inv := by
  refine Run.along_invariant _ _ (Daemon.Resources inv) ?_ _ turns ?_ along
  · exact fun daemon turn holds along => resources_step starts calls daemon turn holds along
  · simp [Daemon.Resources, daemonStart]

end

end Flom
