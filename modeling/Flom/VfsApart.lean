import Flom.ConnsHistory
import Flom.DaemonMail
import Flom.VfsNotes

set_option autoImplicit false

namespace Flom

open Lists

def LockerSlot.ids (slot : LockerSlot) : List ConnId :=
  slot.thread.control :: (slot.thread.conns.map Conn.id ++
    (slot.pipe.map fun token => token.conn.id) ++
    (slot.thread.resource.holding ++ slot.thread.resource.waiting))

def Daemon.groups (daemon : Daemon) : List (List ConnId) :=
  (daemon.conns.map Conn.id).map (fun conn => [conn]) ++ daemon.lockers.map LockerSlot.ids

def Daemon.unnamed (daemon : Daemon) (uid : ConnId) : Prop := ∀ group ∈ daemon.groups, uid ∉ group

instance (daemon : Daemon) (uid : ConnId) : Decidable (daemon.unnamed uid) :=
  inferInstanceAs (Decidable (∀ _ ∈ _, _ ∉ _))

structure Recorded (decode : Name → Name) (daemon : Daemon) (id : Nat) (revents : Revents) :
    Prop where
  still : Undisturbed decode daemon id revents
  joins : id = 0 → ∀ conn ∈ revents.accept.accepted, daemon.unnamed conn
  starts : ∀ conn name resource, Starts decode daemon id revents.accept conn name resource →
    daemon.unnamed revents.accept.control

def LockerSlot.Followed (slot : LockerSlot) (event : PollEvent) : Prop :=
  Run.Along resourceCall (fun resource call => call.Followed resource) slot.thread.resource
    (slot.calls event)

instance (slot : LockerSlot) (event : PollEvent) : Decidable (slot.Followed event) :=
  inferInstanceAs (Decidable (Run.Along _ _ _ _))

section

variable {daemon after : Daemon}

theorem groups_same (conns : after.conns.map Conn.id = daemon.conns.map Conn.id)
    (lockers : after.lockers.map LockerSlot.ids = daemon.lockers.map LockerSlot.ids) :
    after.groups = daemon.groups := by
  rw [Daemon.groups, Daemon.groups, conns, lockers]

theorem groups_spend (locker : Nat) (conn : Conn) :
    (daemon.spend locker conn).groups = daemon.groups := by
  refine groups_same rfl ?_
  cases slotted : daemon.lockers[locker]? with
  | none => rw [Daemon.spend, modify_absent slotted]
  | some slot =>
    obtain ⟨front, behind, lockers, rfl⟩ := split_of_getElem? slotted
    rw [Daemon.spend, modify_present _ slotted, lockers, List.set_append_right _ _ le_rfl,
      Nat.sub_self,
      List.set_cons_zero]
    simp [LockerSlot.ids]

theorem groups_remove {position : Nat} {conn : Conn}
    (present : daemon.conns[position]? = some conn) :
    daemon.groups.Perm ([conn.id] :: (daemon.remove position).groups) :=
  (((removeIndexFast_perm present).map Conn.id).map _).append_right _

theorem groups_hand {position locker : Nat} {slot : LockerSlot} {conn : Conn}
    (present : daemon.conns[position]? = some conn)
    (slotted : daemon.lockers[locker]? = some slot) :
    ∃ merged others, merged ⊆ [conn.id] ++ slot.ids ∧
    daemon.groups.Perm ([conn.id] :: slot.ids :: others) ∧
      (((daemon.spend locker conn).remove position).push locker
        { conn with state := .locker }).groups.Perm
        (merged :: others) := by
  obtain ⟨front, behind, lockers, rfl⟩ := split_of_getElem? slotted
  let handed : LockerSlot := { slot with
    writeSequence := slot.writeSequence + 1
    pipe := slot.pipe ++ [⟨slot.writeSequence + 1, { conn with state := .locker }⟩] }
  have pushed : (((daemon.spend front.length conn).remove position).push front.length
      { conn with state := .locker }).lockers = front ++ handed :: behind := by
    simp only [Daemon.push, Daemon.remove, modify_present _ (spend_slotted slotted conn)]
    rw [Daemon.spend, modify_present _ slotted, List.set_set, lockers,
      List.set_append_right _ _ le_rfl, Nat.sub_self,
      List.set_cons_zero]
  refine ⟨handed.ids, ((removeIndexFast daemon.conns position).map Conn.id).map
    (fun conn => [conn]) ++ (front.map LockerSlot.ids ++ behind.map LockerSlot.ids), ?_, ?_, ?_⟩
  · intro uid member
    simp only [handed, LockerSlot.ids, List.map_append, List.map_cons, List.map_nil,
      List.mem_append,
      List.mem_cons] at member ⊢
    tauto
  · refine (groups_remove present).trans (List.Perm.cons _ ?_)
    rw [Daemon.groups, Daemon.remove, lockers, List.map_append, List.map_cons]
    exact (List.perm_middle.append_left _).trans List.perm_middle
  · rw [Daemon.groups, pushed, List.map_append, List.map_cons]
    exact (List.perm_middle.append_left _).trans List.perm_middle

def Daemon.Apart (daemon : Daemon) : Prop := daemon.groups.Pairwise List.Disjoint

theorem Daemon.Apart.remove (apart : daemon.Apart) {position : Nat} {conn : Conn}
    (present : daemon.conns[position]? = some conn) : (daemon.remove position).Apart :=
  (List.pairwise_cons.mp ((disjoint_perm (groups_remove present)).mp apart)).2

theorem Daemon.Apart.hand (apart : daemon.Apart) {position locker : Nat} {slot : LockerSlot}
    {conn : Conn} (present : daemon.conns[position]? = some conn)
    (slotted : daemon.lockers[locker]? = some slot) :
    (((daemon.spend locker conn).remove position).push locker
      { conn with state := .locker }).Apart := by
  obtain ⟨merged, others, inside, before, after⟩ := groups_hand present slotted
  exact (disjoint_perm after).mpr (disjoint_merge inside ((disjoint_perm before).mp apart))

theorem Daemon.Apart.join (apart : daemon.Apart) {conn : Conn} (fresh : daemon.unnamed conn.id) :
    Daemon.Apart { daemon with conns := daemon.conns ++ [conn] } := by
  have joined : ({ daemon with conns := daemon.conns ++ [conn] } : Daemon).groups.Perm
      ([conn.id] :: daemon.groups) := by
    simp only [Daemon.groups, List.map_append, List.map_cons, List.map_nil]
    exact ((List.perm_append_singleton _ _).append_right _)
  refine (disjoint_perm joined).mpr
    (List.pairwise_cons.mpr ⟨fun group member uid mine yours => ?_, apart⟩)
  obtain rfl := List.mem_singleton.mp mine
  exact fresh group member yours

theorem Daemon.Apart.start (apart : daemon.Apart) {control : ConnId} {resource : Resource}
    {type : RsrcType} {name : Name} (init : resourceInit type name = .ok resource)
    (fresh : daemon.unnamed control) :
    (daemon.started control resource).Apart := by
  have alone :
      LockerSlot.ids ⟨lockerStart control resource, true, true, 0, 0, []⟩ = [control, control] := by
    simp [LockerSlot.ids, lockerStart, connInit, resourceInit_holding init,
      resourceInit_waiting init]
  have begun : (daemon.started control resource).groups.Perm
      ([control, control] :: daemon.groups) := by
    simp only [Daemon.groups, Daemon.started, List.map_append, List.map_cons, List.map_nil, alone]
    rw [← List.append_assoc]
    exact List.perm_append_singleton _ _
  refine (disjoint_perm begun).mpr
    (List.pairwise_cons.mpr ⟨fun group member uid mine yours => ?_, apart⟩)
  obtain rfl : uid = control := by simpa using mine
  exact fresh group member yours

theorem apart_serve {decode : Name → Name} {id : Nat} {revents : Revents} (apart : daemon.Apart)
    (recorded : Recorded decode daemon id revents) :
    (acceptLoopServe decode daemon id revents).daemon.Apart := by
  suffices (acceptLoopServe decode daemon id revents).daemon.Apart ∧
      (id ≠ 0 → (acceptLoopServe decode daemon id revents).daemon.conns.map Conn.id ⊆
        daemon.conns.map Conn.id) from
    this.1
  refine @acceptLoopServe_invariant decode
    (fun reached => reached.Apart ∧ (id ≠ 0 → reached.conns.map Conn.id ⊆ daemon.conns.map Conn.id))
    daemon id revents ⟨apart, fun _ => List.Subset.refl _⟩ fun reached act kept legal => ?_
  obtain ⟨apart, known⟩ := kept
  have unchanged : ∀ after : Daemon, after.conns.map Conn.id = reached.conns.map Conn.id →
      after.lockers = reached.lockers →
      after.Apart ∧ (id ≠ 0 → after.conns.map Conn.id ⊆ daemon.conns.map Conn.id) := by
    intro after conns lockers
    rw [Daemon.Apart, groups_same conns (by rw [lockers]), conns]
    exact ⟨apart, known⟩
  have removed : ∀ position conn, reached.conns[position]? = some conn →
      id ≠ 0 → (removeIndexFast reached.conns position).map Conn.id ⊆ daemon.conns.map Conn.id := by
    intro position conn present client uid member
    refine known client ?_
    exact ((removeIndexFast_perm present).map Conn.id).symm.subset (List.mem_cons_of_mem _ member)
  cases legal with
  | close closed client => exact unchanged _ (connsCloseFd_ids _ _ _) rfl
  | join conn listening same accepted =>
    refine ⟨apart.join ?_, fun client => absurd listening client⟩
    rw [same]
    exact recorded.joins listening conn.id accepted
  | parse conn same heard =>
    obtain ⟨_, old, feed, present, _, _, rfl⟩ := heard
    subst same
    exact unchanged _ (ids_set present rfl) rfl
  | garble conn old feed same client present arrived broken spoilt =>
    subst same
    rw [spoilt]
    exact unchanged _ (ids_set present rfl) rfl
  | answer conn rc name heard present => exact unchanged _ (ids_set present rfl) rfl
  | start conn name resource starts present lockers =>
    refine ⟨apart.start starts.init fun group member => ?_, known⟩
    have fresh := recorded.starts conn name resource starts
    obtain one | housed := List.mem_append.mp member
    · obtain ⟨uid, inside, rfl⟩ := List.mem_map.mp one
      exact fresh _ (List.mem_append_left _ (List.mem_map_of_mem (known starts.heard.1 inside)))
    · rw [lockers] at housed
      exact fresh _ (List.mem_append_right _ housed)
  | spend position locker conn =>
    rw [Daemon.act, Daemon.Apart, groups_spend]
    exact ⟨apart, known⟩
  | drop position locker conn moves =>
    have spent : (reached.spend locker conn).Apart := by rwa [Daemon.Apart, groups_spend]
    exact ⟨spent.remove moves.present.2, removed position conn moves.present.2⟩
  | hand position locker conn moves =>
    obtain ⟨slot, slotted⟩ := moves.slotted
    exact ⟨apart.hand moves.present.2 slotted, removed position conn moves.present.2⟩

end

end Flom
