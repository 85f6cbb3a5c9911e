import Flom.MsgDeserialize
import Flom.ResourceHierExclusion

set_option autoImplicit false

namespace Flom

open Scan

def lockModeN : Int := 6

def LockMode.listed (mode : LockMode) : Prop := 0 ≤ mode.index ∧ mode.index < lockModeN

instance (mode : LockMode) : Decidable mode.listed := inferInstanceAs (Decidable (_ ∧ _))

theorem ofInt_index (value : Int) : (LockMode.ofInt value).index = value := by
  unfold LockMode.ofInt
  split_ifs <;> simp [LockMode.index, *]

def tableLookups : List LockMode → LockMode → List (LockMode × LockMode)
  | [], _ => []
  | old :: rest, lock => (old, lock) :: if lockTable old lock then tableLookups rest lock else []

def simpleLookups (data : SimpleData) (lock : LockMode) : List (LockMode × LockMode) :=
  tableLookups (data.holders.map ConnLock.info) lock

mutual

def hierLookups : HierTree → LockMode → List Name → List (LockMode × LockMode)
  | .node name holders leaves, lock, path =>
    if path.head?.any (· ≠ name) then []
    else tableLookups (holders.map HierLock.mode) lock ++
      if holders.all (fun holder => lockTable holder.mode lock) then hierLookupsLeaves leaves lock
        path.tail else []

def hierLookupsLeaves : List HierTree → LockMode → List Name → List (LockMode × LockMode)
  | [], _, _ => []
  | leaf :: others, lock, path =>
    hierLookups leaf lock path ++
      if resourceHierCanLock leaf lock path then hierLookupsLeaves others lock path else []

end

def InTable (lookups : List (LockMode × LockMode)) : Prop :=
  ∀ pair ∈ lookups, pair.1.listed ∧ pair.2.listed

instance (lookups : List (LockMode × LockMode)) : Decidable (InTable lookups) :=
  inferInstanceAs (Decidable (∀ pair ∈ lookups, _ ∧ _))

theorem tableLookups_all (olds : List LockMode) (lock : LockMode) :
    ((tableLookups olds lock).all fun pair => lockTable pair.1 pair.2) = olds.all fun old =>
    lockTable old lock := by
  induction olds with
  | nil => rfl
  | cons old rest
      ih => by_cases compatible : lockTable old lock = true <;> simp [tableLookups, compatible, ih]

theorem simpleLookups_all (data : SimpleData) (lock : LockMode) :
    ((simpleLookups data lock).all fun pair => lockTable pair.1 pair.2) =
    resourceSimpleCanLock data lock := by
  rw [simpleLookups, tableLookups_all, resourceSimpleCanLock, List.all_map]
  rfl

theorem hierLookupsLeaves_all (leaves : List HierTree) (lock : LockMode) (path : List Name)
    (each : ∀ leaf ∈ leaves,
      ((hierLookups leaf lock path).all fun pair => lockTable pair.1 pair.2) =
      resourceHierCanLock leaf lock path) :
    ((hierLookupsLeaves leaves lock path).all fun pair => lockTable pair.1 pair.2) =
      resourceHierCanLockLeaves leaves lock path := by
  induction leaves with
  | nil => simp [hierLookupsLeaves, resourceHierCanLockLeaves]
  | cons leaf others ih =>
    have here := each leaf List.mem_cons_self
    have later := ih fun other member => each other (List.mem_cons_of_mem _ member)
    rw [hierLookupsLeaves, resourceHierCanLockLeaves, List.all_append, here]
    by_cases can : resourceHierCanLock leaf lock path = true
    · rw [if_pos can, later]
    · simp [can]

theorem hierLookups_all (tree : HierTree) (lock : LockMode) (path : List Name) :
    ((hierLookups tree lock path).all fun pair => lockTable pair.1 pair.2) =
    resourceHierCanLock tree lock path := by
  induction tree using Rose.induct generalizing path with
  | node name holders leaves ih =>
    rw [hierLookups, resourceHierCanLock]
    split_ifs with other free
    · rfl
    · rw [List.all_append, tableLookups_all, List.all_map,
        hierLookupsLeaves_all leaves lock path.tail fun leaf member => ih leaf member path.tail]
      rfl
    · rw [List.append_nil, tableLookups_all, List.all_map]
      simp only [Bool.not_eq_true] at free
      rw [free, Bool.false_and]
      exact free

theorem tableLookups_listed {olds : List LockMode} {lock : LockMode}
    (held : ∀ old ∈ olds, old.listed) (asked : lock.listed) : InTable (tableLookups olds lock) := by
  induction olds with
  | nil => exact fun _ none => absurd none List.not_mem_nil
  | cons old rest ih =>
    have later := ih fun other member => held other (List.mem_cons_of_mem _ member)
    intro pair member
    obtain rfl | inside := List.mem_cons.mp member
    · exact ⟨held old List.mem_cons_self, asked⟩
    · split_ifs at inside
      · exact later pair inside
      · cases inside

theorem hierLookupsLeaves_listed {leaves : List HierTree} {lock : LockMode} {path : List Name}
    (each : ∀ leaf ∈ leaves, InTable (hierLookups leaf lock path)) :
    InTable (hierLookupsLeaves leaves lock path) := by
  induction leaves with
  | nil =>
    rw [hierLookupsLeaves]
    exact fun _ none => absurd none List.not_mem_nil
  | cons leaf others ih =>
    rw [hierLookupsLeaves]
    intro pair member
    obtain here | later := List.mem_append.mp member
    · exact each leaf List.mem_cons_self pair here
    · split_ifs at later
      · exact ih (fun other member => each other (List.mem_cons_of_mem _ member)) pair later
      · cases later

theorem hierLookups_listed {tree : HierTree} {lock : LockMode} {path : List Name}
    (held : ∀ entry ∈ tree.entries, entry.2.mode.listed) (asked : lock.listed) :
    InTable (hierLookups tree lock path) := by
  induction tree using Rose.induct generalizing path with
  | node name holders leaves ih =>
    rw [hierLookups]
    have here : ∀ old ∈ holders.map HierLock.mode, old.listed := by
      intro old member
      obtain ⟨holder, inside, rfl⟩ := List.mem_map.mp member
      refine held ([name], holder) ?_
      rw [Rose.entries]
      exact List.mem_append_left _ (List.mem_map_of_mem inside)
    have below : InTable (hierLookupsLeaves leaves lock path.tail) := by
      refine hierLookupsLeaves_listed fun leaf member => ih leaf member fun entry inside => ?_
      refine held (Rose.under [name] entry) ?_
      rw [Rose.entries]
      exact List.mem_append_right _
        (List.mem_map_of_mem (Rose.mem_entriesAll.mpr ⟨leaf, member, inside⟩))
    split_ifs
    · exact fun _ none => absurd none List.not_mem_nil
    · intro pair member
      obtain first | later := List.mem_append.mp member
      · exact tableLookups_listed here asked pair first
      · exact below pair later
    · rw [List.append_nil]
      exact tableLookups_listed here asked

section

variable {Data Wait : Type}

def cleanLookups (m : Manager Data Wait ConnId) (lookups : Data → Wait → List (LockMode × LockMode))
    (rsrc : Rsrc Data Wait) (conn : ConnId) (sends : List Rc) : Prop :=
  ∀ freed ∈ m.release rsrc.data conn,
    Visits m.toOps Rc.ok (fun data waiter => InTable (lookups data waiter)) freed rsrc.waitings
      sends

instance (m : Manager Data Wait ConnId) (lookups : Data → Wait → List (LockMode × LockMode))
    (rsrc : Rsrc Data Wait) (conn : ConnId) (sends : List Rc) :
    Decidable (cleanLookups m lookups rsrc conn sends) :=
  inferInstanceAs (Decidable (∀ freed ∈ m.release rsrc.data conn, _))

theorem cleanLookups_of_sound {m : Manager Data Wait ConnId}
    {lookups : Data → Wait → List (LockMode × LockMode)} {inv : Data → Prop} {valid : Wait → Prop}
    (preserved : Preserved m.toOps inv valid)
    (release : ∀ data conn freed, inv data → m.release data conn = some freed → inv freed)
    (every : ∀ data waiter, inv data → valid waiter → InTable (lookups data waiter))
    {rsrc : Rsrc Data Wait} (sound : Sound inv valid rsrc) (conn : ConnId) (sends : List Rc) :
    cleanLookups m lookups rsrc conn sends := by
  intro freed released
  exact visits_of_preserved preserved every Rc.ok freed rsrc.waitings sends
    (release _ conn freed sound.data released) sound.waitings

end

def simpleCallLookups (rsrc : SimpleRsrc) : Call → Prop
  | .inmsg conn _ msg env =>
    (msg.verb = .lock → InTable (simpleLookups rsrc.data msg.lock8.mode)) ∧
      (msg.verb = .unlock →
        cleanLookups simpleManager (fun data waiter => simpleLookups data waiter.info) rsrc conn
          env.sends)
  | .clean conn env =>
    cleanLookups simpleManager (fun data waiter => simpleLookups data waiter.info) rsrc conn
      env.sends

instance (rsrc : SimpleRsrc) (call : Call) : Decidable (simpleCallLookups rsrc call) :=
  match call with
  | .inmsg _ _ _ _ => inferInstanceAs (Decidable (_ ∧ _))
  | .clean _ _ => inferInstanceAs (Decidable (cleanLookups _ _ _ _ _))

def hierCleanLookups (rsrc : HierRsrc) (conn : ConnId) (sends : List Rc) : Prop :=
  cleanLookups (hierManager rsrc.name)
    (fun data waiter => hierLookups data.root waiter.mode (hierLevels waiter.name)) rsrc conn sends

def hierCallLookups (rsrc : HierRsrc) : Call → Prop
  | .inmsg conn _ msg env =>
    (msg.verb = .lock → ∀ name ∈ msg.lock8.name,
      InTable (hierLookups rsrc.data.root msg.lock8.mode (hierLevels name))) ∧
      (msg.verb = .unlock → ∀ name ∈ msg.unlock8.name,
        hierCleanLookups (resourceHierChangeName rsrc name) conn env.sends)
  | .clean conn env => hierCleanLookups rsrc conn env.sends

def Call.modeListed : Call → Prop
  | .inmsg _ _ msg _ => msg.verb = .lock → msg.lock8.mode.listed
  | .clean _ _ => True

instance (call : Call) : Decidable call.modeListed :=
  match call with
  | .inmsg _ _ msg _ => inferInstanceAs (Decidable (msg.verb = .lock → msg.lock8.mode.listed))
  | .clean _ _ => isTrue trivial

def SimpleListed : SimpleRsrc → Prop :=
  Sound (fun data => ∀ holder ∈ data.holders, holder.info.listed) fun waiter => waiter.info.listed

theorem simple_listed_preserved :
    Preserved simpleManager.toOps (fun data => ∀ holder ∈ data.holders, holder.info.listed)
      fun waiter => waiter.info.listed where
  take _ _ listed own _ := List.forall_mem_cons.mpr ⟨own, listed⟩
  fail _ _ listed _ _ := listed
  skip _ _ listed := listed

theorem simple_listed_release (data : SimpleData) (conn : ConnId) (freed : SimpleData)
    (listed : ∀ holder ∈ data.holders, holder.info.listed)
    (released : simpleManager.release data conn = some freed) :
    ∀ holder ∈ freed.holders, holder.info.listed := by
  obtain ⟨_, _, _, sublist⟩ := simpleManager_release released
  exact fun holder member => listed holder (sublist.subset member)

theorem simple_lookups_listed (data : SimpleData) (lock : LockMode)
    (listed : ∀ holder ∈ data.holders, holder.info.listed) (asked : lock.listed) :
    InTable (simpleLookups data lock) := by
  refine tableLookups_listed (fun old member => ?_) asked
  obtain ⟨holder, inside, rfl⟩ := List.mem_map.mp member
  exact listed holder inside

theorem resourceSimpleStep_listed (rsrc : SimpleRsrc) (call : Call) (sound : SimpleListed rsrc)
    (listed : call.modeListed) : SimpleListed (resourceSimpleStep rsrc call) := by
  have cleaned := fun conn sends =>
    rsrcClean_sound simple_listed_preserved simple_listed_release rsrc conn sends sound
  cases call with
  | inmsg conn lastStep msg env =>
    simp only [resourceSimpleStep, resourceSimpleInmsg]
    split
    · next lock =>
      exact rsrcLock_sound simple_listed_preserved _ rsrc lastStep msg sound (listed lock)
    · exact rsrcUnlock_rsrc msg sound (cleaned conn env.sends)
    · exact sound
  | clean conn env => exact cleaned conn env.sends

theorem simpleCallLookups_of_listed {rsrc : SimpleRsrc} {call : Call} (sound : SimpleListed rsrc)
    (listed : call.modeListed) : simpleCallLookups rsrc call := by
  have cleaned := cleanLookups_of_sound simple_listed_preserved simple_listed_release
    (fun data waiter held own => simple_lookups_listed data waiter.info held own) sound
  cases call with
  | inmsg conn lastStep msg env =>
    exact ⟨fun lock => simple_lookups_listed rsrc.data _ sound.data (listed lock), fun _ =>
      cleaned conn env.sends⟩
  | clean conn env => exact cleaned conn env.sends

def HierListed : HierRsrc → Prop :=
  Sound (fun data => ∀ entry ∈ data.root.entries, entry.2.mode.listed) fun waiter =>
    waiter.mode.listed

theorem hier_listed_add {data : HierData} (cl : HierLock) (path : List Name)
    (listed : ∀ entry ∈ data.root.entries, entry.2.mode.listed) (own : cl.mode.listed) :
    ∀ entry ∈ (resourceHierAddLocker data cl path).root.entries, entry.2.mode.listed := by
  intro entry member
  obtain rfl | old := List.mem_cons.mp
    ((resourceHierAddLocker_entries data cl path).mem_iff.mp member)
  · exact own
  · exact listed entry old

theorem hier_listed_preserved (name : Name) :
    Preserved (hierManager name).toOps
      (fun data => ∀ entry ∈ data.root.entries, entry.2.mode.listed)
        fun waiter => waiter.mode.listed where
  take _ waiter listed own _ := hier_listed_add ⟨waiter.conn, waiter.mode, false⟩ _ listed own
  fail _ waiter listed own _ := hier_listed_add ⟨waiter.conn, waiter.mode, true⟩ _ listed own
  skip _ _ listed := listed

theorem hier_listed_release (name : Name) (data : HierData) (conn : ConnId) (freed : HierData)
    (listed : ∀ entry ∈ data.root.entries, entry.2.mode.listed)
    (released : hierRelease name data conn = some freed) :
    ∀ entry ∈ freed.root.entries, entry.2.mode.listed := by
  obtain ⟨path, removed, _, perm⟩ := hierRelease_entries released
  exact fun entry member => listed entry (perm.mem_iff.mpr (List.mem_cons_of_mem _ member))

theorem resourceHierClean_listed (rsrc : HierRsrc) (conn : ConnId) (sends : List Rc)
    (sound : HierListed rsrc) :
    HierListed (resourceHierClean rsrc conn sends).rsrc := by
  have cleaned : HierListed (rsrcClean (hierManager rsrc.name) rsrc conn sends).rsrc :=
    rsrcClean_sound (hier_listed_preserved rsrc.name)
      (hier_listed_release rsrc.name) rsrc conn sends sound
  unfold resourceHierClean hierCollect
  split_ifs
  · refine ⟨?_, cleaned.waitings⟩
    simp only [resourceHierGc_entries]
    exact cleaned.data
  · exact cleaned

theorem resourceHierStep_listed (rsrc : HierRsrc) (call : Call) (sound : HierListed rsrc)
    (listed : call.modeListed) :
    HierListed (resourceHierStep rsrc call) := by
  cases call with
  | inmsg conn lastStep msg env =>
    simp only [resourceHierStep, resourceHierInmsg]
    split
    · next lock =>
      split
      · exact rsrcLock_sound (hier_listed_preserved rsrc.name) _ rsrc lastStep msg sound
          (listed lock)
      · exact sound
    · split
      · unfold resourceHierUnlock
        split_ifs
        · rw [inmsgOfCleaned_rsrc]
          exact resourceHierClean_listed _ conn env.sends ⟨sound.data, sound.waitings⟩
        · exact sound
      · exact sound
    · exact sound
  | clean conn env => exact resourceHierClean_listed rsrc conn env.sends sound

theorem hierCallLookups_of_listed {rsrc : HierRsrc} {call : Call} (sound : HierListed rsrc)
    (listed : call.modeListed) :
    hierCallLookups rsrc call := by
  have cleaned : ∀ reached, HierListed reached → ∀ conn sends,
      hierCleanLookups reached conn sends :=
    fun reached sound => cleanLookups_of_sound (hier_listed_preserved reached.name)
      (hier_listed_release reached.name) (fun data waiter held own => hierLookups_listed held own)
      sound
  cases call with
  | inmsg conn lastStep msg env =>
    refine ⟨fun lock name _ => hierLookups_listed sound.data (listed lock), fun _ name _ => ?_⟩
    exact cleaned (resourceHierChangeName rsrc name) ⟨sound.data, sound.waitings⟩ conn env.sends
  | clean conn env => exact cleaned rsrc sound conn env.sends

theorem resourceHierInit_listed {name : Name} {rsrc : HierRsrc}
    (started : resourceHierInit name = .ok rsrc) :
    HierListed rsrc := by
  obtain ⟨level, rest, _, _, rfl⟩ := resourceHierInit_eq started
  exact ⟨by simp [hierEmptyChain_entries], by simp⟩

theorem lock_table_read_inside (name : Name) (calls : List Call)
    (listed : ∀ call ∈ calls, call.modeListed) (next : Call) (nextListed : next.modeListed) :
    simpleCallLookups (Run.run resourceSimpleStep (resourceSimpleInit name) calls) next ∧
      ∀ rsrc, resourceHierInit name = .ok rsrc →
      hierCallLookups (Run.run resourceHierStep rsrc calls) next := by
  constructor
  · refine simpleCallLookups_of_listed ?_ nextListed
    apply Run.along_invariant resourceSimpleStep
      (fun _ call => call.modeListed) SimpleListed resourceSimpleStep_listed
    · exact ⟨by simp [resourceSimpleInit], by simp [resourceSimpleInit]⟩
    · exact Run.along_of_forall resourceSimpleStep _ _ calls fun call member _ => listed call member
  · intro rsrc started
    refine hierCallLookups_of_listed ?_ nextListed
    apply Run.along_invariant resourceHierStep
      (fun _ call => call.modeListed) HierListed resourceHierStep_listed
    · exact resourceHierInit_listed started
    · exact Run.along_of_forall resourceHierStep _ _ calls fun call member _ => listed call member

theorem lock_table_read_inside_twice :
    let first := Call.inmsg 1 8 (msgLock ['x'] .pr 1 1 1) Env.fine
    let second := Call.inmsg 2 8 (msgLock ['x'] .ex 1 1 1) Env.fine
    let reached := Run.run resourceSimpleStep (resourceSimpleInit ['x']) [first]
    first.modeListed ∧ second.modeListed ∧ simpleLookups reached.data .ex = [(.pr, .ex)] ∧
      simpleCallLookups reached second := by
  refine ⟨by decide, by decide, by decide, ?_⟩
  exact (lock_table_read_inside ['x'] [.inmsg 1 8 (msgLock ['x'] .pr 1 1 1) Env.fine] (by decide)
    (.inmsg 2 8 (msgLock ['x'] .ex 1 1 1) Env.fine) (by decide)).1

/-- A LOCK whose text has mode="7"; it is read without a complaint. -/
def mode7Feed : Feed where
  events :=
    [.start msgTagMsg [(msgPropLevel, ['3']), (msgPropVerb, ['1']), (msgPropStep, ['8'])],
      .start msgTagResource
        [(msgPropName, encodedX), (msgPropMode, ['7']), (msgPropWait, ['1']),
          (msgPropQuantity, ['1']),
          (msgPropCreate, ['1']), (msgPropLifespan, ['0'])],
      .stop msgTagResource, .stop msgTagMsg]
  wellFormed := true

def mode7Call (conn : ConnId) : Call := .inmsg conn 8
    (msgDeserialize decodeX mode7Feed msgInit).2 Env.fine

theorem mode7_reads_outside :
    let first := Call.inmsg 1 8 (msgLock ['x'] .pr 1 1 1) Env.fine
    let last := Call.inmsg 2 8 (msgLock ['x'] .pr 1 1 1) Env.fine
    let asked := Run.run resourceSimpleStep (resourceSimpleInit ['x']) [first]
    let held := Run.run resourceSimpleStep (resourceSimpleInit ['x']) [mode7Call 1]
    (msgDeserialize decodeX mode7Feed msgInit).1 = .ok ∧
      (msgDeserialize decodeX mode7Feed msgInit).2.state = .ready ∧
      msgCheckProtocol (msgDeserialize decodeX mode7Feed msgInit).2 true = true ∧
      simpleLookups asked.data (.out 7) = [(.pr, .out 7)] ∧ ¬simpleCallLookups asked (mode7Call 2) ∧
      simpleLookups held.data .pr = [(.out 7, .pr)] ∧ ¬simpleCallLookups held last := by
  decide

end Flom
