import Flom.Daemon
import Flom.Lib.Graft

set_option autoImplicit false

namespace Flom

structure RsrcMemory where
  type : RsrcType
  name : Option Name
  format : Option Name
  elements : Option (List Name)
  root : Option (Rose Name ConnId)
  rolledBack : Option (List Int)
  holders : List ConnId
  waitings : Option (List ConnId)

def rsrcMemoryReset (type : RsrcType) : RsrcMemory := ⟨type, none, none, none, none, none, [], none⟩

def gArrayNewError : Rc := .other (-200)
def gQueueNewError : Rc := .other (-211)
def gStrdupError : Rc := .other (-212)
def gStrsplitError : Rc := .other (-214)
def gTryMallocError : Rc := .other (-216)

/-- Where init stops it leaves the memory as it is by then. `calls` tells of every library call
that needs memory whether it succeeds; each further one does. -/
abbrev Stopped := Except (Rc × RsrcMemory)

def nextCall (calls : List Bool) : Bool := calls.headD true

def libraryCall (rc : Rc) (memory : RsrcMemory) (calls : List Bool) : Stopped (List Bool) :=
  if nextCall calls then .ok calls.tail else .error (rc, memory)

def startName (name : Name) (memory : RsrcMemory) (calls : List Bool) :
    Stopped (RsrcMemory × List Bool) := do
  let calls ← libraryCall gStrdupError memory calls
  return ({ memory with name := some name }, calls)

def startQueue (memory : RsrcMemory) (calls : List Bool) : Stopped (RsrcMemory × List Bool) := do
  let calls ← libraryCall gQueueNewError memory calls
  return ({ memory with waitings := some [] }, calls)

def startNumber (name : Name) (memory : RsrcMemory) (calls : List Bool) : Stopped (List Bool) := do
  let calls ← libraryCall .regexecError memory calls
  match rsrcGetNumber name memory.type with
  | .ok _ => return calls
  | .error rc => throw (rc, memory)

def startInfix (name : Name) (memory : RsrcMemory) (calls : List Bool) :
    Stopped (RsrcMemory × List Bool) := do
  let memory := { memory with format := none }
  let calls ← libraryCall .regexecError memory calls
  match rsrcGetInfix name memory.type with
  | .ok format =>
    let calls ← libraryCall gStrdupError memory calls
    return ({ memory with format := some format }, calls)
  | .error rc => throw (rc, memory)

def startSimple (name : Name) (memory : RsrcMemory) (calls : List Bool) : Stopped RsrcMemory := do
  let (memory, calls) ← startName name memory calls
  let (memory, _) ← startQueue { memory with holders := [] } calls
  return memory

def startNumeric (name : Name) (memory : RsrcMemory) (calls : List Bool) : Stopped RsrcMemory := do
  let (memory, calls) ← startName name memory calls
  let calls ← startNumber name memory calls
  let (memory, _) ← startQueue { memory with holders := [] } calls
  return memory

def startElements : List Name → RsrcMemory → List Bool → Stopped (RsrcMemory × List Bool)
  | [], memory, calls => .ok (memory, calls)
  | element :: rest, memory, calls => do
    let calls ← libraryCall gStrdupError memory calls
    startElements rest { memory with elements := memory.elements.map (· ++ [element]) } calls

def startSet (name : Name) (memory : RsrcMemory) (calls : List Bool) : Stopped RsrcMemory := do
  let (memory, calls) ← startName name memory calls
  let calls ← libraryCall gArrayNewError memory calls
  let memory := { memory with elements := some [] }
  let calls ← libraryCall gStrsplitError memory calls
  let (memory, calls) ← startElements (rsrcGetElements name) memory calls
  let (memory, _) ← startQueue memory calls
  return memory

def linkedLevels : List Name → Option (Rose Name ConnId)
  | [] => none
  | level :: rest => some (Rose.bare level rest)

def startLevels : List Name → List Name → RsrcMemory → List Bool → Stopped (RsrcMemory × List Bool)
  | _, [], memory, calls => .ok (memory, calls)
  | linked, level :: rest, memory, calls => do
    let calls ← libraryCall gTryMallocError memory calls
    let calls ← libraryCall gStrdupError memory calls
    startLevels (linked ++ [level]) rest { memory with root := linkedLevels (linked ++ [level]) }
      calls

def startHier (name : Name) (memory : RsrcMemory) (calls : List Bool) : Stopped RsrcMemory := do
  if name.head? ≠ some hierResourceSeparator then
    throw (.invalidResourceName, memory)
  let (memory, calls) ← startName name memory calls
  let calls ← libraryCall gStrsplitError memory calls
  let (memory, calls) ← startLevels [] (hierLevels name) memory calls
  let (memory, _) ← startQueue memory calls
  return memory

def startSequence (name : Name) (memory : RsrcMemory) (calls : List Bool) : Stopped RsrcMemory := do
  let (memory, calls) ← startName name memory calls
  let calls ← startNumber name memory calls
  let calls ←
    if rsrcGetTransactional name then libraryCall gQueueNewError memory calls else pure calls
  let memory := { memory with rolledBack := if rsrcGetTransactional name then some [] else none }
  let (memory, _) ← startQueue { memory with holders := [] } calls
  return memory

def startTimestamp (name : Name) (memory : RsrcMemory) (calls : List Bool) : Stopped RsrcMemory :=
  do
  let (memory, calls) ← startName name memory calls
  let (memory, calls) ← startInfix name memory calls
  let calls ← startNumber name memory calls
  let (memory, _) ← startQueue { memory with holders := [] } calls
  if timestampInterval (memory.format.getD []) = ⟨0, 0⟩ then
    throw (.invalidTimestampFormat, memory)
  return memory

/-- flom_resource_init: without a type it stops before it touches the memory it was given. -/
def resourceStart (resource : RsrcMemory) (type : RsrcType) (name : Name) (calls : List Bool) :
    Stopped RsrcMemory :=
  match type with
  | .null => .error (.outOfRange, resource)
  | .simple => startSimple name (rsrcMemoryReset type) calls
  | .numeric => startNumeric name (rsrcMemoryReset type) calls
  | .set => startSet name (rsrcMemoryReset type) calls
  | .hier => startHier name (rsrcMemoryReset type) calls
  | .sequence => startSequence name (rsrcMemoryReset type) calls
  | .timestamp => startTimestamp name (rsrcMemoryReset type) calls

/-- GLib refuses a NULL queue with a warning, unless it is compiled without its argument checks.
-/
def queueFree (checks : Bool) (queue : Option (List ConnId)) : Except Rc Unit :=
  if queue.isSome || checks then .ok () else .error .crash

def rsrcFree (checks : Bool) (resource : RsrcMemory) : Except Rc RsrcMemory := do
  queueFree checks resource.waitings
  return rsrcMemoryReset resource.type

/-- flom_resource_free with the destructors it calls: the set one reads the length of its array
and the hierarchical one descends from its root before anything else. -/
def resourceFree (checks : Bool) (resource : RsrcMemory) : Except Rc RsrcMemory :=
  match resource.type with
  | .null => .ok resource
  | .simple | .numeric | .sequence | .timestamp => rsrcFree checks resource
  | .set =>
    match resource.elements with
    | none => .error .crash
    | some _ => rsrcFree checks resource
  | .hier =>
    match resource.root with
    | none => .error .crash
    | some _ => rsrcFree checks resource

def firstCalls (count : Nat) (calls : List Bool) : Prop := ∀ call ∈ calls.take count, call = true

instance (count : Nat) (calls : List Bool) : Decidable (firstCalls count calls) :=
  inferInstanceAs (Decidable (∀ call ∈ calls.take count, call = true))

theorem firstCalls_succ (count : Nat) (calls : List Bool) :
    firstCalls (count + 1) calls ↔ nextCall calls = true ∧ firstCalls count calls.tail := by
  cases calls with
  | nil => simp [firstCalls, nextCall]
  | cons call rest => simp [firstCalls, nextCall]

@[simp] theorem firstCalls_zero (calls : List Bool) : firstCalls 0 calls := by simp [firstCalls]

def StopsWith {Result : Type} (result : Stopped Result) (left : RsrcMemory → Prop) : Prop :=
  ∀ rc memory, result = .error (rc, memory) → left memory

theorem stopsWith_call {Result : Type} {rc : Rc} {memory : RsrcMemory} {calls : List Bool}
    {next : List Bool → Stopped Result} {left : RsrcMemory → Prop}
    (failed : nextCall calls = false → left memory)
    (passed : nextCall calls = true → StopsWith (next calls.tail) left) :
    StopsWith (libraryCall rc memory calls >>= next) left := by
  unfold libraryCall
  split
  · next succeeds => exact passed succeeds
  · next fails =>
    intro other stopped same
    obtain ⟨_, rfl⟩ := Prod.mk.inj (Except.error.inj same)
    exact failed (by simpa using fails)

theorem stopsWith_name {Result : Type} {name : Name} {memory : RsrcMemory} {calls : List Bool}
    {next : RsrcMemory × List Bool → Stopped Result} {left : RsrcMemory → Prop}
    (failed : nextCall calls = false → left memory)
    (passed : nextCall calls = true →
      StopsWith (next ({ memory with name := some name }, calls.tail)) left) :
    StopsWith (startName name memory calls >>= next) left := by
  rw [startName, bind_assoc]
  exact stopsWith_call failed passed

theorem stopsWith_queue {memory : RsrcMemory} {calls : List Bool} {left : RsrcMemory → Prop}
    (failed : nextCall calls = false → left memory) :
    StopsWith (startQueue memory calls >>= fun started => pure started.1) left := by
  rw [startQueue, bind_assoc]
  refine stopsWith_call failed fun _ rc stopped same => ?_
  cases same

theorem stopsWith_throw {Result : Type} {rc : Rc} {memory : RsrcMemory} {left : RsrcMemory → Prop}
    (here : left memory) : StopsWith (throw (rc, memory) : Stopped Result) left := by
  intro other stopped same
  obtain ⟨_, rfl⟩ := Prod.mk.inj (Except.error.inj same)
  exact here

theorem startSimple_stopped (name : Name) (memory : RsrcMemory) (calls : List Bool)
    (unset : memory.waitings = none) :
    StopsWith (startSimple name memory calls) fun stopped =>
      stopped.type = memory.type ∧ stopped.waitings = none := by
  apply stopsWith_name
  · exact fun _ => ⟨rfl, unset⟩
  · intro _
    exact stopsWith_queue fun _ => ⟨rfl, unset⟩

theorem stopsWith_number {Result : Type} {name : Name} {memory : RsrcMemory} {calls : List Bool}
    {next : List Bool → Stopped Result} {left : RsrcMemory → Prop}
    (failed : nextCall calls = false → left memory)
    (unread : ∀ rc, rsrcGetNumber name memory.type = .error rc → left memory)
    (passed : nextCall calls = true → StopsWith (next calls.tail) left) :
    StopsWith (startNumber name memory calls >>= next) left := by
  rw [startNumber, bind_assoc]
  refine stopsWith_call failed fun succeeds => ?_
  cases number : rsrcGetNumber name memory.type with
  | ok total => exact passed succeeds
  | error rc => exact stopsWith_throw (unread rc number)

theorem startNumeric_stopped (name : Name) (memory : RsrcMemory) (calls : List Bool)
    (unset : memory.waitings = none) :
    StopsWith (startNumeric name memory calls) fun stopped =>
      stopped.type = memory.type ∧ stopped.waitings = none := by
  apply stopsWith_name
  · exact fun _ => ⟨rfl, unset⟩
  · intro _
    apply stopsWith_number
    · exact fun _ => ⟨rfl, unset⟩
    · exact fun _ _ => ⟨rfl, unset⟩
    · intro _
      exact stopsWith_queue fun _ => ⟨rfl, unset⟩

theorem startSequence_stopped (name : Name) (memory : RsrcMemory) (calls : List Bool)
    (unset : memory.waitings = none) :
    StopsWith (startSequence name memory calls) fun stopped =>
      stopped.type = memory.type ∧ stopped.waitings = none := by
  apply stopsWith_name
  · exact fun _ => ⟨rfl, unset⟩
  · intro _
    apply stopsWith_number
    · exact fun _ => ⟨rfl, unset⟩
    · exact fun _ _ => ⟨rfl, unset⟩
    · intro _
      split
      · apply stopsWith_call
        · exact fun _ => ⟨rfl, unset⟩
        · intro _
          exact stopsWith_queue fun _ => ⟨rfl, unset⟩
      · exact stopsWith_queue fun _ => ⟨rfl, unset⟩

theorem startElements_keeps {elements : List Name} {memory : RsrcMemory} {calls : List Bool}
    {next : RsrcMemory × List Bool → Stopped RsrcMemory} {left : RsrcMemory → Prop}
    (here : left memory)
    (step : ∀ memory listed, left memory →
      left { memory with elements := memory.elements.map (· ++ listed) })
    (passed : ∀ memory calls, left memory → StopsWith (next (memory, calls)) left) :
    StopsWith (startElements elements memory calls >>= next) left := by
  induction elements generalizing memory calls with
  | nil => exact passed memory calls here
  | cons element rest ih =>
    rw [startElements, bind_assoc]
    apply stopsWith_call
    · exact fun _ => here
    · exact fun _ => ih (step memory [element] here)

theorem startLevels_keeps {linked levels : List Name} {memory : RsrcMemory} {calls : List Bool}
    {next : RsrcMemory × List Bool → Stopped RsrcMemory} {left : RsrcMemory → Prop}
    (here : left memory)
    (step : ∀ memory linked level, left memory →
      left { memory with root := linkedLevels (linked ++ [level]) })
    (passed : ∀ memory calls, left memory → StopsWith (next (memory, calls)) left) :
    StopsWith (startLevels linked levels memory calls >>= next) left := by
  induction levels generalizing linked memory calls with
  | nil => exact passed memory calls here
  | cons level rest ih =>
    rw [startLevels, bind_assoc]
    apply stopsWith_call
    · exact fun _ => here
    · intro _
      rw [bind_assoc]
      apply stopsWith_call
      · exact fun _ => here
      · exact fun _ => ih (step memory linked level here)

theorem linkedLevels_isSome (linked : List Name) (level : Name) :
    (linkedLevels (linked ++ [level])).isSome = true := by
  cases linked <;> rfl

theorem startSet_stopped (name : Name) (memory : RsrcMemory) (calls : List Bool)
    (unset : memory.waitings = none) (bare : memory.elements = none) :
    StopsWith (startSet name memory calls) fun stopped =>
      stopped.type = memory.type ∧ stopped.waitings = none ∧
        (stopped.elements.isSome = true ↔ firstCalls 2 calls) := by
  simp only [firstCalls_succ, firstCalls_zero, and_true]
  apply stopsWith_name
  · exact fun fails => ⟨rfl, unset, by simp [bare, fails]⟩
  · intro named
    apply stopsWith_call
    · exact fun fails => ⟨rfl, unset, by simp [bare, fails]⟩
    · intro made
      apply stopsWith_call
      · exact fun _ => ⟨rfl, unset, by simp [named, made]⟩
      · intro _
        apply startElements_keeps
        · exact ⟨rfl, unset, by simp [named, made]⟩
        · rintro kept listed ⟨type, queue, elements⟩
          exact ⟨type, queue, by simpa using elements⟩
        · intro kept calls holds
          exact stopsWith_queue fun _ => holds

theorem startHier_stopped (name : Name) (memory : RsrcMemory) (calls : List Bool)
    (unset : memory.waitings = none) (bare : memory.root = none)
    (levels : name.head? = some hierResourceSeparator → hierLevels name ≠ []) :
    StopsWith (startHier name memory calls) fun stopped =>
      stopped.type = memory.type ∧ stopped.waitings = none ∧
        (stopped.root.isSome = true ↔ name.head? = some hierResourceSeparator ∧
        firstCalls 4 calls) := by
  simp only [firstCalls_succ, firstCalls_zero, and_true]
  by_cases separator : name.head? = some hierResourceSeparator
  · simp only [startHier, separator, ne_eq, not_true_eq_false, if_false, true_and]
    apply stopsWith_name
    · exact fun fails => ⟨rfl, unset, by simp [bare, fails]⟩
    · intro named
      apply stopsWith_call
      · exact fun fails => ⟨rfl, unset, by simp [bare, fails]⟩
      · intro split
        cases found : hierLevels name with
        | nil => exact absurd found (levels separator)
        | cons level rest =>
          rw [startLevels, bind_assoc]
          apply stopsWith_call
          · exact fun fails => ⟨rfl, unset, by simp [bare, fails]⟩
          · intro made
            rw [bind_assoc]
            apply stopsWith_call
            · exact fun fails => ⟨rfl, unset, by simp [bare, fails]⟩
            · intro copied
              apply startLevels_keeps
              · exact ⟨rfl, unset, by simp [named, split, made, copied, linkedLevels]⟩
              · rintro kept linked level ⟨type, queue, root⟩
                refine ⟨type, queue, ?_⟩
                simp only [linkedLevels_isSome, named, split, made, copied, and_self]
              · intro kept calls holds
                exact stopsWith_queue fun _ => holds
  · simp only [startHier, separator, ne_eq, not_false_eq_true, if_true, false_and, iff_false]
    exact stopsWith_throw ⟨rfl, unset, by simp [bare]⟩

theorem stopsWith_infix {Result : Type} {name : Name} {memory : RsrcMemory} {calls : List Bool}
    {next : RsrcMemory × List Bool → Stopped Result} {left : RsrcMemory → Prop}
    (failed : nextCall calls = false → left { memory with format := none })
    (unread : ∀ rc, rsrcGetInfix name memory.type = .error rc → left { memory with format := none })
    (uncopied : nextCall calls.tail = false → left { memory with format := none })
    (passed : ∀ format, nextCall calls = true → nextCall calls.tail = true →
      StopsWith (next ({ memory with format := some format }, calls.tail.tail)) left) :
    StopsWith (startInfix name memory calls >>= next) left := by
  rw [startInfix, bind_assoc]
  refine stopsWith_call failed fun matched => ?_
  cases text : rsrcGetInfix name memory.type with
  | ok format =>
    rw [bind_assoc]
    exact stopsWith_call uncopied fun copied => passed format matched copied
  | error rc => exact stopsWith_throw (unread rc text)

theorem startTimestamp_stopped (name : Name) (memory : RsrcMemory) (calls : List Bool)
    (unset : memory.waitings = none) (format : ∀ rc, rsrcGetInfix name memory.type ≠ .error rc)
    (total : ∀ rc, rsrcGetNumber name memory.type ≠ .error rc) :
    StopsWith (startTimestamp name memory calls) fun stopped =>
      stopped.type = memory.type ∧ (stopped.waitings.isSome = true ↔ firstCalls 5 calls) := by
  simp only [firstCalls_succ, firstCalls_zero, and_true]
  apply stopsWith_name
  · exact fun fails => ⟨rfl, by simp [unset, fails]⟩
  · intro named
    apply stopsWith_infix
    · exact fun fails => ⟨rfl, by simp [unset, fails]⟩
    · exact fun rc unread => absurd unread (format rc)
    · exact fun fails => ⟨rfl, by simp [unset, fails]⟩
    · intro text matched copied
      apply stopsWith_number
      · exact fun fails => ⟨rfl, by simp [unset, fails]⟩
      · exact fun rc unread => absurd unread (total rc)
      · intro counted
        rw [startQueue, bind_assoc]
        apply stopsWith_call
        · exact fun fails => ⟨rfl, by simp [unset, fails]⟩
        · intro queued
          simp only [pure_bind]
          split
          · exact stopsWith_throw ⟨rfl, by simp [named, matched, copied, counted, queued]⟩
          · intro rc stopped same
            cases same

def Releasable (checks : Bool) (type : RsrcType) (name : Name) (calls : List Bool) : Prop :=
  (type = .hier → name.head? = some hierResourceSeparator ∧ firstCalls 4 calls) ∧
    (type = .set → firstCalls 2 calls) ∧
    (checks = false → type = .timestamp ∧ firstCalls 5 calls)

instance (checks : Bool) (type : RsrcType) (name : Name) (calls : List Bool) :
    Decidable (Releasable checks type name calls) :=
  inferInstanceAs (Decidable (_ ∧ _ ∧ _))

theorem queueFree_ok_iff (checks : Bool) (queue : Option (List ConnId)) :
    queueFree checks queue = .ok () ↔ queue.isSome = true ∨ checks = true := by
  unfold queueFree
  split
  · next free => simpa using free
  · next stuck => simpa using stuck

theorem rsrcFree_ok_iff (checks : Bool) (resource : RsrcMemory) :
    (∃ freed, rsrcFree checks resource = .ok freed) ↔ resource.waitings.isSome = true ∨
    checks = true := by
  rw [← queueFree_ok_iff]
  unfold rsrcFree
  cases queueFree checks resource.waitings with
  | ok done => exact ⟨fun _ => rfl, fun _ => ⟨_, rfl⟩⟩
  | error rc =>
    constructor
    · rintro ⟨freed, same⟩
      cases same
    · intro same
      cases same

theorem hierLevels_some {name : Name} (separator : name.head? = some hierResourceSeparator)
    (rooted : name ≠ [hierResourceSeparator]) : hierLevels name ≠ [] := by
  cases name with
  | nil => cases separator
  | cons first rest =>
    obtain rfl : first = hierResourceSeparator := Option.some.inj separator
    cases rest with
    | nil => exact absurd rfl rooted
    | cons next others => simp [hierLevels, strsplit]

theorem hierLevels_typed {name : Name} (typed : rsrcGetType name = .hier)
    (separator : name.head? = some hierResourceSeparator) : hierLevels name ≠ [] := by
  apply hierLevels_some separator
  rintro rfl
  exact absurd typed (by decide)

theorem rsrcFree_releasable {checks : Bool} {stopped : RsrcMemory}
    (unset : stopped.waitings = none) :
    (∃ freed, rsrcFree checks stopped = .ok freed) ↔ checks = true := by
  simp [rsrcFree_ok_iff, unset]

theorem resourceStart_stopped (checks : Bool) (resource : RsrcMemory) (name : Name)
    (calls : List Bool) (typed : rsrcGetType name ≠ .null) :
    StopsWith (resourceStart resource (rsrcGetType name) name calls) fun stopped =>
      (∃ freed, resourceFree checks stopped = .ok freed) ↔
          Releasable checks (rsrcGetType name) name calls := by
  intro rc stopped failed
  cases type : rsrcGetType name with
  | null => exact absurd type typed
  | simple =>
    rw [type] at failed
    obtain ⟨same, unset⟩ := startSimple_stopped name _ calls rfl rc stopped failed
    rw [resourceFree, show stopped.type = .simple from same]
    exact (rsrcFree_releasable unset).trans (by cases checks <;> simp [Releasable])
  | numeric =>
    rw [type] at failed
    obtain ⟨same, unset⟩ := startNumeric_stopped name _ calls rfl rc stopped failed
    rw [resourceFree, show stopped.type = .numeric from same]
    exact (rsrcFree_releasable unset).trans (by cases checks <;> simp [Releasable])
  | sequence =>
    rw [type] at failed
    obtain ⟨same, unset⟩ := startSequence_stopped name _ calls rfl rc stopped failed
    rw [resourceFree, show stopped.type = .sequence from same]
    exact (rsrcFree_releasable unset).trans (by cases checks <;> simp [Releasable])
  | timestamp =>
    rw [type] at failed
    obtain ⟨groups, found⟩ := rsrcGroups_typed (.inr (.inr rfl)) type
    obtain ⟨same, queue⟩ := startTimestamp_stopped name (rsrcMemoryReset .timestamp) calls rfl
      (fun rc => by simp [rsrcMemoryReset, rsrcGetInfix, found])
      (fun rc => by simp [rsrcMemoryReset, rsrcGetNumber, found]) rc stopped failed
    rw [resourceFree, show stopped.type = .timestamp from same]
    refine (rsrcFree_ok_iff checks stopped).trans ?_
    rw [queue]
    cases checks <;> simp [Releasable]
  | set =>
    rw [type] at failed
    obtain ⟨same, unset, elements⟩ := startSet_stopped name _ calls rfl rfl rc stopped failed
    rw [resourceFree, show stopped.type = .set from same]
    cases listed : stopped.elements with
    | none =>
      rw [listed] at elements
      simp [Releasable, ← elements]
    | some names =>
      rw [listed] at elements
      refine (rsrcFree_releasable unset).trans ?_
      simp only [Releasable, ← elements, Option.isSome_some, implies_true, true_and]
      cases checks <;> simp
  | hier =>
    rw [type] at failed
    obtain ⟨same, unset, root⟩ := startHier_stopped name _ calls rfl rfl
      (hierLevels_typed type) rc stopped failed
    rw [resourceFree, show stopped.type = .hier from same]
    cases linked : stopped.root with
    | none =>
      rw [linked] at root
      simp [Releasable, ← root]
    | some tree =>
      rw [linked] at root
      refine (rsrcFree_releasable unset).trans ?_
      simp only [Releasable, ← root, Option.isSome_some, implies_true, true_and]
      cases checks <;> simp

theorem failed_start_releasable_iff (checks : Bool) (resource stopped : RsrcMemory) (name : Name)
    (calls : List Bool) (rc : Rc) (typed : rsrcGetType name ≠ .null)
    (failed : resourceStart resource (rsrcGetType name) name calls = .error (rc, stopped)) :
    (∃ freed, resourceFree checks stopped = .ok freed) ↔
    Releasable checks (rsrcGetType name) name calls :=
  resourceStart_stopped checks resource name calls typed rc stopped failed

def plainName : Name := ['R']

theorem failed_start_releasable_iff_queue :
    let stopped : RsrcMemory := { rsrcMemoryReset .simple with name := some plainName }
    resourceStart (rsrcMemoryReset .null) (rsrcGetType plainName) plainName [true, false] =
        .error (gQueueNewError, stopped) ∧
      ((∃ freed, resourceFree true stopped = .ok freed) ↔
        Releasable true (rsrcGetType plainName) plainName [true, false]) :=
  ⟨rfl, failed_start_releasable_iff true (rsrcMemoryReset .null) _ plainName
    [true, false] gQueueNewError (by decide) rfl⟩

def laterLineName : Name := [' ', '\n', '/', 'a']

-- No library call fails: the name has its type from the second line and its first character from
-- the first.
theorem unrooted_name_crashes_cleanup :
    rsrcGetType laterLineName = .hier ∧
      resourceStart (rsrcMemoryReset .null) (rsrcGetType laterLineName) laterLineName [] =
        .error (.invalidResourceName, rsrcMemoryReset .hier) ∧
      resourceFree true (rsrcMemoryReset .hier) = .error .crash :=
  ⟨by decide, rfl, rfl⟩

theorem libraryCall_nil (rc : Rc) (memory : RsrcMemory) : libraryCall rc memory [] = .ok [] := rfl

theorem startElements_nil (elements : List Name) (memory : RsrcMemory) :
    ∃ listed, startElements elements memory [] = .ok (listed, []) := by
  induction elements generalizing memory with
  | nil => exact ⟨memory, rfl⟩
  | cons element rest ih => exact ih _

theorem startLevels_nil (linked levels : List Name) (memory : RsrcMemory) :
    ∃ grown, startLevels linked levels memory [] = .ok (grown, []) := by
  induction levels generalizing linked memory with
  | nil => exact ⟨memory, rfl⟩
  | cons level rest ih => exact ih _ _

theorem startNumber_ok {name : Name} {memory : RsrcMemory} {total : Int32}
    (number : rsrcGetNumber name memory.type = .ok total) :
    startNumber name memory [] = .ok [] := by
  rw [startNumber, libraryCall_nil, number]
  rfl

theorem startNumber_error {name : Name} {memory : RsrcMemory} {rc : Rc}
    (number : rsrcGetNumber name memory.type = .error rc) :
    startNumber name memory [] = .error (rc, memory) := by
  rw [startNumber, libraryCall_nil, number]
  rfl

theorem startInfix_ok {name format : Name} {memory : RsrcMemory}
    (text : rsrcGetInfix name memory.type = .ok format) :
    startInfix name memory [] = .ok ({ memory with format := some format }, []) := by
  rw [startInfix]
  simp only [libraryCall_nil, text]
  rfl

theorem startInfix_error {name : Name} {memory : RsrcMemory} {rc : Rc}
    (text : rsrcGetInfix name memory.type = .error rc) :
    startInfix name memory [] = .error (rc, { memory with format := none }) := by
  rw [startInfix]
  simp only [libraryCall_nil, text]
  rfl

theorem stopped_ok {Result Started : Type} {result : Stopped Result} {init : Except Rc Started}
    {rc : Rc} (done : ∃ memory, result = .ok memory) (started : ∃ rsrc, init = .ok rsrc) :
    (∃ stopped, result = .error (rc, stopped)) ↔ init = .error rc := by
  obtain ⟨memory, rfl⟩ := done
  obtain ⟨rsrc, rfl⟩ := started
  simp

theorem stopped_error {Result Started : Type} {result : Stopped Result} {init : Except Rc Started}
    {rc other : Rc} (stops : ∃ memory, result = .error (other, memory))
    (failed : init = .error other) :
    (∃ stopped, result = .error (rc, stopped)) ↔ init = .error rc := by
  obtain ⟨memory, rfl⟩ := stops
  rw [failed]
  simp

-- Where no library call fails, init stops exactly where the managers' own init does. The bare
-- separator is no resource name: its locker is started without a root.
theorem resourceStart_error_iff (resource : RsrcMemory) (type : RsrcType) (name : Name) (rc : Rc)
    (rooted : name ≠ [hierResourceSeparator]) :
    (∃ stopped, resourceStart resource type name [] = .error (rc, stopped)) ↔
      resourceInit type name = .error rc := by
  cases type with
  | null => exact stopped_error ⟨_, rfl⟩ rfl
  | simple => exact stopped_ok ⟨_, rfl⟩ ⟨_, rfl⟩
  | numeric =>
    have start : resourceStart resource .numeric name [] =
        startNumber name { rsrcMemoryReset .numeric with name := some name } [] >>= fun calls =>
          startQueue { rsrcMemoryReset .numeric with name := some name } calls >>= fun started =>
            pure started.1 := rfl
    have init : resourceInit .numeric name = (resourceNumericInit name).map .numeric := rfl
    cases number : rsrcGetNumber name .numeric with
    | ok total =>
      rw [startNumber_ok number] at start
      exact stopped_ok ⟨_, start⟩ ⟨_, by rw [init, resourceNumericInit, number]; rfl⟩
    | error other =>
      rw [startNumber_error number] at start
      exact stopped_error ⟨_, start⟩ (by rw [init, resourceNumericInit, number]; rfl)
  | set =>
    obtain ⟨listed, elements⟩ := startElements_nil (rsrcGetElements name)
      { rsrcMemoryReset .set with name := some name, elements := some [] }
    have start : resourceStart resource .set name [] = startElements (rsrcGetElements name)
        { rsrcMemoryReset .set with name := some name, elements := some [] } [] >>= fun started =>
          startQueue started.1 started.2 >>= fun started => pure started.1 := rfl
    rw [elements] at start
    exact stopped_ok ⟨_, start⟩ ⟨_, rfl⟩
  | hier =>
    have init : resourceInit .hier name = (resourceHierInit name).map .hier := rfl
    by_cases separator : name.head? = some hierResourceSeparator
    · obtain ⟨grown, levels⟩ := startLevels_nil [] (hierLevels name)
        { rsrcMemoryReset .hier with name := some name }
      have start : resourceStart resource .hier name [] =
          startLevels [] (hierLevels name) { rsrcMemoryReset .hier with name := some name } [] >>=
            fun started => startQueue started.1 started.2 >>= fun started => pure started.1 := by
        rw [resourceStart, startHier, if_neg (by simpa using separator)]
        rfl
      rw [levels] at start
      refine stopped_ok ⟨_, start⟩ ?_
      cases found : hierLevels name with
      | nil => exact absurd found (hierLevels_some separator rooted)
      | cons level rest =>
        cases name with
        | nil => cases separator
        | cons first text =>
          obtain rfl : first = hierResourceSeparator := Option.some.inj separator
          exact ⟨_, by rw [init, resourceHierInit, if_pos rfl, found]; rfl⟩
    · have start : resourceStart resource .hier name [] = .error
          (.invalidResourceName, rsrcMemoryReset .hier) := by
        rw [resourceStart, startHier, if_pos separator]
        rfl
      refine stopped_error ⟨_, start⟩ ?_
      cases name with
      | nil => rfl
      | cons first text =>
        have other : first ≠ hierResourceSeparator := fun same => separator (by rw [same]; rfl)
        rw [init, resourceHierInit, if_neg other]
        rfl
  | sequence =>
    have start : resourceStart resource .sequence name [] =
        startNumber name { rsrcMemoryReset .sequence with name := some name } [] >>= fun calls =>
          if rsrcGetTransactional name then
            libraryCall gQueueNewError { rsrcMemoryReset .sequence with name := some name } calls
                >>= fun calls =>
              startQueue { rsrcMemoryReset .sequence with
                name := some name
                rolledBack := if rsrcGetTransactional name then some
                    [] else none } calls >>= fun started =>
                pure started.1
          else startQueue { rsrcMemoryReset .sequence with
              name := some name
              rolledBack := if rsrcGetTransactional name then some
                  [] else none } calls >>= fun started =>
              pure started.1 := rfl
    have init : resourceInit .sequence name = (resourceSequenceInit name).map .sequence := rfl
    cases number : rsrcGetNumber name .sequence with
    | ok total =>
      rw [startNumber_ok number] at start
      refine stopped_ok ?_ ⟨_, by rw [init, resourceSequenceInit, number]; rfl⟩
      rw [start]
      cases rsrcGetTransactional name <;> exact ⟨_, rfl⟩
    | error other =>
      rw [startNumber_error number] at start
      exact stopped_error ⟨_, start⟩ (by rw [init, resourceSequenceInit, number]; rfl)
  | timestamp =>
    have start : resourceStart resource .timestamp name [] =
        startInfix name { rsrcMemoryReset .timestamp with name := some name } [] >>= fun started =>
          startNumber name started.1 started.2 >>= fun calls =>
            startQueue { started.1 with holders := [] } calls >>= fun started =>
              if timestampInterval (started.1.format.getD []) = ⟨0, 0⟩ then
                throw (.invalidTimestampFormat, started.1)
              else pure started.1 := rfl
    have init : resourceInit .timestamp name = (resourceTimestampInit name).map .timestamp := rfl
    cases text : rsrcGetInfix name .timestamp with
    | error other =>
      rw [startInfix_error text] at start
      exact stopped_error ⟨_, start⟩ (by rw [init, resourceTimestampInit, text]; rfl)
    | ok format =>
      rw [startInfix_ok text] at start
      have queued : resourceStart resource .timestamp name [] = startNumber name
          { rsrcMemoryReset .timestamp with name := some name, format := some format }
              [] >>= fun calls =>
            startQueue { rsrcMemoryReset .timestamp with name := some name, format := some format }
              calls >>=
              fun started =>
                if timestampInterval (started.1.format.getD []) = ⟨0, 0⟩ then
                  throw (.invalidTimestampFormat, started.1)
                else pure started.1 := start
      cases number : rsrcGetNumber name .timestamp with
      | error other =>
        rw [startNumber_error number] at queued
        exact stopped_error ⟨_, queued⟩
          (by rw [init, resourceTimestampInit, text]; simp [number]; rfl)
      | ok total =>
        rw [startNumber_ok number] at queued
        by_cases undefined : timestampInterval format = ⟨0, 0⟩
        · have stops : resourceTimestampInit name = .error .invalidTimestampFormat := by
            simp [resourceTimestampInit, text, number, bind, Except.bind, undefined]
            rfl
          refine stopped_error ⟨{ rsrcMemoryReset .timestamp with
            name := some name, format := some format, waitings :=
              some [] }, queued.trans ?_⟩ (by rw [init, stops]; rfl)
          exact if_pos undefined
        · have starts : ∃ rsrc, resourceTimestampInit name = .ok rsrc := by
            simp [resourceTimestampInit, text, number, bind, Except.bind, undefined, pure,
              Except.pure]
          obtain ⟨rsrc, starts⟩ := starts
          refine stopped_ok ⟨_, queued.trans (if_neg undefined)⟩ ⟨_, by rw [init, starts]; rfl⟩

theorem acceptLoopStartLocker_crash (daemon : Daemon) (name : Name) (accept : Accept)
    (resource stopped : RsrcMemory) (rc : Rc) (typed : rsrcGetType name ≠ .null)
    (failed : resourceStart resource (rsrcGetType name) name [] = .error (rc, stopped)) :
    (acceptLoopStartLocker daemon (rsrcGetType name) name accept).1 = .crash ↔
      ¬∃ freed, resourceFree true stopped = .ok freed := by
  have rooted : name ≠ [hierResourceSeparator] := by
    rintro rfl
    exact typed (by decide)
  have init := (resourceStart_error_iff resource (rsrcGetType name) name rc rooted).mp
    ⟨stopped, failed⟩
  have released : (∃ freed, resourceFree true stopped = .ok freed) ↔
      Releasable true (rsrcGetType name) name [] :=
    resourceStart_stopped true resource name [] typed rc stopped failed
  rw [released, acceptLoopStartLocker, init]
  by_cases hier : rsrcGetType name = .hier
  · have unrooted : name.head? ≠ some hierResourceSeparator := by
      intro separator
      rw [hier] at init
      cases name with
      | nil => cases separator
      | cons first text =>
        obtain rfl : first = hierResourceSeparator := Option.some.inj separator
        have levels := hierLevels_some rfl rooted
        cases found : hierLevels (hierResourceSeparator :: text) with
        | nil => exact levels found
        | cons level rest =>
          rw [resourceInit, resourceHierInit, if_pos rfl, found] at init
          cases init
    simp [hier, Releasable, unrooted]
  · have survives : rc ≠ .crash := by
      rintro rfl
      exact hier (resourceInit_crash init)
    simp [hier, survives, Releasable, firstCalls]

end Flom
