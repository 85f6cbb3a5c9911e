import Flom.ResourceSet

set_option autoImplicit false

namespace Flom

open Scan

def SetData.owner (data : SetData) (slot : Nat) : Option ConnId :=
  data.elements[slot]?.bind SetElement.conn

def SetData.label (data : SetData) (slot : Nat) : Option Name :=
  data.elements[slot]?.map SetElement.name

/-- The connections that are told they hold an element, each with the name that is sent to it. The
first is the one that asks, whose answer the locker sends. -/
def setTold (granted : List (SetData × ConnLock Unit)) : List (ConnId × Option Name) :=
  granted.map fun grant => (grant.2.conn, setElementName grant.1)

def setAnswered (conn : ConnId) (rc : Rc) (msg : Msg) : List (ConnId × Option Name) :=
  if rc = .ok ∧ msg.state = .ready ∧ (msgAnswer msg).rc = .ok then
    [(conn, (msgAnswer msg).element)]
  else []

def setSent (rsrc : SetRsrc) : Call → List (ConnId × Option Name)
  | .inmsg conn lastStep msg env =>
    let result := resourceSetInmsg rsrc conn lastStep msg env.sends
    setAnswered conn result.rc result.msg ++ setTold result.granted
  | .clean conn env => setTold (resourceSetClean rsrc conn env.sends).granted

def setCleaned (rsrc : SetRsrc) : Call → Option ConnId
  | .inmsg conn _ msg _ =>
    if msg.verb = .unlock ∧ some rsrc.name = msg.unlock8.name then some conn else none
  | .clean conn _ => some conn

structure SetData.Keeps (before after : SetData) : Prop where
  names : after.elements.map SetElement.name = before.elements.map SetElement.name
  index : before.index < before.elements.length → after.index < after.elements.length
  owner : ∀ slot conn, before.owner slot = some conn → after.owner slot = some conn

namespace SetData

variable {first second third : SetData}

theorem keeps_refl (data : SetData) : data.Keeps data := ⟨rfl, id, fun _ _ => id⟩

theorem Keeps.trans (before : first.Keeps second) (after : second.Keeps third) :
    first.Keeps third :=
  ⟨after.names.trans before.names, fun bound => after.index (before.index bound),
    fun slot conn owned => after.owner slot conn (before.owner slot conn owned)⟩

theorem Keeps.label (keeps : first.Keeps second) (slot : Nat) :
    second.label slot = first.label slot := by
  simp only [SetData.label, ← List.getElem?_map, keeps.names]

theorem Keeps.free (keeps : first.Keeps second) {slot : Nat} (free : second.owner slot = none) :
    first.owner slot = none := by
  cases owned : first.owner slot with
  | none => rfl
  | some conn =>
    rw [keeps.owner slot conn owned] at free
    cases free

end SetData

section

variable {data : SetData}

theorem owner_assign (slot other : Nat) (conn : Option ConnId) (index : Nat) :
    SetData.owner ⟨setAssign data slot conn, index⟩ other =
      if slot = other then data.elements[other]?.bind fun _ => conn else data.owner other := by
  simp only [SetData.owner, setAssign, List.getElem?_modify]
  by_cases here : slot = other
  · simp only [here, if_true]
    cases data.elements[other]? <;> rfl
  · simp only [here, if_false]
    cases data.elements[other]? <;> rfl

theorem assign_names (slot : Nat) (conn : Option ConnId) :
    (setAssign data slot conn).map SetElement.name = data.elements.map SetElement.name := by
  apply List.ext_getElem?
  intro other
  rw [setAssign, List.getElem?_map, List.getElem?_map, List.getElem?_modify]
  cases data.elements[other]? with
  | none => rfl
  | some element => by_cases here : slot = other <;> simp [here]

theorem assign_length (slot : Nat) (conn : Option ConnId) :
    (setAssign data slot conn).length = data.elements.length := by
  rw [← List.length_map (f := SetElement.name), assign_names, List.length_map]

theorem setManager_take {waiter : ConnLock Unit} (can : setManager.can data waiter = true) :
    data.Keeps (setManager.take data waiter) ∧ ∃ slot name, setElementName data = some name ∧
      data.label slot = some name ∧ data.owner slot = none ∧
      (setManager.take data waiter).owner slot = some waiter.conn := by
  obtain ⟨slot, found⟩ := Option.isSome_iff_exists.mp can
  obtain ⟨element, present, free⟩ := resourceSetCanLock_free found
  have unowned : data.owner slot = none := by simp [SetData.owner, present, free]
  have taken : setManager.take data waiter =
      ⟨setAssign data slot (some waiter.conn), (data.index + 1) % data.elements.length⟩ := by
    simp only [setManager, found]
  rw [taken]
  refine ⟨⟨assign_names slot _, fun bound => ?_, fun other conn owned => ?_⟩, slot, element.name,
    ?_, ?_, unowned, ?_⟩
  · simp only [assign_length]
    exact Nat.mod_lt _ (Nat.zero_lt_of_lt bound)
  · rw [owner_assign]
    by_cases here : slot = other
    · rw [← here, unowned] at owned
      cases owned
    · rwa [if_neg here]
  · simp [setElementName, found, present]
  · simp [SetData.label, present]
  · simp [owner_assign, present]

def Assigned (before after : SetData) (sent : ConnId × Option Name) : Prop :=
  ∃ slot name, sent.2 = some name ∧ before.label slot = some name ∧ before.owner slot = none ∧
    after.owner slot = some sent.1

theorem Assigned.mono {first second third fourth : SetData} {sent : ConnId × Option Name}
    (assigned : Assigned second third sent) (before : first.Keeps second)
    (after : third.Keeps fourth) :
    Assigned first fourth sent := by
  obtain ⟨slot, name, carried, label, free, owned⟩ := assigned
  exact ⟨slot, name, carried, before.label slot ▸ label, before.free free, after.owner slot _ owned⟩

theorem scan_assigned (queue : List (ConnLock Unit)) (sends : List Rc) :
    let scanned := scan setManager.toOps Rc.ok data queue sends
    data.Keeps scanned.state ∧ ∀ sent ∈ setTold scanned.granted,
    Assigned data scanned.state sent := by
  intro scanned
  induction data, queue, sends using scan_cases setManager.toOps Rc.ok with
  | done data sends => exact ⟨data.keeps_refl, by simp [scanned, setTold]⟩
  | granted data waiter rest sends can sent ih =>
    obtain ⟨keeps, slot, name, carried, label, free, owned⟩ := setManager_take can
    obtain ⟨later, assigned⟩ := ih
    refine ⟨keeps.trans later, ?_⟩
    intro sent member
    obtain rfl | inside := List.mem_cons.mp member
    · exact ⟨slot, name, carried, label, free, later.owner slot _ owned⟩
    · exact (assigned sent inside).mono keeps (SetData.keeps_refl _)
  | failed data waiter rest sends can unsent => exact ⟨data.keeps_refl, by simp [scanned, setTold]⟩
  | skipped data waiter rest sends cannot ih => exact ih

structure Freed (conn : ConnId) (before after : SetData) : Prop where
  names : after.elements.map SetElement.name = before.elements.map SetElement.name
  index : after.index = before.index
  kept : ∀ slot owner, before.owner slot = some owner → owner ≠ conn → after.owner slot = some owner
  free : ∀ slot, after.owner slot = none → before.owner slot = none ∨ before.owner slot = some conn

theorem setManager_release {conn : ConnId} {freed : SetData}
    (released : setManager.release data conn = some freed) : Freed conn data freed := by
  obtain ⟨slot, found, rfl⟩ := Option.map_eq_some_iff.mp released
  obtain ⟨bound, mine, _⟩ := List.findIdx?_eq_some_iff_getElem.mp found
  have owned : data.owner slot = some conn := by
    simp only [decide_eq_true_eq] at mine
    simp [SetData.owner, List.getElem?_eq_getElem bound, mine]
  refine ⟨assign_names slot none, rfl, fun other owner held foreign => ?_, fun other free => ?_⟩
  · rw [owner_assign, if_neg]
    · exact held
    · rintro rfl
      rw [owned] at held
      exact foreign (Option.some.inj held).symm
  · rw [owner_assign] at free
    by_cases here : slot = other
    · exact .inr (here ▸ owned)
    · rw [if_neg here] at free
      exact .inl free

end

structure SetStep (cleaned : Option ConnId) (before after : SetData)
    (sent : List (ConnId × Option Name)) : Prop where
  names : after.elements.map SetElement.name = before.elements.map SetElement.name
  index : before.index < before.elements.length → after.index < after.elements.length
  kept : ∀ slot owner, before.owner slot = some owner → after.owner slot = some owner ∨
    cleaned = some owner
  sent : ∀ answer ∈ sent, ∃ slot name, answer.2 = some name ∧ before.label slot = some name ∧
    (before.owner slot = none ∨ before.owner slot = cleaned) ∧ after.owner slot = some answer.1

section

variable {rsrc : SetRsrc}

theorem SetStep.of_keeps {before after : SetData} {sent : List (ConnId × Option Name)}
    (cleaned : Option ConnId) (keeps : before.Keeps after)
    (assigned : ∀ answer ∈ sent, Assigned before after answer) :
    SetStep cleaned before after sent := by
  refine ⟨keeps.names, keeps.index, fun slot owner owned => .inl (keeps.owner slot owner owned), ?_⟩
  intro answer member
  obtain ⟨slot, name, carried, label, free, owned⟩ := assigned answer member
  exact ⟨slot, name, carried, label, .inl free, owned⟩

theorem setClean_step (rsrc : SetRsrc) (conn : ConnId) (sends : List Rc) :
    SetStep (some conn) rsrc.data (resourceSetClean rsrc conn sends).rsrc.data
      (setTold (resourceSetClean rsrc conn sends).granted) := by
  simp only [resourceSetClean, rsrcClean]
  cases released : setManager.release rsrc.data conn with
  | none =>
    rw [setManager.clean_of_none Rc.ok rsrc.data rsrc.waitings conn sends released]
    exact SetStep.of_keeps _ rsrc.data.keeps_refl (by simp [setTold])
  | some freed =>
    rw [setManager.clean_of_some Rc.ok rsrc.data freed rsrc.waitings conn sends released]
    have freeing := setManager_release released
    obtain ⟨keeps, assigned⟩ := @scan_assigned freed rsrc.waitings sends
    have length : freed.elements.length = rsrc.data.elements.length := by
      rw [← List.length_map (f := SetElement.name), freeing.names, List.length_map]
    refine ⟨keeps.names.trans freeing.names, fun bound => keeps.index ?_, fun slot owner owned =>
      ?_, ?_⟩
    · rwa [freeing.index, length]
    · by_cases mine : owner = conn
      · exact .inr (by rw [mine])
      · exact .inl (keeps.owner slot owner (freeing.kept slot owner owned mine))
    · intro answer member
      obtain ⟨slot, name, carried, label, free, owned⟩ := assigned answer member
      refine ⟨slot, name, carried, ?_, freeing.free slot free, owned⟩
      rwa [SetData.label, ← List.getElem?_map, ← freeing.names, List.getElem?_map]

theorem setAnswered_built (conn : ConnId) (step : Int) (rc : Rc) (element : Option Name) :
    setAnswered conn (msgBuildAnswer msgInit .lock step rc element).1
      (msgBuildAnswer msgInit .lock step rc element).2 ⊆
        if rc = .ok then [(conn, element)] else [] := by
  unfold setAnswered
  split_ifs with told ok ok
  · simp [msgBuildAnswer_answer _ _ _ _ _ told.1]
  · exact absurd (by simpa [msgBuildAnswer_answer _ _ _ _ _ told.1] using told.2.2) ok
  · exact List.nil_subset _
  · exact List.nil_subset _

theorem setLock_step (request : Request SetData (ConnLock Unit)) (lastStep : Int) (msg : Msg)
    (element : request.element = setElementName) (refusal : request.refusal ≠ .ok) :
    let result := rsrcLock setManager request rsrc lastStep msg
    SetStep none rsrc.data result.rsrc.data
      (setAnswered request.waiter.conn result.rc result.msg ++ setTold result.granted) := by
  have quiet : ∀ rc, rc ≠ .ok → SetStep none rsrc.data rsrc.data
      (setAnswered request.waiter.conn
          (msgBuildAnswer msgInit .lock (lastStep + msgStepIncr) rc none).1
          (msgBuildAnswer msgInit .lock (lastStep + msgStepIncr) rc none).2 ++ setTold []) := by
    intro rc refused
    refine SetStep.of_keeps _ rsrc.data.keeps_refl fun answer member => ?_
    have inside := setAnswered_built _ _ _ _ (by simpa [setTold] using member)
    rw [if_neg refused] at inside
    cases inside
  simp only [rsrcLock, element]
  cases freed : msgFree msg with
  | mk rc spent =>
    by_cases ok : rc = .ok
    · simp only [ok]
      by_cases can : setManager.can rsrc.data request.waiter = true
      · obtain ⟨keeps, slot, name, carried, label, free, owned⟩ := setManager_take can
        simp only [can, if_true]
        refine SetStep.of_keeps _ keeps fun answer member => ?_
        have inside := setAnswered_built _ _ _ _ (by simpa [setTold] using member)
        obtain rfl := List.mem_singleton.mp inside
        exact ⟨slot, name, carried, label, free, owned⟩
      · rw [if_neg can]
        by_cases waits : request.wait = true
        · rw [if_pos waits]
          exact quiet .lockEnqueued (by simp)
        · rw [if_neg waits]
          exact quiet request.refusal refusal
    · have unanswered : setAnswered request.waiter.conn rc spent = [] := by simp [setAnswered, ok]
      split
      · next same => exact absurd (Prod.mk.inj same).1 ok
      · next failed =>
        obtain ⟨rfl, rfl⟩ := Prod.mk.inj failed
        dsimp only
        rw [unanswered]
        exact SetStep.of_keeps _ rsrc.data.keeps_refl (by simp [setTold])

theorem setUnlock_step (conn : ConnId) (msg : Msg) (sends : List Rc) :
    let result := rsrcUnlock (resourceSetClean rsrc conn sends) rsrc msg
    SetStep (if some rsrc.name = msg.unlock8.name then some conn else none) rsrc.data
    result.rsrc.data
      (setAnswered conn result.rc result.msg ++ setTold result.granted) := by
  simp only [rsrcUnlock]
  by_cases own : some rsrc.name = msg.unlock8.name
  · have unanswered : setAnswered conn (inmsgOfCleaned (resourceSetClean rsrc conn sends) msg).rc
        (inmsgOfCleaned (resourceSetClean rsrc conn sends) msg).msg = [] := by
      unfold inmsgOfCleaned
      by_cases done : (resourceSetClean rsrc conn sends).rc = .ok
      · rw [if_pos done]
        cases freed : msgFree msg with
        | mk rc spent =>
          by_cases ok : rc = .ok
          · simp [ok, setAnswered, msgInit]
          · simp [ok, setAnswered]
      · simp [done, setAnswered]
    have granted : (inmsgOfCleaned (resourceSetClean rsrc conn sends) msg).granted =
        (resourceSetClean rsrc conn sends).granted := by
      unfold inmsgOfCleaned
      split
      · split <;> rfl
      · rfl
    rw [if_pos own, if_pos own, unanswered, granted, inmsgOfCleaned_rsrc, List.nil_append]
    exact setClean_step rsrc conn sends
  · rw [if_neg own, if_neg own]
    exact SetStep.of_keeps _ rsrc.data.keeps_refl (by simp [inmsgError, setAnswered, setTold])

theorem resourceSetStep_set (rsrc : SetRsrc) (call : Call) :
    SetStep (setCleaned rsrc call) rsrc.data (resourceSetStep rsrc call).data
      (setSent rsrc call) := by
  cases call with
  | inmsg conn lastStep msg env =>
    simp only [resourceSetStep, setSent, setCleaned]
    by_cases lock : msg.verb = .lock
    · simp only [resourceSetInmsg, lock, reduceCtorEq, false_and, if_false]
      exact setLock_step ⟨⟨conn, ()⟩, msg.lock8.wait ≠ 0, .lockBusy, setElementName⟩ lastStep msg
        rfl (by simp)
    · by_cases unlock : msg.verb = .unlock
      · simp only [resourceSetInmsg, unlock, true_and]
        exact setUnlock_step conn msg env.sends
      · have other : resourceSetInmsg rsrc conn lastStep msg env.sends =
            inmsgError .protocolError rsrc msg := by
          unfold resourceSetInmsg
          split
          · next here => exact absurd here lock
          · next here => exact absurd here unlock
          · rfl
        rw [other]
        exact SetStep.of_keeps _ rsrc.data.keeps_refl (by simp [inmsgError, setAnswered, setTold])
  | clean conn env => exact setClean_step rsrc conn env.sends

end

structure SetShaped (name : Name) (rsrc : SetRsrc) : Prop where
  names : rsrc.data.elements.map SetElement.name = rsrcGetElements name
  index : name ≠ [] → rsrc.data.index < rsrc.data.elements.length

theorem resourceSetInit_shaped (name : Name) : SetShaped name (resourceSetInit name) := by
  refine ⟨by simp [resourceSetInit, Function.comp_def], fun some_name => ?_⟩
  have some_element : name.splitOn resourceSetSeparator ≠ [] := List.splitOn_ne_nil _ _
  simp only [resourceSetInit, rsrcGetElements, strsplit, if_neg some_name, List.length_map]
  exact List.length_pos_of_ne_nil some_element

theorem resourceSetStep_shaped {name : Name} (rsrc : SetRsrc) (call : Call)
    (shaped : SetShaped name rsrc) :
    SetShaped name (resourceSetStep rsrc call) := by
  have step := resourceSetStep_set rsrc call
  exact ⟨step.names.trans shaped.names, fun some_name => step.index (shaped.index some_name)⟩

theorem set_elements_exclusive (name : Name) (calls : List Call) :
    let rsrc := Run.run resourceSetStep (resourceSetInit name) calls
    SetShaped name rsrc ∧
      (∀ call, SetStep (setCleaned rsrc call) rsrc.data (resourceSetStep rsrc call).data
        (setSent rsrc call)) ∧
      ∀ slot owner more, rsrc.data.owner slot = some owner →
        Run.Along resourceSetStep (fun rsrc call => setCleaned rsrc call ≠ some owner) rsrc more →
        (Run.run resourceSetStep rsrc more).data.owner slot = some owner := by
  intro rsrc
  refine ⟨?_, resourceSetStep_set rsrc, fun slot owner more owned others => ?_⟩
  · exact Run.run_invariant resourceSetStep (SetShaped name) resourceSetStep_shaped _ calls
      (resourceSetInit_shaped name)
  · refine Run.along_invariant resourceSetStep _
      (fun rsrc => rsrc.data.owner slot = some owner) ?_ rsrc more owned others
    exact fun rsrc call owned other =>
      ((resourceSetStep_set rsrc call).kept slot owner owned).resolve_right other

end Flom
