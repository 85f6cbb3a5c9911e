import Flom.Lib.Run
import Flom.Rsrc
import Flom.RsrcName

set_option autoImplicit false

namespace Flom

open Scan

structure SetElement where
  name : Name
  conn : Option ConnId
deriving DecidableEq, Repr

structure SetData where
  elements : List SetElement
  index : Nat
deriving DecidableEq, Repr

abbrev SetRsrc := Rsrc SetData (ConnLock Unit)

def setSlotFree (data : SetData) (slot : Nat) : Bool :=
  match data.elements[slot]? with
  | some element => element.conn = none
  | none => false

def resourceSetCanLock (data : SetData) : Option Nat :=
  ((List.range data.elements.length).map fun i => (i + data.index) % data.elements.length).find?
    (setSlotFree data)

def setAssign (data : SetData) (slot : Nat) (conn : Option ConnId) : List SetElement :=
  data.elements.modify slot fun element => { element with conn := conn }

def setElementName (data : SetData) : Option Name :=
  (resourceSetCanLock data).bind fun slot => data.elements[slot]?.map SetElement.name

def resourceSetInit (name : Name) : SetRsrc :=
  ⟨name, ⟨(rsrcGetElements name).map fun element => ⟨element, none⟩, 0⟩, []⟩

def setManager : Manager SetData (ConnLock Unit) ConnId where
  can data _ := (resourceSetCanLock data).isSome
  skip data _ := data
  take data waiter :=
    match resourceSetCanLock data with
    | some slot =>
      { elements := setAssign data slot (some waiter.conn)
        index := (data.index + 1) % data.elements.length }
    | none => data
  fail data _ := data
  conn := ConnLock.conn
  release data conn :=
    (data.elements.findIdx? fun element => element.conn = some conn).map fun slot =>
      { data with elements := setAssign data slot none }

def resourceSetWaitings (rsrc : SetRsrc) (sends : List Rc) : Cleaned SetData (ConnLock Unit) :=
  rsrcWaitings setManager rsrc sends

def resourceSetClean (rsrc : SetRsrc) (conn : ConnId) (sends : List Rc) :
    Cleaned SetData (ConnLock Unit) :=
  rsrcClean setManager rsrc conn sends

def resourceSetInmsg (rsrc : SetRsrc) (conn : ConnId) (lastStep : Int) (msg : Msg)
    (sends : List Rc) : Inmsg SetData (ConnLock Unit) :=
  match msg.verb with
  | .lock =>
    rsrcLock setManager ⟨⟨conn, ()⟩, msg.lock8.wait ≠ 0, .lockBusy, setElementName⟩ rsrc lastStep
      msg
  | .unlock => rsrcUnlock (resourceSetClean rsrc conn sends) rsrc msg
  | _ => inmsgError .protocolError rsrc msg

def resourceSetStep (rsrc : SetRsrc) : Call → SetRsrc
  | .inmsg conn lastStep msg env => (resourceSetInmsg rsrc conn lastStep msg env.sends).rsrc
  | .clean conn env => (resourceSetClean rsrc conn env.sends).rsrc

def setHeld (elements : List SetElement) : List (ConnId × Name) :=
  elements.filterMap fun element => element.conn.map fun conn => (conn, element.name)

theorem resourceSetCanLock_free {data : SetData} {slot : Nat}
    (found : resourceSetCanLock data = some slot) :
    ∃ element, data.elements[slot]? = some element ∧ element.conn = none := by
  have free : setSlotFree data slot = true := List.find?_some found
  unfold setSlotFree at free
  split at free
  · next element present => exact ⟨element, present, by simpa using free⟩
  · cases free

theorem roundRobin_surjective {length slot : Nat} (index : Nat) (bound : slot < length) :
    ∃ turn < length, (turn + index) % length = slot := by
  have positive : 0 < length := by omega
  refine ⟨(slot + (length - index % length)) % length, Nat.mod_lt _ positive, ?_⟩
  have below := Nat.mod_lt index positive
  have whole := Nat.mod_add_div index length
  have shifted : slot + (length - index % length) + index = slot + length *
      (1 + index / length) := by
    rw [Nat.mul_add, Nat.mul_one]
    omega
  rw [Nat.mod_add_mod, shifted, Nat.add_mul_mod_self_left, Nat.mod_eq_of_lt bound]

theorem resourceSetCanLock_eq_none {data : SetData} :
    resourceSetCanLock data = none ↔ ∀ element ∈ data.elements, element.conn ≠ none := by
  constructor
  · intro busy element member free
    obtain ⟨slot, bound, rfl⟩ := List.getElem_of_mem member
    obtain ⟨turn, inside, reached⟩ := roundRobin_surjective data.index bound
    have looked := List.find?_eq_none.mp busy slot
      (List.mem_map.mpr ⟨turn, List.mem_range.mpr inside, reached⟩)
    simp [setSlotFree, List.getElem?_eq_getElem bound, free] at looked
  · intro busy
    by_contra found
    obtain ⟨slot, found⟩ := Option.ne_none_iff_exists'.mp found
    obtain ⟨element, present, free⟩ := resourceSetCanLock_free found
    exact busy element (List.mem_of_getElem? present) free

theorem setHeld_append (first second : List SetElement) :
    setHeld (first ++ second) = setHeld first ++ setHeld second :=
  List.filterMap_append

theorem setHeld_modify {elements : List SetElement} {slot : Nat} {element : SetElement}
    (present : elements[slot]? = some element) (update : SetElement → SetElement) :
    (setHeld elements).Perm (setHeld [element] ++ setHeld (elements.eraseIdx slot)) ∧
      (setHeld (elements.modify slot update)).Perm
        (setHeld [update element] ++ setHeld (elements.eraseIdx slot)) := by
  obtain ⟨bound, rfl⟩ := List.getElem?_eq_some_iff.mp present
  have erased := List.eraseIdx_eq_take_drop_succ elements slot
  have around : ∀ middle : SetElement,
      (setHeld (elements.take slot ++ middle :: elements.drop (slot + 1))).Perm
        (setHeld [middle] ++ setHeld (elements.eraseIdx slot)) := by
    intro middle
    rw [erased, setHeld_append, setHeld_append, ← List.singleton_append, setHeld_append]
    exact List.perm_append_comm_assoc _ _ _
  constructor
  · have whole : elements.take slot ++ elements[slot] :: elements.drop (slot + 1) = elements := by
      rw [← List.drop_eq_getElem_cons bound, List.take_append_drop]
    have same := around elements[slot]
    rwa [whole] at same
  · rw [List.modify_eq_take_cons_drop bound]
    exact around (update elements[slot])

theorem set_antitone : Antitone setManager.toOps (fun _ => True) fun _ => True where
  take _ _ _ _ _ := trivial
  fail _ _ _ _ _ := trivial
  skip _ _ _ := trivial
  take_can _ _ _ _ _ _ can _ := can
  fail_can _ _ _ _ _ _ _ later := later
  skip_can _ _ _ := rfl

def setLedger : Ledger setManager Name where
  held data := setHeld data.elements
  item data _ := (setElementName data).getD []
  take_held data waiter can := by
    obtain ⟨slot, found⟩ := Option.isSome_iff_exists.mp can
    obtain ⟨element, present, free⟩ := resourceSetCanLock_free found
    obtain ⟨before, after⟩ := setHeld_modify present fun element =>
      { element with conn := some waiter.conn }
    simp only [setManager, setElementName, setAssign, found]
    refine after.trans ?_
    simpa [setHeld, free, present] using before.symm
  skip_held _ _ := rfl
  fail_held _ _ _ := .inl (List.Perm.refl _)
  release_held data conn freed released := by
    obtain ⟨slot, found, rfl⟩ := Option.map_eq_some_iff.mp released
    obtain ⟨bound, mine, _⟩ := List.findIdx?_eq_some_iff_getElem.mp found
    obtain ⟨before, after⟩ := setHeld_modify (List.getElem?_eq_getElem bound) fun element =>
      { element with conn := none }
    refine ⟨data.elements[slot].name, before.trans ?_⟩
    simp only [decide_eq_true_eq] at mine
    simpa [setHeld, mine, setAssign] using after.symm

end Flom
