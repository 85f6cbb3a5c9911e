import Flom.Resource

set_option autoImplicit false

namespace Flom

open Scan

def Resource.cleanReaches (resource : Resource) (conn : ConnId) : Prop :=
  match resource with
  | .hier rsrc => conn ∈ resource.holding → hierNodeHolds rsrc.name rsrc.data conn = true
  | _ => True

section

variable {Data Wait H : Type} {m : Manager Data Wait ConnId} (l : Ledger m H)
include l

theorem rsrcClean_records (rsrc : Rsrc Data Wait) (conn : ConnId) (sends : List Rc)
    (done : (rsrcClean m rsrc conn sends).rc = .ok) :
    l.records (rsrcClean m rsrc conn sends).rsrc.data (rsrcClean m rsrc conn sends).rsrc.waitings
        conn = 0 ↔
      l.records rsrc.data rsrc.waitings conn ≤ 1 ∧
        (m.release rsrc.data conn = none → conn ∉ (l.held rsrc.data).map Prod.fst) := by
  have law := l.clean_records Rc.ok rsrc.data rsrc.waitings conn sends done
  have empty : l.heldBy rsrc.data conn = [] ↔ conn ∉ (l.held rsrc.data).map Prod.fst := by
    rw [Ledger.heldBy, List.filter_eq_nil_iff]
    simp only [List.mem_map, not_exists, not_and, decide_eq_true_eq]
  rw [empty] at law
  exact law

theorem rsrcClean_records_of_found (rsrc : Rsrc Data Wait) (conn : ConnId) (sends : List Rc)
    (found : m.release rsrc.data conn = none → conn ∉ (l.held rsrc.data).map Prod.fst)
    (done : (rsrcClean m rsrc conn sends).rc = .ok) :
    l.records (rsrcClean m rsrc conn sends).rsrc.data (rsrcClean m rsrc conn sends).rsrc.waitings
        conn = 0 ↔
      l.records rsrc.data rsrc.waitings conn ≤ 1 := by
  rw [rsrcClean_records l rsrc conn sends done]
  exact and_iff_left found

end

theorem heldPairs_fst {Info : Type} (holders : List (ConnLock Info)) :
    (heldPairs holders).map Prod.fst = holders.map ConnLock.conn := by
  simp [heldPairs, Function.comp_def]

theorem rsrcConnFind_none_notMem {Info Freed : Type} {holders : List (ConnLock Info)}
    {conn : ConnId} {free : ConnLock Info → Freed}
    (missing : (rsrcConnFind holders conn).map free = none) : conn ∉ holders.map ConnLock.conn := by
  simpa [List.mem_map] using rsrcConnFind_eq_none.mp (Option.map_eq_none_iff.mp missing)

theorem sequenceHeld_fst (holders : List (ConnLock SequenceInfo)) :
    (sequenceHeld holders).map Prod.fst = holders.map ConnLock.conn := by
  simp [sequenceHeld, Function.comp_def]

theorem setHeld_fst (elements : List SetElement) :
    (setHeld elements).map Prod.fst = elements.filterMap SetElement.conn := by
  induction elements with
  | nil => rfl
  | cons element rest ih => cases conn : element.conn <;> simp_all [setHeld]

theorem hierHeld_fst (root : HierTree) :
    (hierHeld root).map Prod.fst = root.entries.map fun entry => entry.2.conn := by
  simp [hierHeld, Function.comp_def]

theorem simple_records (rsrc : SimpleRsrc) (conn : ConnId) :
    (Resource.simple rsrc).records conn = simpleLedger.records rsrc.data rsrc.waitings conn := by
  rw [simpleLedger.records_eq_count]
  exact congrArg (List.count conn · + _) (heldPairs_fst rsrc.data.holders).symm

theorem numeric_records (rsrc : NumericRsrc) (conn : ConnId) :
    (Resource.numeric rsrc).records conn = numericLedger.records rsrc.data rsrc.waitings conn := by
  rw [numericLedger.records_eq_count]
  exact congrArg (List.count conn · + _) (heldPairs_fst rsrc.data.holders).symm

theorem set_records (rsrc : SetRsrc) (conn : ConnId) :
    (Resource.set rsrc).records conn = setLedger.records rsrc.data rsrc.waitings conn := by
  rw [setLedger.records_eq_count]
  exact congrArg (List.count conn · + _) (setHeld_fst rsrc.data.elements).symm

theorem hier_records (rsrc : HierRsrc) (conn : ConnId) :
    (Resource.hier rsrc).records conn =
      (hierLedger rsrc.name).records rsrc.data rsrc.waitings conn := by
  rw [(hierLedger rsrc.name).records_eq_count]
  exact congrArg (List.count conn · + _) (hierHeld_fst rsrc.data.root).symm

theorem sequence_records (rsrc : SequenceRsrc) (conn : ConnId) :
    (Resource.sequence rsrc).records conn = sequenceLedger.records rsrc.data rsrc.waitings
    conn := by
  rw [sequenceLedger.records_eq_count]
  exact congrArg (List.count conn · + _) (sequenceHeld_fst rsrc.data.holders).symm

theorem timestamp_records (rsrc : TimestampRsrc) (conn : ConnId) :
    (Resource.timestamp rsrc).records conn =
      timestampLedger.records rsrc.data rsrc.waitings conn := by
  rw [timestampLedger.records_eq_count]
  exact congrArg (List.count conn · + _) (heldPairs_fst rsrc.data.holders).symm

theorem hierCollect_records (cleaned : Cleaned HierData HierWait) (conn : ConnId) :
    (Resource.hier (hierCollect cleaned).rsrc).records conn =
      (Resource.hier cleaned.rsrc).records conn := by
  simp only [Resource.records, Resource.holding, Resource.waiting, hierCollect_entries,
    hierCollect_waitings]

theorem hierRelease_eq_none {name : Name} {data : HierData} {conn : ConnId} :
    hierRelease name data conn = none ↔ hierNodeHolds name data conn = false := by
  simp [hierRelease]

theorem resourceClean_records (resource : Resource) (conn : ConnId) (env : Env)
    (done : (resourceClean resource conn env).rc = .ok) :
    (resourceClean resource conn env).resource.records conn = 0 ↔
      resource.records conn ≤ 1 ∧ resource.cleanReaches conn := by
  cases resource with
  | simple rsrc =>
    simp only [simple_records, Resource.cleanReaches, and_true]
    refine (Eq.congr_left (simple_records _ conn)).trans
      (rsrcClean_records_of_found simpleLedger rsrc conn env.sends ?_ done)
    intro missing
    exact (heldPairs_fst rsrc.data.holders).symm ▸ rsrcConnFind_none_notMem missing
  | numeric rsrc =>
    simp only [numeric_records, Resource.cleanReaches, and_true]
    refine (Eq.congr_left (numeric_records _ conn)).trans
      (rsrcClean_records_of_found numericLedger rsrc conn env.sends ?_ done)
    intro missing
    exact (heldPairs_fst rsrc.data.holders).symm ▸ rsrcConnFind_none_notMem missing
  | set rsrc =>
    simp only [set_records, Resource.cleanReaches, and_true]
    refine (Eq.congr_left (set_records _ conn)).trans
      (rsrcClean_records_of_found setLedger rsrc conn env.sends ?_ done)
    intro missing
    rw [show setLedger.held rsrc.data = setHeld rsrc.data.elements from rfl, setHeld_fst]
    have free := List.findIdx?_eq_none_iff.mp (Option.map_eq_none_iff.mp missing)
    simpa [List.mem_filterMap] using free
  | hier rsrc =>
    have cleaned := rsrcClean_records (hierLedger rsrc.name) rsrc conn env.sends
      ((hierCollect_rc _).symm.trans done)
    rw [hier_records]
    refine (Eq.congr_left ((hierCollect_records _ conn).trans (hier_records _ conn))).trans
      (cleaned.trans (and_congr_right fun _ => ?_))
    rw [show (hierLedger rsrc.name).held rsrc.data = hierHeld rsrc.data.root from rfl, hierHeld_fst,
      show (hierManager rsrc.name).release = hierRelease rsrc.name from rfl, hierRelease_eq_none]
    simp only [Resource.cleanReaches, Resource.holding]
    cases hierNodeHolds rsrc.name rsrc.data conn <;> simp
  | sequence rsrc =>
    simp only [sequence_records, Resource.cleanReaches, and_true]
    refine (Eq.congr_left (sequence_records _ conn)).trans
      (rsrcClean_records_of_found sequenceLedger rsrc conn env.sends ?_ done)
    intro missing
    exact (sequenceHeld_fst rsrc.data.holders).symm ▸ rsrcConnFind_none_notMem missing
  | timestamp rsrc =>
    simp only [timestamp_records, Resource.cleanReaches, and_true]
    refine (Eq.congr_left (timestamp_records _ conn)).trans
      (rsrcClean_records_of_found timestampLedger (timestampSetClock rsrc env.clock) conn env.sends
        ?_ done)
    intro missing
    exact (heldPairs_fst rsrc.data.holders).symm ▸ rsrcConnFind_none_notMem missing

theorem disconnect_leaves_nothing_iff (resource : Resource) (calls : List Call) (conn : ConnId)
    (env : Env) (done : (resourceClean (Run.run resourceStep resource calls) conn env).rc = .ok) :
    let reached := Run.run resourceStep resource calls
    let cleaned := (resourceClean reached conn env).resource
    (conn ∉ cleaned.holding ∧ conn ∉ cleaned.waiting) ↔
      reached.records conn ≤ 1 ∧ reached.cleanReaches conn := by
  intro reached cleaned
  rw [← Resource.records_eq_zero]
  exact resourceClean_records reached conn env done

def hierSiblings : List Call :=
  [.inmsg 1 8 (msgLock ['/', 'r', '/', 'a'] .ex 1 0 1) Env.fine,
    .inmsg 2 8 (msgLock ['/', 'r', '/', 'b'] .ex 1 0 1) Env.fine]

def hierSiblingsStart : Resource :=
  .hier ⟨['/', 'r', '/', 'a'], ⟨.node ['r'] [] [.node ['a'] [] []]⟩, []⟩

theorem disconnect_leaves_nothing_first :
    let reached := Run.run resourceStep hierSiblingsStart hierSiblings
    let cleaned := (resourceClean reached 1 Env.fine).resource
    1 ∉ cleaned.holding ∧ 1 ∉ cleaned.waiting := by
  intro reached cleaned
  refine (disconnect_leaves_nothing_iff hierSiblingsStart hierSiblings 1 Env.fine (by decide)).mpr
    ?_
  exact ⟨by decide, fun _ => by decide⟩

theorem disconnect_leaves_sibling :
    let reached := Run.run resourceStep hierSiblingsStart hierSiblings
    resourceInit .hier ['/', 'r', '/', 'a'] = .ok hierSiblingsStart ∧
      (resourceClean reached 2 Env.fine).rc = .ok ∧
      2 ∈ (resourceClean reached 2 Env.fine).resource.holding := by
  exact ⟨rfl, by decide, by decide⟩

end Flom
