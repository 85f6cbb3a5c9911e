import Flom.ResourceHierTree

set_option autoImplicit false

namespace Flom

mutual

/-- The collector as it is written: a node that goes is taken out of the array that the loop is
indexing. The fuel counts calls and rounds of the loop. -/
def hierCollectNode : Nat → HierTree → Option HierTree
  | 0, _ => none
  | fuel + 1, .node name holders leaves => (hierCollectLoop fuel leaves 0).map (.node name holders)

def hierCollectLoop : Nat → List HierTree → Nat → Option (List HierTree)
  | 0, _, _ => none
  | fuel + 1, leaves, i =>
    match leaves[i]? with
    | none => some leaves
    | some leaf =>
      match hierCollectNode fuel leaf with
      | none => none
      | some child =>
        if child.children.isEmpty && child.items.isEmpty then hierCollectLoop fuel
          (leaves.eraseIdx i) i
        else hierCollectLoop fuel (leaves.set i child) (i + 1)

end

-- What is in front of the index has been looked at, and stays.
theorem hierCollectLoop_eq {leaves : List HierTree}
    (each : ∀ leaf ∈ leaves, ∀ fuel, 3 * leaf.size ≤ fuel →
      hierCollectNode fuel leaf = some (resourceHierGc leaf)) (kept : List HierTree) (fuel : Nat)
    (enough : 3 * Rose.sizeAll leaves < fuel) :
    hierCollectLoop fuel (kept ++ leaves) kept.length = some
      (kept ++ resourceHierGcLeaves leaves) := by
  induction leaves generalizing kept fuel with
  | nil =>
    cases fuel with
    | zero => omega
    | succ fuel =>
      rw [hierCollectLoop, List.getElem?_append_right (Nat.le_refl _)]
      simp [resourceHierGcLeaves]
  | cons leaf others ih =>
    rw [List.forall_mem_cons] at each
    rw [Rose.sizeAll] at enough
    have positive : 0 < leaf.size := by
      cases leaf
      exact Nat.succ_pos _
    cases fuel with
    | zero => omega
    | succ fuel =>
      have here : (kept ++ leaf :: others)[kept.length]? = some leaf := by simp
      rw [hierCollectLoop, here]
      dsimp only
      rw [each.1 fuel (by omega), resourceHierGcLeaves]
      dsimp only
      split
      · rw [List.eraseIdx_append_of_length_le (Nat.le_refl _), Nat.sub_self,
          List.eraseIdx_cons_zero]
        exact ih each.2 kept fuel (by omega)
      · have next := ih each.2 (kept ++ [resourceHierGc leaf]) fuel (by omega)
        rw [List.set_append_right _ _ (Nat.le_refl _), Nat.sub_self, List.set_cons_zero]
        simpa using next

theorem hierCollectNode_eq (tree : HierTree) (fuel : Nat) (enough : 3 * tree.size ≤ fuel) :
    hierCollectNode fuel tree = some (resourceHierGc tree) := by
  induction tree using Rose.induct generalizing fuel with
  | node name holders leaves ih =>
    rw [Rose.size] at enough
    cases fuel with
    | zero => omega
    | succ fuel =>
      have loop := hierCollectLoop_eq ih [] fuel (by omega)
      rw [List.nil_append, List.length_nil] at loop
      rw [hierCollectNode, loop, resourceHierGc]
      rfl

theorem resourceHierGc_inhabited (tree : HierTree) : resourceHierGc tree = tree.inhabited := by
  rw [resourceHierGc_eq, Rose.prune_eq_inhabited]

structure Collected (tree collected : HierTree) : Prop where
  survivors : collected = tree.inhabited
  holders : collected.entries = tree.entries
  locks : ∀ lock path, resourceHierCanLock collected lock path = resourceHierCanLock tree lock path
  again : ∀ fuel, 3 * collected.size ≤ fuel → hierCollectNode fuel collected = some collected

theorem hier_collection_exact (root : HierTree) :
    ∃ collected, (∀ fuel, 3 * root.size ≤ fuel → hierCollectNode fuel root = some collected) ∧
      Collected root collected := by
  refine ⟨resourceHierGc root, hierCollectNode_eq root, resourceHierGc_inhabited root,
    resourceHierGc_entries root,
    resourceHierGc_canLock root, fun fuel enough => ?_⟩
  rw [hierCollectNode_eq _ fuel enough, resourceHierGc_inhabited, resourceHierGc_inhabited,
    Rose.inhabited_idem]

example :
    let leaf (name : Char) (holders : List HierLock) (leaves : List HierTree) : HierTree :=
      .node [name] holders leaves
    (hierCollectNode 18 (leaf 'r' [] [leaf 'a' [] [], leaf 'b' [] [leaf 'c' [] []],
      leaf 'd' [] [leaf 'e' [⟨1, .ex, false⟩] []]])).map Rose.paths =
        some (Rose.paths (leaf 'r' [] [leaf 'd' [] [leaf 'e' [⟨1, .ex, false⟩] []]])) := by
  decide

end Flom
