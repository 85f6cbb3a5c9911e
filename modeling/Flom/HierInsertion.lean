import Flom.ResourceHierTree

set_option autoImplicit false

namespace Flom

structure HierSearch where
  address : List Nat
  node : HierTree
  nodeIsLeaf : Bool
  continueSearch : Bool
  levels : List Name

def hierSearchLeaves (next : Option Name) : Nat → List HierTree → HierSearch → HierSearch
  | _, [], search => search
  | i, leaf :: others, search =>
    let visited := { search with nodeIsLeaf := false }
    if next = some leaf.label then
      { visited with address := search.address ++ [i], node := leaf, continueSearch := true }
    else hierSearchLeaves next (i + 1) others visited

def hierSearchLevels : List Name → HierSearch → HierSearch
  | [], search => { search with levels := [] }
  | level :: rest, search =>
    if search.continueSearch && level = search.node.label then
      hierSearchLevels rest (hierSearchLeaves rest.head? 0 search.node.children
        { search with nodeIsLeaf := true, continueSearch := false, levels := level :: rest })
    else { search with nodeIsLeaf := true, levels := level :: rest }

def hierExtend (cl : HierLock) : List Name → HierTree → HierTree
  | [], .node name holders leaves => .node name (cl :: holders) leaves
  | level :: rest, .node name holders leaves =>
    .node name holders (leaves ++ [hierExtend cl rest (.node level [] [])])

def resourceHierAddLockerLoop (data : HierData) (cl : HierLock) (splittedName : List Name) :
    Except Rc HierData :=
  let search := hierSearchLevels splittedName ⟨[], data.root, true, true, splittedName⟩
  if search.levels ≠ [] ∧ search.nodeIsLeaf = true then
    .ok { data with root := data.root.update (hierExtend cl search.levels) search.address }
  else if search.levels ≠ [] ∧ search.nodeIsLeaf = false then .error .internalError
  else .ok { data with root := data.root.update (hierExtend cl []) search.address }

theorem hierSearchLeaves_eq (next : Option Name) (i : Nat) (leaves : List HierTree)
    (search : HierSearch) :
    (∃ position leaf, leaves.findIdx? (fun leaf => next = some leaf.label) = some position ∧
        leaves[position]? = some leaf ∧
        hierSearchLeaves next i leaves search =
          ⟨search.address ++ [i + position], leaf, false, true, search.levels⟩) ∨
      leaves.findIdx? (fun leaf => next = some leaf.label) = none ∧
        hierSearchLeaves next i leaves search =
          { search with nodeIsLeaf := search.nodeIsLeaf && leaves.isEmpty } := by
  induction leaves generalizing i search with
  | nil => simp [hierSearchLeaves]
  | cons leaf others ih =>
    rw [hierSearchLeaves]
    by_cases here : next = some leaf.label
    · left
      refine ⟨0, leaf, ?_, rfl, ?_⟩
      · simp [List.findIdx?_cons, here]
      · simp [here]
    · have later := ih (i + 1) { search with nodeIsLeaf := false }
      simp only [if_neg here]
      rcases later with ⟨position, found, index, present, same⟩ | ⟨nowhere, same⟩
      · left
        refine ⟨position + 1, found, ?_, by simpa using present, ?_⟩
        · simp [List.findIdx?_cons, here, index]
        · rw [same]
          simp [Nat.add_comm, Nat.add_left_comm]
      · right
        refine ⟨?_, ?_⟩
        · simp [List.findIdx?_cons, here, nowhere]
        · rw [same]
          simp

theorem hierLeaf_next (leaves : List HierTree) (next : Name) :
    leaves.findIdx? (fun leaf => some next = some leaf.label) = hierLeaf leaves next := by
  rw [hierLeaf]
  congr
  funext leaf
  simp [eq_comm]

theorem hierSearchLeaves_none (i : Nat) (leaves : List HierTree) (search : HierSearch) :
    hierSearchLeaves none i leaves search =
      { search with nodeIsLeaf := search.nodeIsLeaf && leaves.isEmpty } := by
  rcases hierSearchLeaves_eq none i leaves search with ⟨position, leaf, found, _⟩ | ⟨_, same⟩
  · obtain ⟨_, named, _⟩ := List.findIdx?_eq_some_iff_getElem.mp found
    simp at named
  · exact same

theorem hierSearchLevels_stopped (path : List Name) (search : HierSearch)
    (stopped : search.continueSearch = false) (missing : path ≠ []) :
    hierSearchLevels path search = { search with nodeIsLeaf := true, levels := path } := by
  cases path with
  | nil => exact absurd rfl missing
  | cons level rest => simp [hierSearchLevels, stopped]

theorem hierSearchLevels_reach (path : List Name) (search : HierSearch)
    (continues : search.continueSearch = true) :
    let found := hierSearchLevels path search
    found.address = search.address ++ (hierReach path search.node).1 ∧
      found.levels = (hierReach path search.node).2 ∧
      (found.levels ≠ [] → found.nodeIsLeaf = true) := by
  induction path generalizing search with
  | nil => simp [hierSearchLevels, hierReach]
  | cons level rest ih =>
    obtain ⟨address, tree, leafSeen, goes, levels⟩ := search
    obtain rfl : goes = true := continues
    cases tree with
    | node name holders leaves =>
      rw [hierSearchLevels, hierReach.eq_def]
      by_cases same : level = name
      · subst same
        simp only [Rose.label, Rose.children, Bool.true_and, decide_true, if_true]
        cases rest with
        | nil => simp [hierSearchLeaves_none, hierSearchLevels]
        | cons next others =>
          rcases hierSearchLeaves_eq (some next) 0 leaves
            ⟨address, .node level holders leaves, true, false, level :: next :: others⟩ with
            ⟨position, leaf, index, present, moved⟩ | ⟨nowhere, stayed⟩
          · have below := ih ⟨address ++ [position], leaf, false, true, level :: next :: others⟩ rfl
            rw [hierLeaf_next] at index
            simp only [List.head?_cons, moved, Nat.zero_add, index, Option.bind_some, present,
              Option.map_some]
            simpa only [List.append_assoc, List.singleton_append] using below
          · rw [hierLeaf_next] at nowhere
            simp only [List.head?_cons, stayed, nowhere, Option.bind_none]
            rw [hierSearchLevels_stopped (next :: others) _ rfl (by simp)]
            simp
      · simp [Rose.label, same]

theorem hierExtend_node (cl : HierLock) (rest : List Name) (level : Name) :
    hierExtend cl rest (.node level [] []) = hierChain cl level rest := by
  induction rest generalizing level with
  | nil => rfl
  | cons next rest ih => simp [hierExtend, hierChain, ih]

theorem hierExtend_attach (cl : HierLock) (missing : List Name) :
    hierExtend cl missing = hierAttach cl missing := by
  funext tree
  cases tree with
  | node name holders leaves =>
    cases missing with
    | nil => rfl
    | cons level rest => simp [hierExtend, hierAttach, hierExtend_node]

theorem resourceHierAddLockerLoop_eq (data : HierData) (cl : HierLock) (path : List Name) :
    resourceHierAddLockerLoop data cl path = .ok (resourceHierAddLocker data cl path) := by
  obtain ⟨address, levels, leaf⟩ := hierSearchLevels_reach path ⟨[], data.root, true, true, path⟩
    rfl
  rw [resourceHierAddLockerLoop, resourceHierAddLocker]
  simp only [List.nil_append] at address
  by_cases ends : (hierReach path data.root).2 = []
  · simp [address, levels, ends, hierExtend_attach]
  · simp [address, levels, ends, leaf (levels ▸ ends), hierExtend_attach]

theorem hierReach_fresh {path : List Name} {tree sub : HierTree}
    (rooted : path.head? = some tree.label)
    (reached : tree.subtree (hierReach path tree).1 = some sub) :
    ∀ level ∈ (hierReach path tree).2.head?, level ∉ sub.children.map Rose.label := by
  induction path generalizing tree with
  | nil => cases rooted
  | cons level rest ih =>
    cases tree with
    | node name holders leaves =>
      obtain rfl : level = name := Option.some.inj rooted
      rw [hierReach.eq_def] at reached ⊢
      simp only [if_true] at reached ⊢
      cases rest with
      | nil => simp
      | cons next others =>
        dsimp only at reached ⊢
        split at reached
        · next position leaf found =>
          obtain ⟨present, named⟩ := hierLeaf_found found
          apply ih
          · simp [named]
          · simpa [Rose.subtree, present] using reached
        · next nowhere =>
          simp only [List.head?_cons, Option.mem_def, Option.some.injEq, forall_eq']
          obtain rfl := Option.some.inj reached
          intro listed
          obtain ⟨leaf, member, named⟩ := List.mem_map.mp listed
          rw [hierLeaf] at nowhere
          cases index : leaves.findIdx? (fun leaf => leaf.label = next) with
          | none => simpa [named] using List.findIdx?_eq_none_iff.mp index leaf member
          | some position =>
            obtain ⟨bound, _⟩ := List.findIdx?_eq_some_iff_getElem.mp index
            simp [index, bound] at nowhere

theorem resourceHierAddLocker_distinct {data : HierData} (cl : HierLock) {path : List Name}
    (distinct : data.root.Distinct) (rooted : path.head? = some data.root.label) :
    (resourceHierAddLocker data cl path).root.Distinct := by
  apply Rose.distinct_update
  · exact fun tree => by cases tree; cases (hierReach path data.root).2 <;> rfl
  · intro sub reached below
    rw [hierAttach_eq]
    exact Rose.attach_distinct below (hierReach_fresh rooted reached)
  · exact distinct

theorem resourceHierAddLocker_paths (data : HierData) (cl : HierLock) {path : List Name}
    (rooted : path.head? = some data.root.label) (other : List Name) :
    other ∈ (resourceHierAddLocker data cl path).root.paths ↔
      other ∈ data.root.paths ∨ other ≠ [] ∧ other <+: path := by
  obtain ⟨sub, reached, place⟩ := hierReach_spec path data.root
  rw [hierPlace, if_pos rooted] at place
  have attached : ∀ below, below ∈ (hierAttach cl (hierReach path data.root).2 sub).paths ↔
    below ∈ sub.paths ∨
      ∃ rest, rest ≠ [] ∧ rest <+: (hierReach path data.root).2 ∧ below = sub.label :: rest := by
    rw [hierAttach_eq]
    exact Rose.attach_paths cl _ sub
  have grown := Rose.mem_paths_update _ reached attached other
  rw [resourceHierAddLocker, grown]
  constructor
  · rintro (old | ⟨_, ⟨rest, some_level, part, rfl⟩, rfl⟩)
    · exact .inl old
    · have below := (List.prefix_append_right_inj
        (Rose.above (hierReach path data.root).1 data.root)).mpr
        (List.cons_prefix_cons.mpr ⟨rfl, part⟩ : sub.label :: rest <+: sub.label :: _)
      rw [place] at below
      exact .inr ⟨by simp, below⟩
  · rintro (old | ⟨some_level, part⟩)
    · exact .inl old
    · rw [← place] at part
      by_cases deep : other <+: Rose.above (hierReach path data.root).1 data.root ++ [sub.label]
      · exact .inl (Rose.above_paths reached some_level deep)
      · have split : Rose.above (hierReach path data.root).1 data.root ++ sub.label ::
            (hierReach path data.root).2 = (Rose.above (hierReach path data.root).1 data.root ++
              [sub.label]) ++ (hierReach path data.root).2 := by simp
        rw [split] at part
        rcases List.prefix_or_prefix_of_prefix part
          (List.prefix_append _ _) with shorter | ⟨rest, rfl⟩
        · exact absurd shorter deep
        · refine .inr ⟨sub.label :: rest, ⟨rest, ?_, ?_, rfl⟩, by simp⟩
          · rintro rfl
            exact deep (by simp)
          · exact (List.prefix_append_right_inj _).mp part

theorem hier_insertion_exact (data : HierData) (cl : HierLock) (path : List Name)
    (distinct : data.root.Distinct) (rooted : path.head? = some data.root.label) :
    ∃ grown, resourceHierAddLockerLoop data cl path = .ok grown ∧
      grown.root.entries.Perm ((path, cl) :: data.root.entries) ∧ grown.root.Distinct ∧
      ∀ other, other ∈ grown.root.paths ↔ other ∈ data.root.paths ∨ other ≠ [] ∧
          other <+: path := by
  refine ⟨resourceHierAddLocker data cl path, resourceHierAddLockerLoop_eq data cl path, ?_, ?_, ?_⟩
  · have linked := resourceHierAddLocker_entries data cl path
    rwa [hierPlace, if_pos rooted] at linked
  · exact resourceHierAddLocker_distinct cl distinct rooted
  · exact resourceHierAddLocker_paths data cl rooted

theorem hier_insertion_exact_diverging :
    let data : HierData := ⟨.node ['r'] [] [.node ['b'] [⟨1, .pr, false⟩] []]⟩
    let cl : HierLock := ⟨2, .cr, false⟩
    ∃ grown, resourceHierAddLockerLoop data cl [['r'], ['a'], ['c']] = .ok grown ∧
      grown.root.entries.Perm (([['r'], ['a'], ['c']], cl) :: data.root.entries) ∧
      grown.root.Distinct ∧
      ∀ other, other ∈ grown.root.paths ↔
        other ∈ data.root.paths ∨ other ≠ [] ∧ other <+: [['r'], ['a'], ['c']] := by
  intro data cl
  refine hier_insertion_exact data cl _ ?_ rfl
  refine .node _ _ _ (by simp) fun leaf member => ?_
  obtain rfl := List.mem_singleton.mp member
  exact .node _ _ _ (by simp) (by simp)

end Flom
