import Flom.Lib.Lists
import Flom.Lib.Rose

set_option autoImplicit false

namespace Rose

open Lists

variable {N R T : Type}

def chain (item : R) (label : N) : List N → Rose N R
  | [] => .node label [item] []
  | next :: rest => .node label [] [chain item next rest]

def attach (item : R) (missing : List N) : Rose N R → Rose N R
  | .node label items children =>
    match missing with
    | [] => .node label (item :: items) children
    | next :: rest => .node label items (children ++ [chain item next rest])

theorem chain_entries (item : R) (label : N) (rest : List N) :
    (chain item label rest).entries = [(label :: rest, item)] := by
  induction rest generalizing label with
  | nil => simp [chain, entries, entriesAll]
  | cons next rest ih => simp [chain, entries, entriesAll, ih, under]

theorem attach_entries (item : R) (missing : List N) (tree : Rose N R) :
    (attach item missing tree).entries.Perm ((tree.label :: missing, item) :: tree.entries) := by
  cases tree with
  | node name items children =>
    cases missing with
    | nil => simp [attach, entries, label]
    | cons next rest =>
      simp only [attach, entries, entriesAll_append, entriesAll, chain_entries, label,
        List.map_append,
        List.append_nil, List.map_cons, List.map_nil, under, ← List.append_assoc]
      exact List.perm_append_singleton _ _

theorem chain_paths (item : R) (level : N) (rest path : List N) :
    path ∈ (chain item level rest).paths ↔ path ≠ [] ∧ path <+: level :: rest := by
  induction rest generalizing level path with
  | nil =>
    cases path with
    | nil => simp [chain, paths, pathsAll]
    | cons first others => simp [chain, paths, pathsAll, List.cons_prefix_cons]
  | cons next rest ih =>
    cases path with
    | nil => simp [chain, paths]
    | cons first others =>
      simp only [chain, paths, pathsAll, List.append_nil, List.mem_cons, List.cons.injEq,
        List.mem_map, ih, ne_eq, reduceCtorEq, not_false_eq_true, true_and, List.cons_prefix_cons]
      constructor
      · rintro (⟨rfl, rfl⟩ | ⟨deeper, ⟨_, part⟩, rfl, rfl⟩)
        · exact ⟨rfl, List.nil_prefix⟩
        · exact ⟨rfl, part⟩
      · rintro ⟨rfl, part⟩
        by_cases ends : others = []
        · exact .inl ⟨rfl, ends⟩
        · exact .inr ⟨others, ⟨ends, part⟩, rfl, rfl⟩

theorem chain_label (item : R) (level : N) (rest : List N) :
    (chain item level rest).label = level := by
  cases rest <;> rfl

theorem chain_distinct (item : R) (level : N) (rest : List N) :
    (chain item level rest).Distinct := by
  induction rest generalizing level with
  | nil => exact .node level [item] [] (by simp) (by simp)
  | cons next rest ih => exact .node level [] [_] (by simp) (by simpa using ih next)

theorem attach_paths (item : R) (missing : List N) (tree : Rose N R) (path : List N) :
    path ∈ (attach item missing tree).paths ↔
      path ∈ tree.paths ∨ ∃ rest, rest ≠ [] ∧ rest <+: missing ∧ path = tree.label :: rest := by
  cases tree with
  | node name items children =>
    cases missing with
    | nil => simp [attach, paths]
    | cons level rest =>
      simp only [attach, paths, Rose.label, List.mem_cons, List.mem_map, mem_pathsAll,
        List.mem_append, List.not_mem_nil, or_false]
      constructor
      · rintro (top | ⟨below, ⟨child, old | rfl, inside⟩, rfl⟩)
        · exact .inl (.inl top)
        · exact .inl (.inr ⟨below, ⟨child, old, inside⟩, rfl⟩)
        · obtain ⟨some_level, part⟩ := (chain_paths item level rest below).mp inside
          exact .inr ⟨below, some_level, part, rfl⟩
      · rintro ((top | ⟨below, ⟨child, old, inside⟩, rfl⟩) | ⟨below, some_level, part, rfl⟩)
        · exact .inl top
        · exact .inr ⟨below, ⟨child, .inl old, inside⟩, rfl⟩
        · exact .inr
            ⟨below, ⟨_, .inr rfl, (chain_paths item level rest below).mpr ⟨some_level, part⟩⟩, rfl⟩

theorem attach_distinct {item : R} {missing : List N} {tree : Rose N R}
    (distinct : tree.Distinct) (fresh : ∀ level ∈ missing.head?,
      level ∉ tree.children.map Rose.label) :
    (attach item missing tree).Distinct := by
  cases tree with
  | node name items children =>
    obtain ⟨here, below⟩ := distinct_node.mp distinct
    cases missing with
    | nil => exact .node name _ children here below
    | cons level rest =>
      apply Distinct.node
      · rw [List.map_append, List.nodup_append]
        refine ⟨here, by simp, ?_⟩
        intro label member other single
        simp only [List.map_cons, List.map_nil, chain_label, List.mem_singleton] at single
        rintro rfl
        exact fresh level rfl (single ▸ member)
      · intro child member
        rcases List.mem_append.mp member with old | single
        · exact below child old
        · obtain rfl := List.mem_singleton.mp single
          exact chain_distinct item level rest

def bare (label : N) : List N → Rose N R
  | [] => .node label [] []
  | next :: rest => .node label [] [bare next rest]

theorem bare_entries (label : N) (rest : List N) : (bare label rest : Rose N R).entries = [] := by
  induction rest generalizing label with
  | nil => simp [bare, entries, entriesAll]
  | cons next rest ih => simp [bare, entries, entriesAll, ih]

theorem bare_distinct (label : N) (rest : List N) : (bare label rest : Rose N R).Distinct := by
  induction rest generalizing label with
  | nil => exact .node label [] [] (by simp) (by simp)
  | cons next rest ih => exact .node label [] [_] (by simp) (by simpa using ih next)

def removeFirst (chosen : R → Bool) : Rose N R → Rose N R
  | .node label items children => .node label (items.eraseP chosen) children

theorem removeFirst_entries {chosen : R → Bool} {tree : Rose N R} {item : R}
    (found : tree.items.find? chosen = some item) :
    tree.entries.Perm (([tree.label], item) :: (removeFirst chosen tree).entries) := by
  cases tree with
  | node name items children =>
    have split := find_eraseP_perm found
    simp only [removeFirst, entries, label]
    exact ((split.map fun item => ([name], item)).append_right _)

mutual

def prune : Rose N R → Rose N R
  | .node label items children => .node label items (pruneAll children)

def pruneAll : List (Rose N R) → List (Rose N R)
  | [] => []
  | child :: rest =>
    let pruned := prune child
    if pruned.children.isEmpty && pruned.items.isEmpty then pruneAll rest
    else pruned :: pruneAll rest

end

theorem pruneAll_entries (children : List (Rose N R))
    (each : ∀ child ∈ children, (prune child).entries = child.entries) :
    entriesAll (pruneAll children) = entriesAll children := by
  induction children with
  | nil => simp [pruneAll]
  | cons child rest ih =>
    have later := ih fun other member => each other (List.mem_cons_of_mem _ member)
    have here := each child (by simp)
    rw [pruneAll]
    split
    · next empty =>
      have none : child.entries = [] := by
        rw [← here]
        cases gone : prune child with
        | node label items children =>
          simp_all [Rose.children, Rose.items, entries, entriesAll]
      rw [later, entriesAll, none, List.nil_append]
    · rw [entriesAll, entriesAll, here, later]

theorem prune_entries (tree : Rose N R) : (prune tree).entries = tree.entries := by
  induction tree using induct with
  | node label items children ih => rw [prune, entries, entries, pruneAll_entries children ih]

theorem pruneAll_sublist (children : List (Rose N R)) :
    (pruneAll children).Sublist (children.map prune) := by
  induction children with
  | nil => simp [pruneAll]
  | cons child rest ih =>
    rw [pruneAll, List.map_cons]
    split
    · exact ih.cons _
    · exact ih.cons_cons _

@[simp] theorem prune_label (tree : Rose N R) : (prune tree).label = tree.label := by
  cases tree
  rw [prune]
  rfl

mutual

def inhabited : Rose N R → Rose N R
  | .node label items children => .node label items (inhabitedAll children)

def inhabitedAll : List (Rose N R) → List (Rose N R)
  | [] => []
  | child :: rest =>
    if child.entries.isEmpty then inhabitedAll rest else inhabited child :: inhabitedAll rest

end

theorem pruneAll_none {children : List (Rose N R)}
    (none : ∀ child ∈ children, prune child = .node child.label [] []) :
    pruneAll children = [] := by
  induction children with
  | nil => rfl
  | cons child rest ih =>
    rw [List.forall_mem_cons] at none
    rw [pruneAll, none.1]
    exact ih none.2

theorem prune_bare {tree : Rose N R} (none : tree.entries = []) :
    prune tree = .node tree.label [] [] := by
  induction tree using induct with
  | node label items children ih =>
    simp only [entries, List.append_eq_nil_iff, List.map_eq_nil_iff] at none
    obtain ⟨rfl, below⟩ := none
    have each : ∀ child ∈ children, prune child = .node child.label [] [] := by
      intro child member
      apply ih child member
      apply List.eq_nil_iff_forall_not_mem.mpr
      intro entry inside
      have listed := mem_entriesAll.mpr ⟨child, member, inside⟩
      rw [below] at listed
      cases listed
    rw [prune, pruneAll_none each]
    rfl

theorem prune_empty_iff (tree : Rose N R) :
    ((prune tree).children.isEmpty && (prune tree).items.isEmpty) = tree.entries.isEmpty := by
  rw [Bool.eq_iff_iff, Bool.and_eq_true, List.isEmpty_iff, List.isEmpty_iff, List.isEmpty_iff]
  constructor
  · rintro ⟨childless, itemless⟩
    rw [← prune_entries]
    cases same : prune tree with
    | node label items children =>
      rw [same] at childless itemless
      obtain rfl : children = [] := childless
      obtain rfl : items = [] := itemless
      rfl
  · intro none
    rw [prune_bare none]
    exact ⟨rfl, rfl⟩

theorem prune_eq_inhabited (tree : Rose N R) : prune tree = inhabited tree := by
  induction tree using induct with
  | node label items children ih =>
    have below : pruneAll children = inhabitedAll children := by
      clear items
      induction children with
      | nil => rfl
      | cons child rest later =>
        rw [List.forall_mem_cons] at ih
        rw [pruneAll, inhabitedAll, prune_empty_iff, ih.1, later ih.2]
    rw [prune, inhabited, below]

theorem inhabited_entries (tree : Rose N R) : (inhabited tree).entries = tree.entries := by
  rw [← prune_eq_inhabited, prune_entries]

theorem inhabited_idem (tree : Rose N R) : inhabited (inhabited tree) = inhabited tree := by
  induction tree using induct with
  | node label items children ih =>
    have below : inhabitedAll (inhabitedAll children) = inhabitedAll children := by
      clear items
      induction children with
      | nil => rfl
      | cons child rest later =>
        rw [List.forall_mem_cons] at ih
        rw [inhabitedAll]
        split
        · exact later ih.2
        · next some => rw [inhabitedAll, inhabited_entries, if_neg some, ih.1, later ih.2]
    rw [inhabited, inhabited, below]

mutual

def size : Rose N R → Nat
  | .node _ _ children => sizeAll children + 1

def sizeAll : List (Rose N R) → Nat
  | [] => 0
  | child :: rest => size child + sizeAll rest

end

theorem prune_distinct {tree : Rose N R} (distinct : tree.Distinct) : (prune tree).Distinct := by
  induction tree using induct with
  | node label items children ih =>
    obtain ⟨here, below⟩ := distinct_node.mp distinct
    have fewer := pruneAll_sublist children
    rw [prune]
    apply Distinct.node
    · refine (fewer.map Rose.label).nodup ?_
      simpa [Function.comp_def] using here
    · intro child member
      obtain ⟨before, old, rfl⟩ := List.mem_map.mp (fewer.subset member)
      exact ih before old (below before old)

mutual

def map (f : R → T) : Rose N R → Rose N T
  | .node label items children => .node label (items.map f) (mapAll f children)

def mapAll (f : R → T) : List (Rose N R) → List (Rose N T)
  | [] => []
  | child :: rest => map f child :: mapAll f rest

end

theorem mapAll_eq (f : R → T) (children : List (Rose N R)) :
    mapAll f children = children.map (map f) := by
  induction children with
  | nil => rfl
  | cons child rest ih => simp [mapAll, ih]

@[simp] theorem map_label (f : R → T) (tree : Rose N R) : (tree.map f).label = tree.label := by
  cases tree
  rfl

@[simp] theorem map_items (f : R → T) (tree : Rose N R) :
    (tree.map f).items = tree.items.map f := by
  cases tree
  rfl

theorem map_congr {f g : R → T} {tree : Rose N R}
    (same : ∀ entry ∈ tree.entries, f entry.2 = g entry.2) :
    tree.map f = tree.map g := by
  induction tree using induct with
  | node label items children ih =>
    simp only [map, mapAll_eq, node.injEq, true_and]
    constructor
    · refine List.map_congr_left fun item member => same ([label], item) ?_
      simp [entries, member]
    · refine List.map_congr_left fun child member => ih child member fun entry inside => ?_
      refine same (under [label] entry) ?_
      rw [entries, List.mem_append]
      exact .inr (List.mem_map_of_mem (mem_entriesAll.mpr ⟨child, member, inside⟩))

theorem subtree_map (f : R → T) (address : List Nat) (tree : Rose N R) :
    (tree.map f).subtree address = (tree.subtree address).map (map f) := by
  induction address generalizing tree with
  | nil => rfl
  | cons position address ih =>
    cases tree with
    | node label items children =>
      simp only [map, subtree, mapAll_eq, List.getElem?_map]
      cases children[position]? with
      | none => rfl
      | some child => exact ih child

theorem map_update {f : R → T} {change : Rose N R → Rose N R} {change' : Rose N T → Rose N T}
    {address : List Nat} {tree : Rose N R}
    (same : ∀ sub, subtree address tree = some sub → (change sub).map f = change' (sub.map f)) :
    (tree.update change address).map f = (tree.map f).update change' address := by
  induction address generalizing tree with
  | nil => exact same tree rfl
  | cons position address ih =>
    cases tree with
    | node label items children =>
      simp only [update, map, mapAll_eq, node.injEq, true_and]
      apply List.ext_getElem?
      intro index
      simp only [List.getElem?_map, List.getElem?_modify]
      by_cases here : position = index
      · subst here
        cases present : children[position]? with
        | none => simp
        | some child =>
          have below : (child.update change address).map f = (child.map f).update change' address :=
            ih fun sub reached => same sub (by simpa [subtree, present] using reached)
          simpa using below
      · simp [here]

theorem map_chain (f : R → T) (item : R) (label : N) (rest : List N) :
    (chain item label rest).map f = chain (f item) label rest := by
  induction rest generalizing label with
  | nil => simp [chain, map, mapAll]
  | cons next rest ih => simp [chain, map, mapAll, ih]

theorem map_bare (f : R → T) (label : N) (rest : List N) :
    (bare label rest).map f = bare label rest := by
  induction rest generalizing label with
  | nil => simp [bare, map, mapAll]
  | cons next rest ih => simp [bare, map, mapAll, ih]

theorem map_attach (f : R → T) (item : R) (missing : List N) (tree : Rose N R) :
    (attach item missing tree).map f = attach (f item) missing (tree.map f) := by
  cases tree with
  | node label items children =>
    cases missing with
    | nil => simp [attach, map]
    | cons next rest => simp [attach, map, mapAll_eq, map_chain]

theorem map_removeFirst (f : R → T) (chosen : T → Bool) (tree : Rose N R) :
    (removeFirst (fun item => chosen (f item)) tree).map f = removeFirst chosen (tree.map f) := by
  cases tree with
  | node label items children =>
    have erased :
        (items.eraseP fun item => chosen (f item)).map f = (items.map f).eraseP chosen := by
      clear children
      induction items with
      | nil => rfl
      | cons first rest ih =>
        cases here : chosen (f first) with
        | true => simp [here]
        | false => simp [here, ih]
    simp [removeFirst, map, erased]

theorem map_prune (f : R → T) (tree : Rose N R) : (prune tree).map f = prune (tree.map f) := by
  induction tree using induct with
  | node label items children ih =>
    have below : mapAll f (pruneAll children) = pruneAll (mapAll f children) := by
      clear items
      induction children with
      | nil => simp [mapAll, pruneAll]
      | cons child rest later =>
        have rest_same := later fun other member => ih other (List.mem_cons_of_mem _ member)
        have here := ih child (by simp)
        have empty :
            ((prune (child.map f)).children.isEmpty && (prune (child.map f)).items.isEmpty) =
            ((prune child).children.isEmpty && (prune child).items.isEmpty) := by
          rw [← here]
          cases prune child
          simp [map, mapAll_eq, Rose.children, Rose.items]
        simp only [pruneAll, mapAll, empty]
        split
        · exact rest_same
        · rw [mapAll, rest_same, here]
    rw [prune, map, map, prune, below]

end Rose
