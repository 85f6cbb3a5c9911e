import Flom.Lib.Lists
import Mathlib.Data.List.Basic
import Mathlib.Data.List.Infix
import Mathlib.Data.List.Perm.Basic

set_option autoImplicit false

inductive Rose (N R : Type) where
  | node (label : N) (items : List R) (children : List (Rose N R))

namespace Rose

open Lists

variable {N R : Type}

def label : Rose N R → N
  | .node label _ _ => label

def items : Rose N R → List R
  | .node _ items _ => items

def children : Rose N R → List (Rose N R)
  | .node _ _ children => children

def under (path : List N) (entry : List N × R) : List N × R := (path ++ entry.1, entry.2)

@[simp] theorem map_under_nil (listed : List (List N × R)) : listed.map (under []) = listed :=
  List.map_id listed

theorem map_under_under (first second : List N) (listed : List (List N × R)) :
    (listed.map (under second)).map (under first) = listed.map (under (first ++ second)) := by
  simp [under, Function.comp_def]

mutual

def entries : Rose N R → List (List N × R)
  | .node label items children =>
    items.map (fun item => ([label], item)) ++ (entriesAll children).map (under [label])

def entriesAll : List (Rose N R) → List (List N × R)
  | [] => []
  | child :: rest => entries child ++ entriesAll rest

end

theorem induct {motive : Rose N R → Prop}
    (node : ∀ label items children, (∀ child ∈ children, motive child) →
      motive (.node label items children)) (tree : Rose N R) : motive tree := by
  apply @Rose.rec N R motive fun children => ∀ child ∈ children, motive child
  · intro label items children below
    exact node label items children below
  · simp
  · intro child rest here below other member
    obtain rfl | later := List.mem_cons.mp member
    · exact here
    · exact below other later

theorem mem_entriesAll {children : List (Rose N R)} {entry : List N × R} :
    entry ∈ entriesAll children ↔ ∃ child ∈ children, entry ∈ entries child := by
  induction children with
  | nil => simp [entriesAll]
  | cons child rest ih => simp [entriesAll, ih]

theorem entriesAll_append (first second : List (Rose N R)) :
    entriesAll (first ++ second) = entriesAll first ++ entriesAll second := by
  induction first with
  | nil => rfl
  | cons child rest ih => simp [entriesAll, ih, List.append_assoc]

theorem entry_head {tree : Rose N R} {entry : List N × R} (member : entry ∈ entries tree) :
    ∃ rest, entry.1 = tree.label :: rest := by
  cases tree with
  | node label items children =>
    simp only [entries, List.mem_append, List.mem_map] at member
    obtain ⟨item, _, rfl⟩ | ⟨below, _, rfl⟩ := member
    · exact ⟨[], rfl⟩
    · exact ⟨below.1, rfl⟩

def subtree : List Nat → Rose N R → Option (Rose N R)
  | [], tree => some tree
  | position :: address, .node _ _ children => children[position]?.bind (subtree address)

def update (change : Rose N R → Rose N R) : List Nat → Rose N R → Rose N R
  | [], tree => change tree
  | position :: address, .node label items children =>
    .node label items (children.modify position (update change address))

def above : List Nat → Rose N R → List N
  | [], _ => []
  | position :: address, .node label _ children =>
    label :: (children[position]?.map (above address)).getD []

theorem entriesAll_modify {children : List (Rose N R)} {position : Nat} {child : Rose N R}
    (present : children[position]? = some child) :
    (entriesAll children).Perm (entries child ++ entriesAll (children.eraseIdx position)) ∧
      ∀ change : Rose N R → Rose N R, (entriesAll (children.modify position change)).Perm
        (entries (change child) ++ entriesAll (children.eraseIdx position)) := by
  obtain ⟨bound, rfl⟩ := List.getElem?_eq_some_iff.mp present
  have around : ∀ middle : Rose N R,
      (entriesAll (children.take position ++ middle :: children.drop (position + 1))).Perm
        (entries middle ++ entriesAll (children.eraseIdx position)) := by
    intro middle
    rw [List.eraseIdx_eq_take_drop_succ, entriesAll_append, entriesAll_append, entriesAll]
    exact List.perm_append_comm_assoc _ _ _
  constructor
  · have whole : children.take position ++ children[position] :: children.drop (position + 1) =
        children := by
      rw [← List.drop_eq_getElem_cons bound, List.take_append_drop]
    have same := around children[position]
    rwa [whole] at same
  · intro change
    rw [List.modify_eq_take_cons_drop bound]
    exact around (change children[position])

theorem entries_update {tree sub : Rose N R} {address : List Nat}
    (reached : subtree address tree = some sub) :
    ∃ others, (entries tree).Perm ((entries sub).map (under (above address tree)) ++ others) ∧
      ∀ change, (entries (update change address tree)).Perm
        ((entries (change sub)).map (under (above address tree)) ++ others) := by
  induction address generalizing tree with
  | nil =>
    obtain rfl := Option.some.inj reached
    exact ⟨[], by simp [above, update]⟩
  | cons position address ih =>
    cases tree with
    | node label items children =>
      obtain ⟨child, present, below⟩ := Option.bind_eq_some_iff.mp reached
      obtain ⟨others, same, changed⟩ := ih below
      obtain ⟨split, modified⟩ := entriesAll_modify present
      have path : above (position :: address) (.node label items children) =
          [label] ++ above address child := by simp [above, present]
      let here := items.map fun item => ([label], item)
      let beside := (others ++ entriesAll (children.eraseIdx position)).map (under [label])
      have lift : ∀ listed rest : List (List N × R),
          listed.Perm (rest.map (under (above address child)) ++ others) →
          (here ++ (listed ++ entriesAll (children.eraseIdx position)).map (under [label])).Perm
            (rest.map (under ([label] ++ above address child)) ++ (here ++ beside)) := by
        intro listed rest perm
        have lifted := ((perm.append_right (entriesAll (children.eraseIdx position))).map
          (under [label])).append_left here
        simp only [beside, List.append_assoc, List.map_append, map_under_under] at lifted ⊢
        exact lifted.trans (List.perm_append_comm_assoc _ _ _)
      refine ⟨here ++ beside, ?_, ?_⟩
      · rw [entries, path]
        exact ((split.map (under [label])).append_left here).trans (lift _ _ same)
      · intro change
        rw [update, entries, path]
        exact (((modified (update change address)).map (under [label])).append_left here).trans
          (lift _ _ (changed change))

mutual

def paths : Rose N R → List (List N)
  | .node label _ children => [label] :: (pathsAll children).map (label :: ·)

def pathsAll : List (Rose N R) → List (List N)
  | [] => []
  | child :: rest => paths child ++ pathsAll rest

end

theorem mem_pathsAll {children : List (Rose N R)} {path : List N} :
    path ∈ pathsAll children ↔ ∃ child ∈ children, path ∈ paths child := by
  induction children with
  | nil => simp [pathsAll]
  | cons child rest ih => simp [pathsAll, ih]

theorem path_head {tree : Rose N R} {path : List N} (member : path ∈ paths tree) :
    ∃ rest, path = tree.label :: rest := by
  cases tree with
  | node label items children =>
    simp only [paths, List.mem_cons, List.mem_map] at member
    rcases member with rfl | ⟨below, _, rfl⟩
    · exact ⟨[], rfl⟩
    · exact ⟨below, rfl⟩

theorem entry_path {tree : Rose N R} {entry : List N × R} (member : entry ∈ entries tree) :
    entry.1 ∈ paths tree := by
  induction tree using induct generalizing entry with
  | node label items children ih =>
    simp only [entries, List.mem_append, List.mem_map] at member
    simp only [paths, List.mem_cons, List.mem_map]
    rcases member with ⟨item, _, rfl⟩ | ⟨inner, listed, rfl⟩
    · exact .inl rfl
    · obtain ⟨child, present, inside⟩ := mem_entriesAll.mp listed
      exact .inr ⟨inner.1, mem_pathsAll.mpr ⟨child, present, ih child present inside⟩, rfl⟩

inductive Distinct : Rose N R → Prop where
  | node (label : N) (items : List R) (children : List (Rose N R))
      (here : (children.map Rose.label).Nodup) (below : ∀ child ∈ children, Distinct child) :
      Distinct (.node label items children)

theorem distinct_node {label : N} {items : List R} {children : List (Rose N R)} :
    Distinct (.node label items children) ↔
      (children.map Rose.label).Nodup ∧ ∀ child ∈ children, Distinct child := by
  constructor
  · intro distinct
    cases distinct with
    | node _ _ _ here below => exact ⟨here, below⟩
  · intro ⟨here, below⟩
    exact .node label items children here below

theorem map_label_modify (children : List (Rose N R)) (position : Nat)
    (change : Rose N R → Rose N R) (kept : ∀ tree, (change tree).label = tree.label) :
    (children.modify position change).map Rose.label = children.map Rose.label := by
  induction children generalizing position with
  | nil => simp
  | cons child rest ih =>
    cases position with
    | zero => simp [kept]
    | succ position => simp [ih]

theorem update_label {change : Rose N R → Rose N R}
    (kept : ∀ tree, (change tree).label = tree.label) (address : List Nat) (tree : Rose N R) :
    (tree.update change address).label = tree.label := by
  cases address with
  | nil => exact kept tree
  | cons position address =>
    cases tree
    rfl

theorem distinct_update {change : Rose N R → Rose N R}
    (kept : ∀ tree, (change tree).label = tree.label) {address : List Nat} {tree : Rose N R}
    (changed : ∀ sub, subtree address tree = some sub → Distinct sub → Distinct (change sub))
    (distinct : Distinct tree) : Distinct (tree.update change address) := by
  induction address generalizing tree with
  | nil => exact changed tree rfl distinct
  | cons position address ih =>
    cases tree with
    | node label items children =>
      obtain ⟨here, below⟩ := distinct_node.mp distinct
      apply distinct_node.mpr
      constructor
      · rw [map_label_modify children position _ (update_label kept address)]
        exact here
      · intro child member
        rcases mem_modify member with old | ⟨found, present, rfl⟩
        · exact below child old
        · apply ih
          · intro sub reached
            exact changed sub (by simpa [subtree, present] using reached)
          · exact below found (List.mem_of_getElem? present)

theorem mem_paths_update (change : Rose N R → Rose N R) {added : List N → Prop} {address : List Nat}
    {tree sub : Rose N R} (reached : subtree address tree = some sub)
    (grown : ∀ path, path ∈ paths (change sub) ↔ path ∈ paths sub ∨ added path) (path : List N) :
    path ∈ paths (tree.update change address) ↔
      path ∈ paths tree ∨ ∃ rest, added rest ∧ path = above address tree ++ rest := by
  induction address generalizing tree path with
  | nil =>
    obtain rfl := Option.some.inj reached
    simp [update, above, grown]
  | cons position address ih =>
    cases tree with
    | node label items children =>
      obtain ⟨child, present, below⟩ := Option.bind_eq_some_iff.mp reached
      have inner := ih below
      have bound : position < children.length := (List.getElem?_eq_some_iff.mp present).1
      have all : ∀ rest, rest ∈ pathsAll (children.modify position (update change address)) ↔
          rest ∈ pathsAll children ∨ ∃ deeper, added deeper ∧
          rest = above address child ++ deeper := by
        intro rest
        constructor
        · intro member
          obtain ⟨tree, listed, inside⟩ := mem_pathsAll.mp member
          rcases mem_modify listed with old | ⟨found, there, rfl⟩
          · exact .inl (mem_pathsAll.mpr ⟨tree, old, inside⟩)
          · obtain rfl : child = found := Option.some.inj (present.symm.trans there)
            rcases (inner rest).mp inside with before | fresh
            · exact .inl (mem_pathsAll.mpr ⟨child, List.mem_of_getElem? present, before⟩)
            · exact .inr fresh
        · intro member
          have changed : update change address child ∈ children.modify position
              (update change address) := by
            apply List.mem_of_getElem? (i := position)
            simp [present]
          rcases member with before | fresh
          · obtain ⟨tree, listed, inside⟩ := mem_pathsAll.mp before
            obtain ⟨index, found⟩ := List.getElem?_of_mem listed
            by_cases same : position = index
            · subst same
              obtain rfl : child = tree := Option.some.inj (present.symm.trans found)
              exact mem_pathsAll.mpr ⟨_, changed, (inner rest).mpr (.inl inside)⟩
            · refine mem_pathsAll.mpr ⟨tree, List.mem_of_getElem? (i := index) ?_, inside⟩
              simp [same, found]
          · exact mem_pathsAll.mpr ⟨_, changed, (inner rest).mpr (.inr fresh)⟩
      simp only [update, paths, above, present, Option.map_some, Option.getD_some, List.mem_cons,
        List.mem_map, all]
      constructor
      · rintro (top | ⟨rest, old | ⟨deeper, fresh, rfl⟩, rfl⟩)
        · exact .inl (.inl top)
        · exact .inl (.inr ⟨rest, old, rfl⟩)
        · exact .inr ⟨deeper, fresh, rfl⟩
      · rintro ((top | ⟨rest, old, rfl⟩) | ⟨deeper, fresh, rfl⟩)
        · exact .inl top
        · exact .inr ⟨rest, .inl old, rfl⟩
        · exact .inr ⟨_, .inr ⟨deeper, fresh, rfl⟩, rfl⟩

theorem above_paths {address : List Nat} {tree sub : Rose N R}
    (reached : subtree address tree = some sub) {path : List N} (some_level : path ≠ [])
    (part : path <+: above address tree ++ [sub.label]) :
    path ∈ paths tree := by
  induction address generalizing tree path with
  | nil =>
    obtain rfl := Option.some.inj reached
    cases path with
    | nil => exact absurd rfl some_level
    | cons level rest =>
      simp only [above, List.nil_append, List.cons_prefix_cons, List.prefix_nil] at part
      obtain ⟨rfl, rfl⟩ := part
      cases tree
      simp [paths, label]
  | cons position address ih =>
    cases tree with
    | node label items children =>
      obtain ⟨child, present, below⟩ := Option.bind_eq_some_iff.mp reached
      cases path with
      | nil => exact absurd rfl some_level
      | cons level rest =>
        simp only [above, present, Option.map_some, Option.getD_some, List.cons_append,
          List.cons_prefix_cons] at part
        obtain ⟨rfl, deeper⟩ := part
        simp only [paths, List.mem_cons, List.cons.injEq, true_and, List.mem_map, exists_eq_right]
        by_cases ends : rest = []
        · exact .inl ends
        · exact .inr (mem_pathsAll.mpr ⟨child, List.mem_of_getElem? present, ih below ends deeper⟩)

end Rose
