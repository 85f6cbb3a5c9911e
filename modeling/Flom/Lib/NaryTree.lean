import Mathlib.Data.List.Basic
import Mathlib.Data.List.Nodup
import Mathlib.Data.List.Perm.Basic
import Mathlib.Tactic.SplitIfs

set_option autoImplicit false

inductive NaryTree (D : Type) where
  | node (data : D) (children : List (NaryTree D))

namespace NaryTree

variable {D K : Type}

def data : NaryTree D → D
  | .node data _ => data

def children : NaryTree D → List (NaryTree D)
  | .node _ children => children

def leaf (data : D) : NaryTree D := .node data []

mutual

def preorder : NaryTree D → List (NaryTree D)
  | .node data children => .node data children :: preorderAll children

def preorderAll : List (NaryTree D) → List (NaryTree D)
  | [] => []
  | child :: rest => preorder child ++ preorderAll rest

end

mutual

def inorder : NaryTree D → List (NaryTree D)
  | .node data [] => [.node data []]
  | .node data (first :: rest) => inorder first ++ .node data (first :: rest) :: inorderAll rest

def inorderAll : List (NaryTree D) → List (NaryTree D)
  | [] => []
  | child :: rest => inorder child ++ inorderAll rest

end

mutual

def modify (here : D → Bool) (change : NaryTree D → NaryTree D) : NaryTree D → NaryTree D
  | .node data children =>
    if here data then change (.node data children) else .node data (modifyAll here change children)

def modifyAll (here : D → Bool) (change : NaryTree D → NaryTree D) : List (NaryTree D) →
    List (NaryTree D)
  | [] => []
  | child :: rest => modify here change child :: modifyAll here change rest

end

mutual

def remove (here : D → Bool) : NaryTree D → NaryTree D
  | .node data children => .node data (removeAll here children)

def removeAll (here : D → Bool) : List (NaryTree D) → List (NaryTree D)
  | [] => []
  | child :: rest =>
    if here child.data then removeAll here rest else remove here child :: removeAll here rest

end

def append (child : NaryTree D) : NaryTree D → NaryTree D
  | .node data children => .node data (children ++ [child])

def mapData (change : D → D) : NaryTree D → NaryTree D
  | .node data children => .node (change data) children

theorem induct {motive : NaryTree D → Prop}
    (node : ∀ data children, (∀ child ∈ children, motive child) → motive (.node data children))
    (tree : NaryTree D) : motive tree := by
  apply @NaryTree.rec D motive fun children => ∀ child ∈ children, motive child
  · intro data children below
    exact node data children below
  · simp
  · intro child rest here below other member
    obtain rfl | later := List.mem_cons.mp member
    · exact here
    · exact below other later

theorem preorderAll_eq (trees : List (NaryTree D)) :
    preorderAll trees = trees.flatMap preorder := by
  induction trees with
  | nil => rfl
  | cons child rest ih => rw [preorderAll, ih, List.flatMap_cons]

theorem modifyAll_eq (here : D → Bool) (change : NaryTree D → NaryTree D)
    (trees : List (NaryTree D)) :
    modifyAll here change trees = trees.map (modify here change) := by
  induction trees with
  | nil => rfl
  | cons child rest ih => rw [modifyAll, ih, List.map_cons]

theorem removeAll_eq (here : D → Bool) (trees : List (NaryTree D)) :
    removeAll here trees = (trees.filter fun tree => !here tree.data).map (remove here) := by
  induction trees with
  | nil => rfl
  | cons child rest ih =>
    rw [removeAll, List.filter_cons, ih]
    cases here child.data <;> rfl

theorem mem_preorder_self (tree : NaryTree D) : tree ∈ tree.preorder := by
  cases tree
  rw [preorder]
  exact List.mem_cons_self

theorem inorder_perm (tree : NaryTree D) : tree.inorder.Perm tree.preorder := by
  have all {trees : List (NaryTree D)} (each : ∀ tree ∈ trees, tree.inorder.Perm tree.preorder) :
      (inorderAll trees).Perm (preorderAll trees) := by
    induction trees with
    | nil => exact .refl []
    | cons child rest ih =>
      exact (each child List.mem_cons_self).append
        (ih fun other member => each other (List.mem_cons_of_mem child member))
  induction tree using induct with
  | node data children ih =>
    cases children with
    | nil => rw [inorder, preorder, preorderAll]
    | cons first rest =>
      rw [inorder, preorder, preorderAll]
      refine List.perm_middle.trans (.cons _ ?_)
      exact (ih first List.mem_cons_self).append
        (all fun other member => ih other (List.mem_cons_of_mem first member))

def parent [DecidableEq K] (key : D → K) (wanted : K) (tree : NaryTree D) : Option (NaryTree D) :=
  (tree.inorder.filter fun node => !node.children.isEmpty).find? fun node =>
    node.children.any fun child => decide (key child.data = wanted)

structure Frame (D : Type) where
  data : D
  before : List (NaryTree D)
  after : List (NaryTree D)

def plug : List (Frame D) → NaryTree D → NaryTree D
  | [], tree => tree
  | frame :: outer, tree => plug outer (.node frame.data (frame.before ++ tree :: frame.after))

def keys (key : D → K) (tree : NaryTree D) : List K := tree.preorder.map fun node => key node.data

def keysAll (key : D → K) (trees : List (NaryTree D)) : List K := trees.flatMap (keys key)

def aside (key : D → K) (frames : List (Frame D)) : List K :=
  frames.flatMap fun frame => key frame.data ::
    (keysAll key frame.before ++ keysAll key frame.after)

@[simp] theorem keys_node (key : D → K) (data : D) (children : List (NaryTree D)) :
    (NaryTree.node data children).keys key = key data :: keysAll key children := by
  rw [keys, preorder, List.map_cons, preorderAll_eq, List.map_flatMap]
  rfl

@[simp] theorem keysAll_nil (key : D → K) : keysAll key ([] : List (NaryTree D)) = [] := rfl

@[simp] theorem keysAll_cons (key : D → K) (tree : NaryTree D) (rest : List (NaryTree D)) :
    keysAll key (tree :: rest) = tree.keys key ++ keysAll key rest := rfl

@[simp] theorem keysAll_append (key : D → K) (first second : List (NaryTree D)) :
    keysAll key (first ++ second) = keysAll key first ++ keysAll key second := List.flatMap_append

theorem keys_plug (key : D → K) (frames : List (Frame D)) (tree : NaryTree D) :
    ((plug frames tree).keys key).Perm (tree.keys key ++ aside key frames) := by
  induction frames generalizing tree with
  | nil => simp [plug, aside]
  | cons frame outer ih =>
    refine (ih _).trans ?_
    simp only [aside, List.flatMap_cons, keys_node, keysAll_append, keysAll_cons]
    classical
    rw [List.perm_iff_count]
    intro k
    simp only [List.count_append, List.count_cons]
    omega

theorem mem_preorder_plug (frames : List (Frame D)) (tree : NaryTree D) :
    tree ∈ (plug frames tree).preorder := by
  have below {tree sub : NaryTree D} (frames : List (Frame D)) (inside : sub ∈ tree.preorder) :
      sub ∈ (plug frames tree).preorder := by
    induction frames generalizing tree with
    | nil => exact inside
    | cons frame outer ih =>
      refine ih ?_
      rw [preorder, preorderAll_eq, List.flatMap_append, List.flatMap_cons]
      simp [inside]
  exact below frames tree.mem_preorder_self

theorem plug_append (inner outer : List (Frame D)) (tree : NaryTree D) :
    plug (inner ++ outer) tree = plug outer (plug inner tree) := by
  induction inner generalizing tree with
  | nil => rfl
  | cons frame rest ih => exact ih _

theorem exists_plug {tree sub : NaryTree D} (inside : sub ∈ tree.preorder) : ∃ frames,
    tree = plug frames sub := by
  induction tree using induct with
  | node data children ih =>
    rw [preorder, preorderAll_eq] at inside
    obtain rfl | below := List.mem_cons.mp inside
    · exact ⟨[], rfl⟩
    · obtain ⟨child, member, deeper⟩ := List.mem_flatMap.mp below
      obtain ⟨frames, rfl⟩ := ih child member deeper
      obtain ⟨before, after, rfl⟩ := List.append_of_mem member
      refine ⟨frames ++ [⟨data, before, after⟩], ?_⟩
      exact (plug_append frames [⟨data, before, after⟩] sub).symm

theorem keys_perm (key : D → K) (tree : NaryTree D) :
    (tree.keys key).Perm
      (key tree.data :: tree.preorder.flatMap fun node => node.children.map fun child =>
          key child.data) := by
  induction tree using induct with
  | node data children ih =>
    rw [keys_node, preorder, List.flatMap_cons, preorderAll_eq, List.flatMap_assoc]
    refine .cons _ ((List.Perm.flatMap_left children ih).trans ?_)
    exact (List.map_append_flatMap_perm children _ _).symm

theorem find_unique {A : Type} {chosen : A → Bool} {items : List A} {item : A}
    (member : item ∈ items) (holds : chosen item = true)
    (unique : ∀ other ∈ items, chosen other = true → other = item) :
    items.find? chosen = some item := by
  cases found : items.find? chosen with
  | none => exact absurd holds (by simpa using List.find?_eq_none.mp found item member)
  | some other => rw [unique other (List.mem_of_find?_eq_some found) (List.find?_some found)]

theorem key_mem_keys (key : D → K) (tree : NaryTree D) : key tree.data ∈ tree.keys key := by
  cases tree
  rw [keys_node]
  exact List.mem_cons_self

theorem absent_aside {key : D → K} {wanted : K} {frames : List (Frame D)} {tree : NaryTree D}
    (once : ((plug frames tree).keys key).Nodup) (inside : wanted ∈ tree.keys key) :
    wanted ∉ aside key frames :=
  fun beside => List.disjoint_of_nodup_append
    ((keys_plug key frames tree).nodup_iff.mp once) inside beside

theorem keys_grown {key : D → K} {frames : List (Frame D)} {tree tree' : NaryTree D}
    {extra : List K} (grows : (tree'.keys key).Perm (extra ++ tree.keys key)) :
    ((plug frames tree').keys key).Perm (extra ++ (plug frames tree).keys key) := by
  refine (keys_plug key frames tree').trans ((grows.append_right _).trans ?_)
  rw [List.append_assoc]
  exact (keys_plug key frames tree).symm.append_left extra

theorem keys_fewer {key : D → K} {frames : List (Frame D)} {tree tree' : NaryTree D}
    (fewer : (tree'.keys key).Subperm (tree.keys key))
    (once : ((plug frames tree).keys key).Nodup) :
    ((plug frames tree').keys key).Nodup := by
  obtain ⟨kept, perm, sublist⟩ := fewer
  rw [(keys_plug key frames tree).nodup_iff] at once
  rw [(keys_plug key frames tree').nodup_iff, ← (perm.append_right _).nodup_iff]
  exact once.sublist (sublist.append_right _)

theorem root_aside (key : D → K) (frame : Frame D) (outer : List (Frame D)) (tree : NaryTree D) :
    key (plug (frame :: outer) tree).data ∈ aside key (frame :: outer) := by
  induction outer generalizing frame tree with
  | nil => exact List.mem_cons_self
  | cons next above ih =>
    exact List.mem_append_right _ (ih next (.node frame.data (frame.before ++ tree :: frame.after)))

theorem keys_mapData {key : D → K} {change : D → D} (same : ∀ data, key (change data) = key data)
    (tree : NaryTree D) :
    (tree.mapData change).keys key = tree.keys key := by
  cases tree
  rw [mapData, keys_node, keys_node, same]

theorem keys_append (key : D → K) (child tree : NaryTree D) :
    (append child tree).keys key = tree.keys key ++ child.keys key := by
  cases tree
  simp [append]

def Holds (key : D → K) (good : K → Prop) (tree : NaryTree D) : Prop := ∀ k ∈ tree.keys key, good k

section

variable {key : D → K} {good : K → Prop}

theorem holds_node {data : D} {children : List (NaryTree D)} :
    (NaryTree.node data children).Holds key good ↔ good (key data) ∧ ∀ child ∈ children,
    child.Holds key good := by
  simp only [Holds, keys_node, List.forall_mem_cons, keysAll, List.mem_flatMap]
  exact and_congr_right' ⟨fun all child member k inside => all k ⟨child, member, inside⟩,
    fun all k ⟨child, member, inside⟩ => all child member k inside⟩

theorem holds_append {child tree : NaryTree D} (new : child.Holds key good)
    (all : tree.Holds key good) :
    (append child tree).Holds key good := by
  intro k member
  rw [keys_append] at member
  exact (List.mem_append.mp member).elim (all k) (new k)

theorem holds_mapData {change : D → D} (same : ∀ data, key (change data) = key data)
    {tree : NaryTree D} (all : tree.Holds key good) : (tree.mapData change).Holds key good := by
  rw [Holds, keys_mapData same]
  exact all

theorem holds_modify {change : NaryTree D → NaryTree D} (here : D → Bool)
    (keeps : ∀ tree : NaryTree D, tree.Holds key good → (change tree).Holds key good)
    {tree : NaryTree D} (all : tree.Holds key good) : (tree.modify here change).Holds key good := by
  induction tree using induct with
  | node data children ih =>
    rw [modify]
    split_ifs
    · exact keeps _ all
    · rw [holds_node] at all ⊢
      refine ⟨all.1, fun child member => ?_⟩
      rw [modifyAll_eq] at member
      obtain ⟨before, listed, rfl⟩ := List.mem_map.mp member
      exact ih before listed (all.2 before listed)

theorem holds_remove (here : D → Bool) {tree : NaryTree D} (all : tree.Holds key good) :
    (tree.remove here).Holds key good := by
  induction tree using induct with
  | node data children ih =>
    rw [remove]
    rw [holds_node] at all ⊢
    refine ⟨all.1, fun child member => ?_⟩
    rw [removeAll_eq] at member
    obtain ⟨before, listed, rfl⟩ := List.mem_map.mp member
    have inside := List.mem_of_mem_filter listed
    exact ih before inside (all.2 before inside)

theorem holds_preorder {tree sub : NaryTree D} (inside : sub ∈ tree.preorder)
    (all : tree.Holds key good) :
    sub.Holds key good := by
  induction tree using induct with
  | node data children ih =>
    rw [preorder, preorderAll_eq] at inside
    obtain rfl | below := List.mem_cons.mp inside
    · exact all
    · obtain ⟨child, member, deeper⟩ := List.mem_flatMap.mp below
      exact ih child member deeper ((holds_node.mp all).2 child member)

end

section

variable {here : D → Bool} {change : NaryTree D → NaryTree D}

theorem modify_absent {tree : NaryTree D}
    (absent : ∀ node ∈ tree.preorder, here node.data = false) :
    tree.modify here change = tree := by
  induction tree using induct with
  | node data children ih =>
    rw [preorder, preorderAll_eq, List.forall_mem_cons] at absent
    obtain ⟨top, below⟩ := absent
    have same : children.map (modify here change) = children := by
      refine (List.map_congr_left fun child member => ?_).trans (List.map_id children)
      exact ih child member fun node inside =>
        below node (List.mem_flatMap.mpr ⟨child, member, inside⟩)
    rw [modify, if_neg (by simpa [NaryTree.data] using top), modifyAll_eq, same]

theorem remove_absent {tree : NaryTree D}
    (absent : ∀ node ∈ tree.preorder, here node.data = false) :
    tree.remove here = tree := by
  induction tree using induct with
  | node data children ih =>
    rw [preorder, preorderAll_eq, List.forall_mem_cons] at absent
    have below : ∀ child ∈ children, ∀ node ∈ child.preorder, here node.data = false :=
      fun child member node inside => absent.2 node (List.mem_flatMap.mpr ⟨child, member, inside⟩)
    have kept : (children.filter fun child => !here child.data) = children :=
      List.filter_eq_self.mpr fun child member => by
        simp [below child member child child.mem_preorder_self]
    have same : children.map (remove here) = children :=
      (List.map_congr_left fun child member => ih child member (below child member)).trans
        (List.map_id children)
    rw [remove, removeAll_eq, kept, same]

end

theorem absent_of_keysAll {key : D → K} {wanted : K} {trees : List (NaryTree D)}
    (absent : wanted ∉ keysAll key trees) :
    ∀ tree ∈ trees, wanted ∉ tree.keys key := fun tree member inside =>
  absent (List.mem_flatMap.mpr ⟨tree, member, inside⟩)

section

variable [DecidableEq K] {key : D → K} {wanted : K} {change : NaryTree D → NaryTree D}

theorem absent_of_keys {tree : NaryTree D} (absent : wanted ∉ tree.keys key) :
    ∀ node ∈ tree.preorder, decide (key node.data = wanted) = false := by
  intro node member
  rw [decide_eq_false_iff_not]
  rintro rfl
  exact absent (List.mem_map_of_mem member)

theorem modifyAll_absent {trees : List (NaryTree D)} (absent : wanted ∉ keysAll key trees) :
    modifyAll (fun data => decide (key data = wanted)) change trees = trees := by
  rw [modifyAll_eq]
  refine (List.map_congr_left fun tree member => ?_).trans (List.map_id trees)
  exact modify_absent (absent_of_keys (absent_of_keysAll absent tree member))

theorem removeAll_absent {trees : List (NaryTree D)} (absent : wanted ∉ keysAll key trees) :
    removeAll (fun data => decide (key data = wanted)) trees = trees := by
  have outside := fun tree member => absent_of_keys (absent_of_keysAll absent tree member)
  have kept : (trees.filter fun tree => !decide (key tree.data = wanted)) = trees :=
    List.filter_eq_self.mpr fun tree member => by
      rw [outside tree member tree tree.mem_preorder_self]; rfl
  rw [removeAll_eq, kept]
  exact (List.map_congr_left fun tree member => remove_absent (outside tree member)).trans
    (List.map_id trees)

theorem modify_plug {frames : List (Frame D)} {tree : NaryTree D}
    (absent : wanted ∉ aside key frames) :
    (plug frames tree).modify (fun data => decide (key data = wanted)) change =
      plug frames (tree.modify (fun data => decide (key data = wanted)) change) := by
  induction frames generalizing tree with
  | nil => rfl
  | cons frame outer ih =>
    simp only [aside, List.flatMap_cons, List.mem_append, List.mem_cons, not_or] at absent
    obtain ⟨⟨other, before, after⟩, above⟩ := absent
    rw [plug, plug, ih above, modify, if_neg (by simpa using Ne.symm other), modifyAll_eq,
      List.map_append, List.map_cons,
      ← modifyAll_eq, ← modifyAll_eq, modifyAll_absent before, modifyAll_absent after]

theorem remove_plug {frames : List (Frame D)} {tree : NaryTree D}
    (absent : wanted ∉ aside key frames) (other : key tree.data ≠ wanted) :
    (plug frames tree).remove (fun data => decide (key data = wanted)) =
      plug frames (tree.remove fun data => decide (key data = wanted)) := by
  induction frames generalizing tree with
  | nil => rfl
  | cons frame outer ih =>
    simp only [aside, List.flatMap_cons, List.mem_append, List.mem_cons, not_or] at absent
    obtain ⟨⟨parent, before, after⟩, above⟩ := absent
    rw [plug, plug, @ih (.node frame.data (frame.before ++ tree :: frame.after)) above
      (Ne.symm parent), remove, removeAll_eq, List.filter_append, List.map_append,
      List.filter_cons, if_pos (by simpa using other), List.map_cons, ← removeAll_eq,
      ← removeAll_eq,
      removeAll_absent before, removeAll_absent after]

theorem remove_child {data : D} {before after : List (NaryTree D)} {child : NaryTree D}
    (once : wanted ∉ keysAll key before ++ keysAll key after) (here : key child.data = wanted) :
    (NaryTree.node data (before ++ child :: after)).remove
      (fun data => decide (key data = wanted)) =
        .node data (before ++ after) := by
  obtain ⟨front, behind⟩ := not_or.mp (List.mem_append.not.mp once)
  rw [remove, removeAll_eq, List.filter_append, List.map_append, List.filter_cons,
    if_neg (by simp [here]),
    ← removeAll_eq, ← removeAll_eq, removeAll_absent front, removeAll_absent behind]

theorem modify_here {tree : NaryTree D} (here : key tree.data = wanted) :
    tree.modify (fun data => decide (key data = wanted)) change = change tree := by
  cases tree
  rw [modify]
  exact if_pos (decide_eq_true here)

theorem modify_at {frames : List (Frame D)} {tree : NaryTree D} (absent : wanted ∉ aside key frames)
    (here : key tree.data = wanted) :
    (plug frames tree).modify (fun data => decide (key data = wanted)) change = plug frames
      (change tree) := by
  rw [modify_plug absent, modify_here here]

theorem remove_at {frame : Frame D} {outer : List (Frame D)} {tree : NaryTree D}
    (absent : wanted ∉ aside key (frame :: outer)) (here : key tree.data = wanted) :
    (plug (frame :: outer) tree).remove (fun data => decide (key data = wanted)) =
      plug outer (.node frame.data (frame.before ++ frame.after)) := by
  simp only [aside, List.flatMap_cons, List.mem_append, List.mem_cons, not_or] at absent
  obtain ⟨⟨other, before, after⟩, above⟩ := absent
  rw [plug, @remove_plug D K _ key wanted outer
    (.node frame.data (frame.before ++ tree :: frame.after)) above (Ne.symm other),
    remove_child (by simp [before, after]) here]

theorem parent_plug {frame : Frame D} {outer : List (Frame D)} {child : NaryTree D}
    (once : ((plug (frame :: outer) child).keys key).Nodup) :
    (plug (frame :: outer) child).parent key (key child.data) =
      some (.node frame.data (frame.before ++ child :: frame.after)) := by
  have place := mem_preorder_plug outer (.node frame.data (frame.before ++ child :: frame.after))
  rw [plug] at once ⊢
  refine find_unique ?_ ?_ ?_
  · rw [List.mem_filter]
    exact ⟨(inorder_perm _).symm.subset place, by simp [NaryTree.children]⟩
  · simp [NaryTree.children]
  · intro other member has
    obtain ⟨grown, _⟩ := List.mem_filter.mp member
    have once := ((keys_perm key _).nodup_iff.mp once).of_cons
    have pairs := List.pairwise_iff_getElem.mp (List.nodup_flatMap.mp once).2
    have mine : key child.data ∈ other.children.map fun child => key child.data := by
      obtain ⟨found, inside, same⟩ := List.any_eq_true.mp has
      exact List.mem_map.mpr ⟨found, inside, of_decide_eq_true same⟩
    have there : ∀ node : NaryTree D, node = .node frame.data
      (frame.before ++ child :: frame.after) →
        key child.data ∈ node.children.map fun child => key child.data := by
      rintro node rfl
      simp [NaryTree.children]
    obtain ⟨i, bound, rfl⟩ := List.getElem_of_mem ((inorder_perm _).subset grown)
    obtain ⟨j, bound', same⟩ := List.getElem_of_mem place
    obtain before | rfl | after := Nat.lt_trichotomy i j
    · exact (pairs i j bound bound' before mine (there _ same)).elim
    · exact same
    · exact (pairs j i bound' bound after (there _ same) mine).elim

end

end NaryTree
