import Flom.Lib.Graft
import Flom.ResourceHier

set_option autoImplicit false

namespace Flom

def Comparable (first second : List Name) : Prop := first <+: second ∨ second <+: first

theorem comparable_cons {name : Name} {first second : List Name} :
    Comparable (name :: first) (name :: second) ↔ Comparable first second := by
  simp [Comparable, List.cons_prefix_cons]

theorem not_comparable_cons {name level : Name} {first second : List Name}
    (different : level ≠ name) :
    ¬Comparable (name :: first) (level :: second) := by
  simp [Comparable, List.cons_prefix_cons, different, Ne.symm different]

theorem comparable_nil (path : List Name) : Comparable path [] := .inr (List.nil_prefix)

theorem resourceHierCanLockLeaves_iff (leaves : List HierTree) (lock : LockMode)
    (path : List Name) :
    resourceHierCanLockLeaves leaves lock path = true ↔
      ∀ leaf ∈ leaves, resourceHierCanLock leaf lock path = true := by
  induction leaves with
  | nil => simp [resourceHierCanLockLeaves]
  | cons leaf others ih => simp [resourceHierCanLockLeaves, ih]

theorem resourceHierCanLock_iff (tree : HierTree) (lock : LockMode) (path : List Name) :
    resourceHierCanLock tree lock path = true ↔
      ∀ entry ∈ tree.entries, Comparable entry.1 path → lockTable entry.2.mode lock = true := by
  induction tree using Rose.induct generalizing path with
  | node name holders leaves ih =>
    rw [resourceHierCanLock]
    have below : ∀ rest : List Name, resourceHierCanLockLeaves leaves lock rest = true ↔
        ∀ entry ∈ Rose.entriesAll leaves, Comparable entry.1 rest →
          lockTable entry.2.mode lock = true := by
      intro rest
      rw [resourceHierCanLockLeaves_iff]
      constructor
      · intro every entry member related
        obtain ⟨leaf, present, inside⟩ := Rose.mem_entriesAll.mp member
        exact (ih leaf present rest).mp (every leaf present) entry inside related
      · intro every leaf present
        exact (ih leaf present rest).mpr fun entry inside related =>
          every entry (Rose.mem_entriesAll.mpr ⟨leaf, present, inside⟩) related
    cases path with
    | nil =>
      simp only [List.head?_nil, Option.any_none, Bool.false_eq_true, if_false, List.tail_nil,
        Bool.and_eq_true, List.all_eq_true, below, Rose.entries, List.mem_append, List.mem_map]
      constructor
      · rintro ⟨here, deeper⟩ entry (⟨holder, member, rfl⟩ | ⟨inner, member, rfl⟩) _
        · exact here holder member
        · exact deeper inner member (comparable_nil _)
      · intro every
        exact ⟨fun holder member => every _ (.inl ⟨holder, member, rfl⟩) (comparable_nil _),
          fun inner member _ => every (Rose.under [name] inner) (.inr ⟨inner, member, rfl⟩)
            (comparable_nil _)⟩
    | cons level rest =>
      by_cases same : level = name
      · subst same
        simp only [List.head?_cons, Option.any_some, ne_eq, not_true_eq_false, decide_false,
          Bool.false_eq_true, if_false, List.tail_cons, Bool.and_eq_true, List.all_eq_true, below,
          Rose.entries, List.mem_append, List.mem_map]
        constructor
        · rintro ⟨here, deeper⟩ entry (⟨holder, member, rfl⟩ | ⟨inner, member, rfl⟩) related
          · exact here holder member
          · exact deeper inner member (comparable_cons.mp related)
        · intro every
          refine ⟨fun holder member => ?_, fun inner member related => ?_⟩
          · exact every _ (.inl ⟨holder, member, rfl⟩) (comparable_cons.mpr (.inl List.nil_prefix))
          · exact every (Rose.under [level] inner) (.inr ⟨inner, member, rfl⟩)
              (comparable_cons.mpr related)
      · simp only [List.head?_cons, Option.any_some, ne_eq, same, not_false_eq_true, decide_true,
          if_true, true_iff]
        intro entry member related
        obtain ⟨tail, path⟩ := Rose.entry_head member
        rw [path] at related
        exact absurd related (not_comparable_cons same)

theorem hier_compatibility_exact (tree : HierTree) (lock : LockMode) (path : List Name) :
    (resourceHierCanLock tree lock path = true ↔
      ∀ entry ∈ tree.entries, entry.1 <+: path ∨ path <+: entry.1 →
        lockTable entry.2.mode lock = true) ∧
      ∀ other : HierTree, (∀ entry, Comparable entry.1 path →
        (entry ∈ other.entries ↔ entry ∈ tree.entries)) →
        resourceHierCanLock other lock path = resourceHierCanLock tree lock path := by
  constructor
  · exact resourceHierCanLock_iff tree lock path
  · intro other same
    apply Bool.eq_iff_iff.mpr
    rw [resourceHierCanLock_iff, resourceHierCanLock_iff]
    constructor
    · intro every entry member related
      exact every entry ((same entry related).mpr member) related
    · intro every entry member related
      exact every entry ((same entry related).mp member) related

def hierPlace (tree : HierTree) (path : List Name) : List Name :=
  if path.head? = some tree.label then path else tree.label :: path

theorem hierLeaf_found {leaves : List HierTree} {name : Name} {position : Nat} {leaf : HierTree}
    (found : ((hierLeaf leaves name).bind fun position => leaves[position]?.map (position, ·)) =
      some (position, leaf)) : leaves[position]? = some leaf ∧ leaf.label = name := by
  obtain ⟨index, search, mapped⟩ := Option.bind_eq_some_iff.mp found
  obtain ⟨other, present, same⟩ := Option.map_eq_some_iff.mp mapped
  obtain ⟨rfl, rfl⟩ := Prod.mk.inj same
  obtain ⟨bound, named, _⟩ := List.findIdx?_eq_some_iff_getElem.mp search
  rw [List.getElem?_eq_getElem bound] at present
  obtain rfl := Option.some.inj present
  exact ⟨List.getElem?_eq_getElem bound, by simpa using named⟩

theorem hierReach_spec (path : List Name) (tree : HierTree) :
    ∃ sub, tree.subtree (hierReach path tree).1 = some sub ∧
      Rose.above (hierReach path tree).1 tree ++ sub.label :: (hierReach path tree).2 =
        hierPlace tree path := by
  induction path generalizing tree with
  | nil => exact ⟨tree, rfl, rfl⟩
  | cons level rest ih =>
    cases tree with
    | node name holders leaves =>
      rw [hierReach.eq_def]
      dsimp only
      by_cases same : level = name
      · subst same
        rw [if_pos rfl]
        have place : hierPlace (.node level holders leaves) (level :: rest) = level :: rest := by
          simp [hierPlace, Rose.label]
        rw [place]
        cases rest with
        | nil => exact ⟨_, rfl, rfl⟩
        | cons next others =>
          dsimp only
          split
          · next position leaf found =>
            obtain ⟨present, named⟩ := hierLeaf_found found
            obtain ⟨sub, reached, path⟩ := ih leaf
            refine ⟨sub, by simpa [Rose.subtree, present] using reached, ?_⟩
            have inside : hierPlace leaf (next :: others) = next :: others := by
              simp [hierPlace, named]
            simp only [Rose.above, present, Option.map_some, Option.getD_some, List.cons_append,
              path,
              inside]
          · exact ⟨_, rfl, rfl⟩
      · rw [if_neg same]
        refine ⟨_, rfl, ?_⟩
        simp [hierPlace, Rose.above, Rose.label, same]

theorem hierChain_eq (cl : HierLock) (level : Name) (rest : List Name) :
    hierChain cl level rest = Rose.chain cl level rest := by
  induction rest generalizing level with
  | nil => rfl
  | cons next rest ih => rw [hierChain, Rose.chain, ih]

theorem hierAttach_eq (cl : HierLock) (missing : List Name) (tree : HierTree) :
    hierAttach cl missing tree = Rose.attach cl missing tree := by
  cases tree with
  | node name holders leaves =>
    cases missing with
    | nil => rfl
    | cons level rest => rw [hierAttach, Rose.attach, hierChain_eq]

theorem hierAttach_entries (cl : HierLock) (missing : List Name) (tree : HierTree) :
    (hierAttach cl missing tree).entries.Perm ((tree.label :: missing, cl) :: tree.entries) := by
  rw [hierAttach_eq]
  exact Rose.attach_entries cl missing tree

theorem resourceHierAddLocker_entries (data : HierData) (cl : HierLock) (path : List Name) :
    (resourceHierAddLocker data cl path).root.entries.Perm
      ((hierPlace data.root path, cl) :: data.root.entries) := by
  obtain ⟨sub, reached, place⟩ := hierReach_spec path data.root
  obtain ⟨others, before, after⟩ := Rose.entries_update reached
  have attached := (hierAttach_entries cl (hierReach path data.root).2 sub).map
    (Rose.under (Rose.above (hierReach path data.root).1 data.root))
  refine (after _).trans ((attached.append_right others).trans ?_)
  simp only [List.map_cons, Rose.under, place, List.cons_append]
  exact before.symm.cons _

theorem hierLocate_reached (path : List Name) (tree : HierTree) :
    ∃ sub, tree.subtree (hierLocate path tree) = some sub := by
  induction path generalizing tree with
  | nil => exact ⟨tree, rfl⟩
  | cons level rest ih =>
    cases tree with
    | node name holders leaves =>
      rw [hierLocate.eq_def]
      dsimp only
      split
      · cases rest with
        | nil => exact ⟨_, rfl⟩
        | cons next others =>
          dsimp only
          split
          · next position leaf found =>
            obtain ⟨present, _⟩ := hierLeaf_found found
            obtain ⟨sub, reached⟩ := ih leaf
            exact ⟨sub, by simpa [Rose.subtree, present] using reached⟩
          · exact ⟨_, rfl⟩
      · exact ih _

theorem hierRemoveConn_eq (conn : ConnId) (tree : HierTree) :
    hierRemoveConn conn tree = Rose.removeFirst (fun holder => holder.conn = conn) tree := by
  cases tree
  rfl

theorem hierRemoveConn_entries {conn : ConnId} {tree : HierTree}
    (present : tree.items.any (·.conn = conn) = true) :
    ∃ removed : HierLock, removed.conn = conn ∧
      tree.entries.Perm (([tree.label], removed) :: (hierRemoveConn conn tree).entries) := by
  obtain ⟨removed, found⟩ := Option.isSome_iff_exists.mp (List.isSome_find?.trans present)
  refine ⟨removed, by simpa using List.find?_some found, ?_⟩
  rw [hierRemoveConn_eq]
  exact Rose.removeFirst_entries found

def hierStop (path : List Name) (tree : HierTree) : List Name :=
  Rose.above (hierLocate path tree) tree ++ (tree.subtree (hierLocate path tree)).toList.map
    Rose.label

theorem hierRelease_stop {name : Name} {data freed : HierData} {conn : ConnId}
    (released : hierRelease name data conn = some freed) :
    ∃ removed : HierLock, removed.conn = conn ∧
      data.root.entries.Perm ((hierStop (hierLevels name) data.root, removed) ::
        freed.root.entries) := by
  unfold hierRelease at released
  split at released
  · next holds =>
    obtain rfl := Option.some.inj released
    obtain ⟨node, reached, present⟩ := (Option.any_eq_true _ _).mp holds
    obtain ⟨others, before, after⟩ := Rose.entries_update reached
    obtain ⟨removed, mine, perm⟩ := hierRemoveConn_entries present
    have lifted := (perm.map (Rose.under (Rose.above (hierLocate (hierLevels name) data.root)
      data.root))).append_right others
    refine ⟨removed, mine, ?_⟩
    simp only [hierStop, reached, Option.toList_some, List.map_cons, List.map_nil]
    exact before.trans (lifted.trans ((after (hierRemoveConn conn)).symm.cons _))
  · cases released

theorem hierRelease_entries {name : Name} {data freed : HierData} {conn : ConnId}
    (released : hierRelease name data conn = some freed) :
    ∃ (path : List Name) (removed : HierLock), removed.conn = conn ∧
      data.root.entries.Perm ((path, removed) :: freed.root.entries) :=
  ⟨_, hierRelease_stop released⟩

theorem hierEmptyChain_eq (level : Name) (rest : List Name) :
    hierEmptyChain level rest = Rose.bare level rest := by
  induction rest generalizing level with
  | nil => rfl
  | cons next rest ih => rw [hierEmptyChain, Rose.bare, ih]

theorem resourceHierGc_eq (tree : HierTree) : resourceHierGc tree = Rose.prune tree := by
  induction tree using Rose.induct with
  | node name holders leaves ih =>
    have below : resourceHierGcLeaves leaves = Rose.pruneAll leaves := by
      clear holders
      induction leaves with
      | nil => simp [resourceHierGcLeaves, Rose.pruneAll]
      | cons leaf others later =>
        rw [resourceHierGcLeaves, Rose.pruneAll, ih leaf (by simp),
          later fun other member => ih other (List.mem_cons_of_mem _ member)]
    rw [resourceHierGc, Rose.prune, below]

theorem resourceHierGc_entries (tree : HierTree) :
    (resourceHierGc tree).entries = tree.entries := by
  rw [resourceHierGc_eq]
  exact Rose.prune_entries tree

theorem resourceHierGc_canLock (tree : HierTree) (lock : LockMode) (path : List Name) :
    resourceHierCanLock (resourceHierGc tree) lock path = resourceHierCanLock tree lock path := by
  rw [Bool.eq_iff_iff, resourceHierCanLock_iff, resourceHierCanLock_iff, resourceHierGc_entries]

theorem hierCollect_entries (cleaned : Cleaned HierData HierWait) :
    (hierCollect cleaned).rsrc.data.root.entries = cleaned.rsrc.data.root.entries := by
  unfold hierCollect
  split
  · exact resourceHierGc_entries _
  · rfl

theorem hierCollect_waitings (cleaned : Cleaned HierData HierWait) :
    (hierCollect cleaned).rsrc.waitings = cleaned.rsrc.waitings := by
  unfold hierCollect
  split <;> rfl

theorem hierCollect_granted (cleaned : Cleaned HierData HierWait) :
    (hierCollect cleaned).granted = cleaned.granted := by
  unfold hierCollect
  split <;> rfl

theorem hierCollect_failed (cleaned : Cleaned HierData HierWait) :
    (hierCollect cleaned).failed = cleaned.failed := by
  unfold hierCollect
  split <;> rfl

theorem hierCollect_rc (cleaned : Cleaned HierData HierWait) :
    (hierCollect cleaned).rc = cleaned.rc := by
  unfold hierCollect
  split <;> rfl

end Flom
