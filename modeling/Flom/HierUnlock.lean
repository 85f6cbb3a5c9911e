import Flom.HierInsertion
import Flom.ResourceHierExclusion
import Mathlib.Data.List.Nodup

set_option autoImplicit false

namespace Flom

open Scan

theorem hierLeaf_distinct {leaves : List HierTree} {leaf : HierTree}
    (distinct : (leaves.map Rose.label).Nodup) (member : leaf ∈ leaves) :
    ∃ position, hierLeaf leaves leaf.label = some position ∧ leaves[position]? = some leaf := by
  obtain ⟨index, bound, rfl⟩ := List.getElem_of_mem member
  refine ⟨index, ?_, List.getElem?_eq_getElem bound⟩
  rw [hierLeaf, List.findIdx?_eq_some_iff_getElem]
  refine ⟨bound, by simp, ?_⟩
  intro earlier before
  have apart := List.pairwise_iff_getElem.mp distinct earlier index
    (by simpa using before.trans bound) (by simpa using bound) before
  simpa using apart

theorem hierLocate_found {tree : HierTree} {path : List Name} (distinct : tree.Distinct)
    (present : path ∈ tree.paths) :
    ∃ sub, tree.subtree (hierLocate path tree) = some sub ∧ hierStop path tree = path ∧
      ∀ cl, (path, cl) ∈ tree.entries → cl ∈ sub.items := by
  induction path generalizing tree with
  | nil =>
    obtain ⟨rest, none⟩ := Rose.path_head present
    cases none
  | cons level rest ih =>
    cases tree with
    | node name holders leaves =>
      obtain ⟨here, below⟩ := Rose.distinct_node.mp distinct
      obtain ⟨_, start⟩ := Rose.path_head present
      obtain ⟨rfl, rfl⟩ := List.cons.inj start
      cases rest with
      | nil =>
        have locate : hierLocate [level] (.node level holders leaves) = [] := by simp [hierLocate]
        refine ⟨.node level holders leaves, by rw [locate]; rfl, ?_, ?_⟩
        · simp [hierStop, locate, Rose.above, Rose.subtree, Rose.label]
        · intro cl member
          simp only [Rose.entries, List.mem_append, List.mem_map] at member
          rcases member with ⟨item, listed, same⟩ | ⟨inner, listed, same⟩
          · obtain rfl := (Prod.mk.inj same).2
            exact listed
          · obtain ⟨leaf, _, inside⟩ := Rose.mem_entriesAll.mp listed
            obtain ⟨more, long⟩ := Rose.entry_head inside
            simp [Rose.under, long] at same
      | cons next others =>
        have inner : next :: others ∈ Rose.pathsAll leaves := by simpa [Rose.paths] using present
        obtain ⟨leaf, member, there⟩ := Rose.mem_pathsAll.mp inner
        obtain ⟨_, named⟩ := Rose.path_head there
        obtain ⟨position, found, index⟩ := hierLeaf_distinct here member
        obtain rfl : next = leaf.label := (List.cons.inj named).1
        obtain ⟨sub, reached, stop, every⟩ := ih (below leaf member) there
        have locate : hierLocate (level :: leaf.label :: others) (.node level holders leaves) =
            position :: hierLocate (leaf.label :: others) leaf := by
          rw [hierLocate.eq_def]
          simp [found, index]
        refine ⟨sub, by simpa [locate, Rose.subtree, index] using reached, ?_, ?_⟩
        · rw [hierStop, reached] at stop
          rw [hierStop, locate]
          simp [Rose.above, Rose.subtree, index, reached] at stop ⊢
          exact stop
        · intro cl listed
          apply every
          simp only [Rose.entries, List.mem_append, List.mem_map] at listed
          rcases listed with ⟨item, _, same⟩ | ⟨entry, inside, same⟩
          · simp at same
          · obtain ⟨other, listed, deep⟩ := Rose.mem_entriesAll.mp inside
            have path : entry = (leaf.label :: others, cl) := by
              cases entry
              simpa [Rose.under] using same
            obtain ⟨_, head⟩ := Rose.entry_head deep
            have alike : other.label = leaf.label := by
              rw [path] at head
              exact ((List.cons.inj head).1).symm
            obtain rfl : other = leaf := List.inj_on_of_nodup_map here listed member alike
            exact path ▸ deep

theorem hierPlace_label {first second : HierTree} (same : first.label = second.label)
    (path : List Name) :
    hierPlace first path = hierPlace second path := by
  rw [hierPlace, hierPlace, same]

def hierLinked (root : HierTree) (freed : Bool) (waiter : HierWait) : List Name × HierLock :=
  (hierPlace root (hierLevels waiter.name), ⟨waiter.conn, waiter.mode, freed⟩)

theorem hierLinked_label {first second : HierTree} (same : first.label = second.label) :
    hierLinked first = hierLinked second := by
  funext freed waiter
  rw [hierLinked, hierLinked, hierPlace_label same]

def hierGranted (root : HierTree) (granted : List (HierData × HierWait))
    (failed : Option HierWait) :
    List (List Name × HierLock) :=
  granted.map (fun grant => hierLinked root false grant.2) ++ failed.toList.map
    (hierLinked root true)

theorem hierScan_perm (name : Name) (data : HierData) (queue : List HierWait) (sends : List Rc) :
    let scanned := scan (hierManager name).toOps Rc.ok data queue sends
    (data.root.entries ++ hierGranted data.root scanned.granted scanned.failed).Perm
      scanned.state.root.entries := by
  induction data, queue, sends using scan_cases (hierManager name).toOps Rc.ok with
  | done data sends => simp [hierGranted]
  | granted data waiter rest sends can sent ih =>
    have linked := resourceHierAddLocker_entries data ⟨waiter.conn, waiter.mode, false⟩
      (hierLevels waiter.name)
    have label : ((hierManager name).take data waiter).root.label = data.root.label :=
      resourceHierAddLocker_label data _ _
    simp only [hierGranted, hierLinked_label label] at ih
    simp only [Scanned.grant_granted, Scanned.grant_failed, Scanned.grant_state, hierGranted,
      List.map_cons, List.cons_append]
    exact (List.perm_middle.trans (linked.append_right _).symm).trans ih
  | failed data waiter rest sends can unsent =>
    have linked := resourceHierAddLocker_entries data ⟨waiter.conn, waiter.mode, true⟩
      (hierLevels waiter.name)
    simp only [hierGranted, List.map_nil, List.nil_append, Option.toList_some, List.map_cons]
    exact (List.perm_append_singleton _ _).trans linked.symm
  | skipped data waiter rest sends cannot ih => exact ih

theorem resourceHierClean_records (rsrc : HierRsrc) (conn : ConnId) (sends : List Rc) :
    let cleaned := resourceHierClean rsrc conn sends
    let linked := hierGranted rsrc.data.root cleaned.granted cleaned.failed
    if hierNodeHolds rsrc.name rsrc.data conn then
      ∃ removed : HierLock, removed.conn = conn ∧
        (hierStop (hierLevels rsrc.name) rsrc.data.root, removed) ∈ rsrc.data.root.entries ∧
        (rsrc.data.root.entries ++ linked).Perm
          ((hierStop (hierLevels rsrc.name) rsrc.data.root, removed) ::
            cleaned.rsrc.data.root.entries)
    else linked = [] ∧ cleaned.rsrc.data.root.entries = rsrc.data.root.entries := by
  simp only [resourceHierClean, hierCollect_entries, hierCollect_granted, hierCollect_failed]
  split
  · next holds =>
    have released : (hierManager rsrc.name).release rsrc.data conn = some
        { rsrc.data with root := rsrc.data.root.update (hierRemoveConn conn)
                            (hierLocate (hierLevels rsrc.name) rsrc.data.root) } := by
      simp [hierManager, hierRelease, holds]
    obtain ⟨removed, mine, perm⟩ := hierRelease_stop released
    have label := hierRelease_label released
    refine ⟨removed, mine, perm.mem_iff.mpr List.mem_cons_self, ?_⟩
    simp only [rsrcClean, (hierManager rsrc.name).clean_of_some Rc.ok rsrc.data _ rsrc.waitings conn
      sends released]
    have scanned := hierScan_perm rsrc.name
      { rsrc.data with root := rsrc.data.root.update (hierRemoveConn conn)
                          (hierLocate (hierLevels rsrc.name) rsrc.data.root) } rsrc.waitings sends
    simp only [hierGranted, hierLinked_label label] at scanned ⊢
    exact (perm.append_right _).trans (scanned.cons _)
  · next nothing =>
    have kept : (hierManager rsrc.name).release rsrc.data conn = none := by
      simp [hierManager, hierRelease, nothing]
    simp [rsrcClean, (hierManager rsrc.name).clean_of_none Rc.ok rsrc.data rsrc.waitings conn sends
      kept,
      hierGranted]

def HierUnlockExact (rsrc : HierRsrc) (conn : ConnId) (name : Name)
    (out : Inmsg HierData HierWait) : Prop :=
  ∃ removed : List (List Name × HierLock),
    (rsrc.data.root.entries ++ hierGranted rsrc.data.root out.granted out.failed).Perm
      (removed ++ out.rsrc.data.root.entries) ∧
    ((∃ cl, removed = [(hierLevels name, cl)] ∧ cl.conn = conn ∧
        (hierLevels name, cl) ∈ rsrc.data.root.entries) ∨
      removed = [] ∧ ∀ entry ∈ rsrc.data.root.entries, entry.1 = hierLevels name →
        entry.2.conn ≠ conn)

def HierUnlockFits (data : HierData) (conn : ConnId) (name : Name) : Prop :=
  if hierNodeHolds name data conn then hierStop (hierLevels name) data.root = hierLevels name
  else ∀ entry ∈ data.root.entries, entry.1 = hierLevels name → entry.2.conn ≠ conn

instance (data : HierData) (conn : ConnId) (name : Name) :
    Decidable (HierUnlockFits data conn name) :=
  inferInstanceAs (Decidable (if hierNodeHolds name data conn then
    hierStop (hierLevels name) data.root = hierLevels name
    else ∀ entry ∈ data.root.entries, entry.1 = hierLevels name → entry.2.conn ≠ conn))

theorem resourceHierUnlock_iff (rsrc : HierRsrc) (conn : ConnId) (name : Name) (msg : Msg)
    (sends : List Rc) (named : resourceHierCompareName rsrc name = true) :
    HierUnlockExact rsrc conn name (resourceHierUnlock rsrc conn name msg sends) ↔
      HierUnlockFits rsrc.data conn name := by
  have entries := resourceHierClean_records ⟨name, rsrc.data, rsrc.waitings⟩ conn sends
  dsimp only at entries
  rw [HierUnlockExact, HierUnlockFits, resourceHierUnlock, if_pos named]
  simp only [inmsgOfCleaned_rsrc, inmsgOfCleaned_granted, inmsgOfCleaned_failed,
    resourceHierChangeName]
  by_cases holds : hierNodeHolds name rsrc.data conn = true
  · rw [if_pos holds] at entries ⊢
    obtain ⟨removed, mine, present, perm⟩ := entries
    constructor
    · rintro ⟨others, split, ⟨cl, rfl, _, _⟩ | ⟨rfl, _⟩⟩
      · have same := (List.perm_append_right_iff _).mp
          ((List.singleton_append ▸ perm.symm).trans split)
        exact (Prod.mk.inj (List.singleton_perm_singleton.mp same)).1
      · have length := (perm.symm.trans split).length_eq
        simp at length
    · intro stop
      rw [stop] at perm present
      exact ⟨_, perm, .inl ⟨removed, rfl, mine, present⟩⟩
  · rw [if_neg holds] at entries ⊢
    obtain ⟨linked, same⟩ := entries
    rw [linked, same, List.append_nil]
    constructor
    · rintro ⟨others, split, ⟨cl, rfl, _, _⟩ | ⟨rfl, none⟩⟩
      · have length := split.length_eq
        simp at length
      · exact none
    · intro none
      exact ⟨[], List.Perm.refl _, .inr ⟨rfl, none⟩⟩

theorem resourceHierStep_keeps {label : Name} {inv : HierData → Prop}
    (preserved : ∀ name, Preserved (hierManager name).toOps inv fun waiter =>
      nameRooted label waiter.name)
    (release : ∀ name data conn freed, inv data → hierRelease name data conn = some freed →
      inv freed) (collect : ∀ data, inv data → inv ⟨resourceHierGc data.root⟩) (rsrc : HierRsrc)
    (call : Call) (sound : Sound inv (fun waiter => nameRooted label waiter.name) rsrc)
    (rooted : call.rooted label) :
    Sound inv (fun waiter => nameRooted label waiter.name) (resourceHierStep rsrc call) := by
  have taken (name : Name) : Preserved (hierSentManager name).toOps inv fun waiter =>
      nameRooted label waiter.name :=
    ⟨(preserved name).take, (preserved name).take, (preserved name).skip⟩
  refine resourceHierStep_cleans taken rsrc call ?_ sound rooted
  intro rsrc conn sound
  have freed := rsrcClean_sound (preserved rsrc.name) (release rsrc.name) rsrc conn call.sends sound
  unfold resourceHierClean hierCollect
  split
  · exact ⟨collect _ freed.data, freed.waitings⟩
  · exact freed

structure HierShape (label : Name) (data : HierData) : Prop where
  rooted : data.root.label = label
  distinct : data.root.Distinct

theorem hierShape_add {label : Name} {data : HierData} (cl : HierLock) {name : Name}
    (shape : HierShape label data) (rooted : nameRooted label name) :
    HierShape label (resourceHierAddLocker data cl (hierLevels name)) where
  rooted := (resourceHierAddLocker_label _ _ _).trans shape.rooted
  distinct := resourceHierAddLocker_distinct cl shape.distinct (shape.rooted ▸ rooted.2)

theorem hierShape_release {label name : Name} {data freed : HierData} {conn : ConnId}
    (shape : HierShape label data) (released : hierRelease name data conn = some freed) :
    HierShape label freed := by
  refine ⟨(hierRelease_label released).trans shape.rooted, ?_⟩
  unfold hierRelease at released
  split at released
  · obtain rfl := Option.some.inj released
    apply Rose.distinct_update
    · exact fun tree => by cases tree; rfl
    · intro sub _ distinct
      cases distinct with
      | node label items children here below => exact .node label _ children here below
    · exact shape.distinct
  · cases released

theorem resourceHierStep_shape {label : Name} (rsrc : HierRsrc) (call : Call)
    (sound : Sound (HierShape label) (fun waiter => nameRooted label waiter.name) rsrc)
    (rooted : call.rooted label) :
    Sound (HierShape label) (fun waiter => nameRooted label waiter.name)
      (resourceHierStep rsrc call) := by
  apply resourceHierStep_keeps ?_ ?_ ?_ rsrc call sound rooted
  · intro name
    exact ⟨fun _ waiter shape fits _ => hierShape_add ⟨waiter.conn, waiter.mode, false⟩ shape fits,
      fun _ waiter shape fits _ => hierShape_add ⟨waiter.conn, waiter.mode, true⟩ shape fits,
      fun _ _ shape => shape⟩
  · intro name data conn freed shape released
    exact hierShape_release shape released
  · intro data shape
    refine ⟨(resourceHierGc_label _).trans shape.rooted, ?_⟩
    rw [resourceHierGc_eq]
    exact Rose.prune_distinct shape.distinct

theorem hierEmptyChain_distinct (level : Name) (rest : List Name) :
    (hierEmptyChain level rest).Distinct := by
  rw [hierEmptyChain_eq]
  exact Rose.bare_distinct level rest

theorem resourceHierInit_shape {name : Name} {rsrc : HierRsrc}
    (started : resourceHierInit name = .ok rsrc) :
    Sound (HierShape rsrc.data.root.label)
      (fun waiter => nameRooted rsrc.data.root.label waiter.name) rsrc := by
  obtain ⟨level, rest, _, _, rfl⟩ := resourceHierInit_eq started
  exact ⟨⟨rfl, hierEmptyChain_distinct _ _⟩, by simp⟩

theorem hierStop_path {path : List Name} {tree : HierTree} (some_level : path ≠ [])
    (stop : hierStop path tree = path) : path ∈ tree.paths := by
  obtain ⟨sub, reached⟩ := hierLocate_reached path tree
  have whole : Rose.above (hierLocate path tree) tree ++ [sub.label] = path := by
    simpa [hierStop, reached] using stop
  exact Rose.above_paths reached some_level (by rw [whole])

theorem hierUnlockFits_iff {data : HierData} {conn : ConnId} {name : Name}
    (distinct : data.root.Distinct) (some_level : hierLevels name ≠ []) :
    HierUnlockFits data conn name ↔
      hierLevels name ∈ data.root.paths ∨ hierNodeHolds name data conn = false := by
  unfold HierUnlockFits
  by_cases holds : hierNodeHolds name data conn = true
  · rw [if_pos holds]
    constructor
    · exact fun stop => .inl (hierStop_path some_level stop)
    · rintro (present | nothing)
      · obtain ⟨_, _, stop, _⟩ := hierLocate_found distinct present
        exact stop
      · simp [holds] at nothing
  · rw [if_neg holds]
    refine ⟨fun _ => .inr (by simpa using holds), ?_⟩
    intro _ entry member same mine
    obtain ⟨sub, reached, _, every⟩ := hierLocate_found distinct (same ▸ Rose.entry_path member)
    apply holds
    rw [hierNodeHolds, reached, Option.any_some, List.any_eq_true]
    exact ⟨entry.2, every entry.2 (same ▸ member), by simpa using mine⟩

theorem hier_unlock_exact_iff (start : Name) (initial : HierRsrc)
    (started : resourceHierInit start = .ok initial) (calls : List Call) (conn : ConnId)
    (lastStep : Int) (msg : Msg) (name : Name) (sends : List Rc) (unlocks : msg.verb = .unlock)
    (names : msg.unlock8.name = some name) :
    let reached := Run.run resourceHierStep initial calls
    resourceHierCompareName reached name = true →
      (HierUnlockExact reached conn name (resourceHierInmsg reached conn lastStep msg sends) ↔
        HierUnlockFits reached.data conn name) ∧
      ((∀ call ∈ calls, call.rooted initial.data.root.label) →
        (HierUnlockExact reached conn name (resourceHierInmsg reached conn lastStep msg sends) ↔
          hierLevels name ∈ reached.data.root.paths ∨
          hierNodeHolds name reached.data conn = false)) := by
  intro reached named
  have unlock : resourceHierInmsg reached conn lastStep msg sends =
      resourceHierUnlock reached conn name msg sends := by
    simp [resourceHierInmsg, unlocks, names]
  rw [unlock, resourceHierUnlock_iff reached conn name msg sends named]
  refine ⟨Iff.rfl, fun rooted => ?_⟩
  have shape : Sound (HierShape initial.data.root.label)
      (fun waiter => nameRooted initial.data.root.label waiter.name) reached := by
    apply Run.along_invariant resourceHierStep fun _ call => call.rooted initial.data.root.label
    · exact fun state call sound fits => resourceHierStep_shape state call sound fits
    · exact resourceHierInit_shape started
    · exact Run.along_of_forall resourceHierStep _ initial calls fun call member _ =>
        rooted call member
  apply hierUnlockFits_iff shape.data.distinct
  intro empty
  simp [resourceHierCompareName, empty] at named

theorem unlock_below_releases_above :
    let initial : HierRsrc := ⟨['/', 'r'], ⟨.node ['r'] [] []⟩, []⟩
    let reached := Run.run resourceHierStep initial
      [.inmsg 1 8 (msgLock ['/', 'r'] .ex 1 0 1) Env.fine]
    let out := resourceHierInmsg reached 1 8 (msgUnlock hierExampleName 0) []
    resourceHierInit ['/', 'r'] = .ok initial ∧
      resourceHierCompareName reached hierExampleName = true ∧
      reached.data.root.entries = [([['r']], ⟨1, .ex, false⟩)] ∧ out.rsrc.data.root.entries = [] ∧
      ¬HierUnlockExact reached 1 hierExampleName out := by
  intro initial reached out
  refine ⟨rfl, by decide, by decide, by decide, ?_⟩
  have unlock : out = resourceHierUnlock reached 1 hierExampleName (msgUnlock hierExampleName 0)
    [] := rfl
  rw [unlock, resourceHierUnlock_iff reached 1 hierExampleName _ [] (by decide)]
  decide

theorem hier_unlock_exact_iff_shared :
    let initial : HierRsrc := ⟨['/', 'r'], ⟨.node ['r'] [] []⟩, []⟩
    let calls := [Call.inmsg 1 8 (msgLock ['/', 'r'] .cr 1 0 1) Env.fine,
      Call.inmsg 1 8 (msgLock hierExampleName .pr 1 0 1) Env.fine]
    let reached := Run.run resourceHierStep initial calls
    (HierUnlockExact reached 1 hierExampleName
        (resourceHierInmsg reached 1 8 (msgUnlock hierExampleName 0) []) ↔
      HierUnlockFits reached.data 1 hierExampleName) ∧
    (HierUnlockExact reached 1 hierExampleName
        (resourceHierInmsg reached 1 8 (msgUnlock hierExampleName 0) []) ↔
      hierLevels hierExampleName ∈ reached.data.root.paths ∨
        hierNodeHolds hierExampleName reached.data 1 = false) := by
  intro initial calls reached
  have exact := hier_unlock_exact_iff ['/', 'r'] initial rfl calls 1 8 (msgUnlock hierExampleName 0)
    hierExampleName [] rfl rfl (by decide)
  refine ⟨exact.1, exact.2 ?_⟩
  intro call member
  simp only [calls, List.mem_cons, List.not_mem_nil, or_false] at member
  obtain rfl | rfl := member
  · exact ⟨fun _ _ named => Option.some.inj named ▸ by decide, fun locking => by cases locking⟩
  · exact ⟨fun _ _ named => Option.some.inj named ▸ by decide, fun locking => by cases locking⟩

end Flom
