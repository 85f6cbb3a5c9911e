import Flom.RamSearch
import Flom.RamView

set_option autoImplicit false

namespace Flom

open NaryTree Lists

/-- The addresses malloc(3) gives out from now on are not in use, and it gives each out once. -/
structure RamEnv.Fresh (env : RamEnv) (count : Nat) (root : GNode) : Prop where
  apart : Function.Injective env.ino
  unused : ∀ later, count ≤ later → env.ino later ∉ root.keys RamNode.ino

def RamDirs.Kinded (kind : ConnId → Bool) (dirs : RamDirs) : Prop := dirs.view.Kinded kind

def RamDirs.Once (dirs : RamDirs) : Prop := (dirs.tree.keys RamNode.ino).Nodup

section

variable {frames : List (Frame RamNode)} {tree : GNode} {ino : Nat}

theorem appendData_at {node : RamNode} (absent : ino ∉ aside RamNode.ino frames)
    (here : tree.data.ino = ino) :
    appendData ino node (plug frames tree) = plug frames (append (leaf node) tree) :=
  modify_at absent here

theorem updateMtime_at {now : Int} (absent : ino ∉ aside RamNode.ino frames)
    (here : tree.data.ino = ino) :
    ramTreeUpdateMtime ino now (plug frames tree) =
      plug frames (tree.mapData fun node => { node with mtime := now }) := modify_at absent here

theorem cleanup_at {frame : Frame RamNode} (absent : ino ∉ aside RamNode.ino (frame :: frames))
    (here : tree.data.ino = ino) :
    ramTreeCleanup ino (plug (frame :: frames) tree) = plug frames
      (.node frame.data (frame.before ++ frame.after)) :=
  remove_at absent here

end

section

variable {env : RamEnv} {root : GNode}

theorem RamEnv.Fresh.absent {frames : List (Frame RamNode)} {tree : GNode} {count : Nat}
    (fresh : env.Fresh count (plug frames tree)) :
    env.ino count ∉ aside RamNode.ino frames ∧ env.ino count ∉ tree.keys RamNode.ino := by
  have unused := fresh.unused count le_rfl
  rw [(keys_plug RamNode.ino frames tree).mem_iff, List.mem_append, not_or] at unused
  exact ⟨unused.2, unused.1⟩

theorem RamEnv.Fresh.grown {root' : GNode} {count more : Nat} (fresh : env.Fresh count root)
    (grows : (root'.keys RamNode.ino).Perm
      ((List.range' count more).map env.ino ++ root.keys RamNode.ino))
    (once : (root.keys RamNode.ino).Nodup) :
    env.Fresh (count + more) root' ∧ (root'.keys RamNode.ino).Nodup := by
  refine ⟨⟨fresh.apart, fun later bound inside => ?_⟩, ?_⟩
  · obtain new | old := List.mem_append.mp (grows.subset inside)
    · obtain ⟨earlier, listed, same⟩ := List.mem_map.mp new
      have before := List.mem_range'_1.mp listed
      have equal := fresh.apart same
      omega
    · exact fresh.unused later (by omega) old
  · rw [grows.nodup_iff, List.nodup_append']
    refine ⟨List.Nodup.map fresh.apart List.nodup_range', once, ?_⟩
    intro ino new old
    obtain ⟨later, listed, rfl⟩ := List.mem_map.mp new
    exact fresh.unused later (List.mem_range'_1.mp listed).1 old

end

def RamDirs.lockersFrames (dirs : RamDirs) : List (Frame RamNode) :=
  [⟨dirs.statusDir.dir vfsStatusDirName, [dirs.incubatorTree], []⟩,
    ⟨dirs.rootDir.dir vfsRootDirName, [], []⟩]

def RamDirs.incubatorFrames (dirs : RamDirs) : List (Frame RamNode) :=
  [⟨dirs.statusDir.dir vfsStatusDirName, [], [dirs.lockersTree]⟩,
    ⟨dirs.rootDir.dir vfsRootDirName, [], []⟩]

def RamDirs.lockerFrames (dirs : RamDirs) (before after : List LockerDir) : List (Frame RamNode) :=
  ⟨dirs.lockersDir.dir vfsLockersDirName, before.map LockerDir.tree, after.map LockerDir.tree⟩ ::
    dirs.lockersFrames

def LockerDir.connsFrame (dir : LockerDir) (holder : Bool) : Frame RamNode :=
  if holder then ⟨dir.dir (uidText dir.uid), [dir.resourceName.tree, dir.resourceType.tree],
    [dir.connsTree false]⟩
  else ⟨dir.dir (uidText dir.uid),
    [dir.resourceName.tree, dir.resourceType.tree, dir.connsTree true], []⟩

theorem plug_incubator (dirs : RamDirs) :
    plug dirs.incubatorFrames dirs.incubatorTree = dirs.tree := rfl

theorem plug_lockers (dirs : RamDirs) : plug dirs.lockersFrames dirs.lockersTree = dirs.tree := rfl

theorem plug_locker {dirs : RamDirs} (before after : List LockerDir) (dir : LockerDir) :
    plug (dirs.lockerFrames before after) dir.tree =
    { dirs with lockers := before ++ dir :: after }.tree := by
  rw [RamDirs.tree, RamDirs.lockersTree, List.map_append, List.map_cons]
  rfl

theorem plug_conns (frames : List (Frame RamNode)) (dir : LockerDir) (holder : Bool) :
    plug (dir.connsFrame holder :: frames) (dir.connsTree holder) = plug frames dir.tree := by
  cases holder <;> rfl

theorem plug_setConns (frames : List (Frame RamNode)) (dir : LockerDir) (holder : Bool)
    (inode : Inode) (conns : List ConnDir) :
    plug (dir.connsFrame holder :: frames)
      (.node (inode.dir (connsDirName holder)) (conns.map ConnDir.tree)) =
        plug frames (dir.setConns holder inode conns).tree := by
  cases holder <;> rfl

section

variable {kind : ConnId → Bool} {dirs : RamDirs} {env : RamEnv}

theorem aside_lockerFrames (dirs : RamDirs) (before after : List LockerDir) :
    aside RamNode.ino (dirs.lockerFrames before after) =
      dirs.lockersDir.ino :: (keysAll RamNode.ino (before.map LockerDir.tree) ++
        keysAll RamNode.ino (after.map LockerDir.tree)) ++ aside RamNode.ino dirs.lockersFrames :=
  rfl

theorem addLocker_keys (uid : ConnId) (resourceName resourceType : Name) :
    ((dirs.call env (.addLocker uid resourceName resourceType)).tree.keys RamNode.ino).Perm
      ((List.range' 0 5).map env.ino ++ dirs.tree.keys RamNode.ino) := by
  let grown : RamDirs := { dirs with lockersDir := dirs.lockersDir.touch (env.clock 5) }
  have placed := @plug_locker grown dirs.lockers [] (lockerDirNew env uid resourceName resourceType)
  refine List.Perm.trans (.of_eq (congrArg _ placed.symm)) ?_
  refine (keys_plug RamNode.ino _ _).trans
    (.trans ?_ ((keys_plug RamNode.ino dirs.lockersFrames _).symm.append_left _))
  rw [aside_lockerFrames, RamDirs.lockersTree, keys_node, List.map_nil, keysAll_nil,
    List.append_nil]
  exact .refl _

theorem ramTreeAddLocker_dirs (once : dirs.Once) (fresh : env.Fresh 0 dirs.tree) (uid : ConnId)
    (resourceName resourceType : Name) :
    ramTreeAddLocker env uid resourceName resourceType dirs.tree =
      (.ok, (dirs.call env (.addLocker uid resourceName resourceType)).tree) := by
  let grown : RamDirs := { dirs with lockersDir := dirs.lockersDir.touch (env.clock 5) }
  let node := ramNodeCreate env 0 (uidText uid) none
  have above : dirs.lockersDir.ino ∉ aside RamNode.ino dirs.lockersFrames :=
    absent_aside once (key_mem_keys RamNode.ino dirs.lockersTree)
  have beside : env.ino 0 ∉ aside RamNode.ino (grown.lockerFrames dirs.lockers []) := by
    obtain ⟨outside, inside⟩ := @RamEnv.Fresh.absent env dirs.lockersFrames dirs.lockersTree 0 fresh
    rw [RamDirs.lockersTree, keys_node, dir_ino] at inside
    rw [aside_lockerFrames, List.map_nil, keysAll_nil, List.append_nil]
    exact fun member => (List.mem_append.mp member).elim inside outside
  have placed : ramTreeUpdateMtime dirs.lockersDir.ino (env.clock 5)
    (appendData dirs.lockersDir.ino node dirs.tree) =
      plug (grown.lockerFrames dirs.lockers []) (leaf node) := by
    rw [← plug_lockers, appendData_at above rfl, updateMtime_at above rfl]
    rfl
  have added (sub : GNode) (here : sub.data.ino = env.ino 0) (child : RamNode) :
      appendData node.ino child (plug (grown.lockerFrames dirs.lockers []) sub) =
        plug (grown.lockerFrames dirs.lockers []) (append (leaf child) sub) :=
        appendData_at beside here
  rw [ramTreeAddLocker, find_lockersDir]
  refine congrArg (Prod.mk Rc.ok) ?_
  refine (congrArg _ (congrArg _ (congrArg _ (congrArg _ placed)))).trans ?_
  rw [added _ rfl, added _ rfl, added _ rfl, added _ rfl]
  exact @plug_locker grown dirs.lockers [] (lockerDirNew env uid resourceName resourceType)

theorem RamDirs.Kinded.uid (kinded : dirs.Kinded kind) {dir : LockerDir}
    (member : dir ∈ dirs.lockers) :
    kind dir.uid = true := kinded.lockers dir.view (List.mem_map_of_mem member)

theorem RamDirs.Kinded.unlisted (kinded : dirs.Kinded kind) {dir : LockerDir}
    (member : dir ∈ dirs.lockers) {locker : ConnId} (other : kind locker = true) :
    dir.find locker = none := by
  rw [LockerDir.find, List.find?_eq_none]
  intro conn listed
  simp only [ConnDir.is, decide_eq_true_eq]
  rintro rfl
  have conns := kinded.conns dir.view (List.mem_map_of_mem member) conn.uid
    (by simpa [LockerDir.view] using List.mem_map_of_mem (f := ConnDir.uid) listed)
  exact Bool.noConfusion (conns.symm.trans other)

theorem kinded_is (kinded : dirs.Kinded kind) {dir : LockerDir} (member : dir ∈ dirs.lockers)
    {conn : ConnId} (other : kind conn = false) : dir.is conn = false := by
  simp only [LockerDir.is, decide_eq_false_iff_not]
  rintro rfl
  exact Bool.noConfusion (other.symm.trans (kinded.uid member))

theorem find_lockers_locker (kinded : dirs.Kinded kind) {uid : ConnId} (locker : kind uid = true) :
    ramTreeFindNodeByName dirs.lockersTree (uidText uid) =
      (dirs.lockers.find? (LockerDir.is uid)).map LockerDir.tree := by
  have unlisted := fun dir (member : dir ∈ dirs.lockers) => kinded.unlisted member locker
  rw [find_lockers]
  generalize dirs.lockers = lockers at unlisted
  induction lockers with
  | nil => rfl
  | cons first rest ih =>
    rw [List.findSome?_cons, List.find?_cons, unlisted first List.mem_cons_self]
    cases first.is uid with
    | true => rfl
    | false => exact ih fun dir member => unlisted dir (List.mem_cons_of_mem first member)

theorem find_lockers_conn (kinded : dirs.Kinded kind) {uid : ConnId} (conn : kind uid = false) :
    ramTreeFindNodeByName dirs.lockersTree (uidText uid) =
      dirs.lockers.findSome? fun dir => (dir.find uid).map ConnDir.tree := by
  have others := fun dir (member : dir ∈ dirs.lockers) => kinded_is kinded member conn
  rw [find_lockers]
  generalize dirs.lockers = lockers at others
  induction lockers with
  | nil => rfl
  | cons first rest ih =>
    rw [List.findSome?_cons, List.findSome?_cons, others first List.mem_cons_self,
      if_neg Bool.false_ne_true,
      ih fun dir member => others dir (List.mem_cons_of_mem first member)]

theorem absent_locker (once : dirs.Once) {before after : List LockerDir} {dir : LockerDir}
    (split : dirs.lockers = before ++ dir :: after) {ino : Nat}
    (inside : ino ∈ dir.tree.keys RamNode.ino) :
    ino ∉ aside RamNode.ino (dirs.lockerFrames before after) := by
  refine @absent_aside _ _ RamNode.ino ino _ dir.tree ?_ inside
  rw [plug_locker, ← split]
  exact once

theorem ramTreeDelLocker_dirs (once : dirs.Once) (kinded : dirs.Kinded kind) (uid : ConnId)
    (locker : kind uid = true) :
    (ramTreeDelLocker uid dirs.tree).2 = (dirs.call env (.delLocker uid)).tree := by
  rw [ramTreeDelLocker, find_lockersDir]
  dsimp only
  rw [find_lockers_locker kinded locker]
  cases found : dirs.lockers.find? (LockerDir.is uid) with
  | none =>
    have absent := List.find?_eq_none.mp found
    rw [RamDirs.call, List.eraseP_of_forall_not absent]
    rfl
  | some dir =>
    obtain ⟨here, before, after, split, others⟩ := List.find?_eq_some_iff_append.mp found
    have erased : dirs.lockers.eraseP (LockerDir.is uid) = before ++ after := by
      rw [split, List.eraseP_append_right _ fun other member => by simpa using others other member,
        List.eraseP_cons_of_pos here]
    have placed : dirs.tree = plug (dirs.lockerFrames before after) dir.tree := by
      rw [plug_locker, ← split]
    have absent := absent_locker once split (key_mem_keys RamNode.ino dir.tree)
    rw [RamDirs.call, erased]
    change ramTreeCleanup dir.tree.data.ino dirs.tree = _
    rw [placed]
    refine (cleanup_at absent rfl).trans ?_
    rw [RamDirs.tree, RamDirs.lockersTree, List.map_append]
    rfl

theorem find_split {dir : LockerDir} {conn : ConnId} {found : ConnDir}
    (listed : dir.find conn = some found) :
    ∃ before after, dir.conns (dir.side conn) = before ++ found :: after ∧ found.is conn = true ∧
      ∀ other ∈ before, other.is conn = false := by
  have inside : (dir.conns (dir.side conn)).find? (ConnDir.is conn) = some found := by
    rw [LockerDir.find, List.find?_append] at listed
    rw [LockerDir.side, LockerDir.conns]
    cases held : dir.holders.find? (ConnDir.is conn) with
    | some holder =>
      rw [held, Option.some_or] at listed
      rw [List.any_eq_true.mpr ⟨holder, List.mem_of_find?_eq_some held, List.find?_some held⟩,
        if_pos rfl, held, listed]
    | none =>
      rw [held, Option.none_or] at listed
      have absent : dir.holders.any (ConnDir.is conn) = false := by
        simpa using List.find?_eq_none.mp held
      rw [absent, if_neg Bool.false_ne_true, listed]
  obtain ⟨here, before, after, split, others⟩ := List.find?_eq_some_iff_append.mp inside
  exact ⟨before, after, split, here, fun other member => by simpa using others other member⟩

def LockerDir.connFrame (dir : LockerDir) (holder : Bool) (before after : List ConnDir) :
    Frame RamNode :=
  ⟨(dir.connsDir holder).dir (connsDirName holder), before.map ConnDir.tree, after.map ConnDir.tree⟩

theorem plug_conn (frames : List (Frame RamNode)) (dir : LockerDir) (holder : Bool)
    (before after : List ConnDir) (conn : ConnDir) :
    plug (dir.connFrame holder before after :: dir.connsFrame holder :: frames) conn.tree =
      plug frames (dir.setConns holder (dir.connsDir holder) (before ++ conn :: after)).tree := by
  rw [← plug_setConns, List.map_append, List.map_cons]
  rfl

theorem setConns_same (dir : LockerDir) (holder : Bool) :
    dir.setConns holder (dir.connsDir holder) (dir.conns holder) = dir := by
  cases holder <;> rfl

theorem placed_conn {before after : List LockerDir} {dir : LockerDir}
    (split : dirs.lockers = before ++ dir :: after) {holder : Bool} {front behind : List ConnDir}
    {conn : ConnDir} (listed : dir.conns holder = front ++ conn :: behind) :
    dirs.tree = plug (dir.connFrame holder front behind :: dir.connsFrame holder ::
      dirs.lockerFrames before after)
      conn.tree := by
  rw [plug_conn, ← listed, setConns_same, plug_locker, ← split]

theorem inLocker_split {chosen : LockerDir → Bool} {change : LockerDir → LockerDir}
    {before after : List LockerDir} {dir : LockerDir}
    (split : dirs.lockers = before ++ dir :: after) (here : chosen dir = true)
    (others : ∀ other ∈ before, chosen other = false) :
    (dirs.inLocker chosen change).tree = plug (dirs.lockerFrames before after)
      (change dir).tree := by
  rw [plug_locker, RamDirs.inLocker, split, updateFirst_split others here]

theorem addFile_tree (conn : ConnDir) (file : RamFile) :
    (conn.addFile file).tree = append (leaf file.node) conn.tree := by
  rw [ConnDir.addFile, ConnDir.tree, List.map_append]
  rfl

theorem ramTreeAddLockerConnFile_dirs (once : dirs.Once) (kinded : dirs.Kinded kind)
    {locker conn : ConnId} (kinds : kind locker = true ∧ kind conn = false) (env : RamEnv)
    (count : Nat) (name : FileName) (content : Name) :
    ramTreeAddLockerConnFile (fun content => ramNodeCreate env count name.text (some content))
      locker conn
          (some content) dirs.tree =
        if dirs.lists locker conn then
          (.ok, (dirs.inLocker (LockerDir.is locker)
            (LockerDir.addFile conn (ramFile env count name content))).tree)
        else (rcObjNotFoundError, dirs.tree) := by
  rw [ramTreeAddLockerConnFile, find_lockersDir]
  dsimp only
  rw [find_lockers_locker kinded kinds.1, RamDirs.lists]
  cases found : dirs.lockers.find? (LockerDir.is locker) with
  | none => rfl
  | some dir =>
    obtain ⟨here, before, after, split, others⟩ := List.find?_eq_some_iff_append.mp found
    rw [Option.map_some, Option.any_some]
    dsimp only
    rw [find_locker, kinded_is kinded (List.mem_of_find?_eq_some found) kinds.2,
      if_neg Bool.false_ne_true,
      LockerDir.names]
    cases listed : dir.find conn with
    | none => rfl
    | some inside =>
      obtain ⟨front, behind, conns, mine, first⟩ := find_split listed
      rw [Option.isSome_some, if_pos rfl,
        inLocker_split split here fun other member => by simpa using others other member,
        LockerDir.addFile, conns, updateFirst_split first mine, ← plug_conn]
      have placed := placed_conn split conns
      refine congrArg (Prod.mk Rc.ok) ?_
      rw [placed, addFile_tree]
      refine appendData_at (absent_aside ?_ (key_mem_keys RamNode.ino inside.tree)) rfl
      rw [← placed]
      exact once

theorem lists_split {locker conn : ConnId} (listed : dirs.lists locker conn = true) :
    ∃ before dir after front inside behind, dirs.lockers = before ++ dir :: after ∧
    dir.is locker = true ∧
      (∀ other ∈ before, other.is locker = false) ∧
      dir.conns (dir.side conn) = front ++ inside :: behind ∧
      inside.is conn = true ∧ ∀ other ∈ front, other.is conn = false := by
  rw [RamDirs.lists] at listed
  cases found : dirs.lockers.find? (LockerDir.is locker) with
  | none => simp [found] at listed
  | some dir =>
    obtain ⟨here, before, after, split, others⟩ := List.find?_eq_some_iff_append.mp found
    rw [found, Option.any_some, LockerDir.names, Option.isSome_iff_exists] at listed
    obtain ⟨inside, held⟩ := listed
    obtain ⟨front, behind, conns, mine, first⟩ := find_split held
    exact ⟨before, dir, after, front, inside, behind, split, here,
      fun other member => by simpa using others other member,
      conns, mine, first⟩

theorem addFile_keys {locker conn : ConnId} (listed : dirs.lists locker conn = true)
    (file : RamFile) :
    ((dirs.inLocker (LockerDir.is locker) (LockerDir.addFile conn file)).tree.keys RamNode.ino).Perm
      (file.ino :: dirs.tree.keys RamNode.ino) := by
  obtain ⟨before, dir, after, front, inside, behind, split, here, others, conns, mine, first⟩ :=
    lists_split listed
  rw [inLocker_split split here others, LockerDir.addFile, conns, updateFirst_split first mine,
    ← plug_conn,
    placed_conn split conns, addFile_tree]
  refine @keys_grown _ _ _ _ _ _ [file.ino] ?_
  rw [keys_append]
  exact List.perm_append_comm

theorem kinded_view {dirs' : RamDirs} (kinded : dirs.Kinded kind) (same : dirs'.view = dirs.view) :
    dirs'.Kinded kind := by
  rw [RamDirs.Kinded, same]
  exact kinded

theorem ramTreeAddLockerConnFiles_dirs {locker conn : ConnId}
    (kinds : kind locker = true ∧ kind conn = false) (files : List (FileName × Option Name))
    {count : Nat} (once : dirs.Once) (kinded : dirs.Kinded kind)
    (fresh : env.Fresh count dirs.tree) :
    (ramTreeAddLockerConnFiles env locker conn count files dirs.tree).2 =
        (dirs.addFiles env locker conn count files).tree ∧
      (dirs.addFiles env locker conn count files).Once := by
  induction files generalizing dirs count with
  | nil => exact ⟨rfl, once⟩
  | cons file rest ih =>
    obtain ⟨name, content⟩ := file
    cases content with
    | none => exact ⟨rfl, once⟩
    | some content =>
      rw [ramTreeAddLockerConnFiles, ramTreeAddLockerConnFile_dirs once kinded kinds,
        RamDirs.addFiles]
      cases listed : dirs.lists locker conn with
      | false =>
        simp only [Bool.false_eq_true, if_false]
        rw [if_neg (by decide)]
        exact ⟨rfl, once⟩
      | true =>
        obtain ⟨later, still⟩ := @RamEnv.Fresh.grown env dirs.tree _ count 1 fresh
          (addFile_keys listed (ramFile env count name content)) once
        have same : (dirs.inLocker (LockerDir.is locker)
          (LockerDir.addFile conn (ramFile env count name content))).view =
            dirs.view := by
          have added := view_addFiles env locker conn count [(name, some content)] dirs
          rwa [RamDirs.addFiles, RamDirs.addFiles, listed] at added
        exact ih still (kinded_view kinded same) later

theorem addFiles_unlisted {locker conn : ConnId} (unlisted : dirs.lists locker conn = false)
    (count : Nat) (files : List (FileName × Option Name)) :
    dirs.addFiles env locker conn count files = dirs := by
  cases files with
  | nil => rfl
  | cons file rest =>
    obtain ⟨name, content⟩ := file
    cases content with
    | none => rfl
    | some content => rw [RamDirs.addFiles, unlisted, if_neg Bool.false_ne_true]

theorem ramTreeAddLockerConn_dirs {locker conn : ConnId}
    (kinds : kind locker = true ∧ kind conn = false) (once : dirs.Once) (kinded : dirs.Kinded kind)
    (fresh : env.Fresh 0 dirs.tree) (holder : Bool) (listed : RamConn) :
    (ramTreeAddLockerConn env locker conn holder listed dirs.tree).2 =
        (dirs.call env (.addLockerConn locker conn holder listed)).tree ∧
      (dirs.call env (.addLockerConn locker conn holder listed)).Once := by
  rw [ramTreeAddLockerConn, find_lockersDir]
  dsimp only
  rw [find_lockers_locker kinded kinds.1, RamDirs.call]
  cases found : dirs.lockers.find? (LockerDir.is locker) with
  | none =>
    have absent : ∀ dir ∈ dirs.lockers, dir.is locker = false := by
      simpa using List.find?_eq_none.mp found
    have same (change : LockerDir → LockerDir) :
        dirs.inLocker (LockerDir.is locker) change = dirs := by
      rw [RamDirs.inLocker, updateFirst_absent absent]
    rw [same, addFiles_unlisted (by rw [RamDirs.lists, found, Option.any_none])]
    exact ⟨rfl, once⟩
  | some dir =>
    obtain ⟨here, before, after, split, others⟩ := List.find?_eq_some_iff_append.mp found
    have changed := @inLocker_split dirs (LockerDir.is locker)
      (LockerDir.addConn env conn holder) before after dir split here fun other member => by
      simpa using others other member
    have placed : dirs.tree = plug (dir.connsFrame holder :: dirs.lockerFrames before after)
        (dir.connsTree holder) := by
      rw [plug_conns, plug_locker, ← split]
    have absent : (dir.connsDir holder).ino ∉ aside RamNode.ino
        (dir.connsFrame holder :: dirs.lockerFrames before after) := by
      refine absent_aside ?_ (key_mem_keys RamNode.ino (dir.connsTree holder))
      rw [← placed]
      exact once
    let added : ConnDir := { ramInode env 0 with uid := conn, files := [] }
    have grown : (dirs.inLocker (LockerDir.is locker) (LockerDir.addConn env conn holder)).tree =
        plug (dir.connsFrame holder :: dirs.lockerFrames before after)
          (.node (((dir.connsDir holder).touch (env.clock 6)).dir (connsDirName holder))
            ((dir.conns holder ++ [added]).map ConnDir.tree)) := by
      rw [changed, LockerDir.addConn, plug_setConns]
    have tree : ramTreeUpdateMtime (dir.connsDir holder).ino (env.clock 6)
        (appendData (dir.connsDir holder).ino (ramNodeCreate env 0 (uidText conn) none) dirs.tree) =
          (dirs.inLocker (LockerDir.is locker) (LockerDir.addConn env conn holder)).tree := by
      rw [grown, placed, appendData_at absent rfl, updateMtime_at absent rfl, List.map_append]
      rfl
    have keys : ((dirs.inLocker (LockerDir.is locker) (LockerDir.addConn env conn holder)).tree.keys
        RamNode.ino).Perm (env.ino 0 :: dirs.tree.keys RamNode.ino) := by
      rw [grown, placed]
      refine @keys_grown _ _ _ _ _ _ [env.ino 0] ?_
      rw [LockerDir.connsTree, keys_node, keys_node, List.map_append, keysAll_append]
      exact (List.perm_append_singleton _ _).cons _ |>.trans (.swap _ _ _)
    obtain ⟨later, still⟩ := @RamEnv.Fresh.grown env dirs.tree _ 0 1 fresh keys once
    have kinds' : RamDirs.Kinded kind
        (dirs.inLocker (LockerDir.is locker) (LockerDir.addConn env conn holder)) := by
      have called := @kinded_call kind dirs.view kinded (.addLockerConn locker conn holder) kinds
      rw [RamDirs.Kinded, @view_inLocker (LockerDir.is locker) (fun dir => dir.uid = locker)
        (LockerDir.addConn env conn holder) (·.addConn conn holder) (fun _ => rfl)
          (fun dir => view_addConn holder) dirs]
      exact called
    rw [Option.map_some]
    dsimp only
    rw [show (if holder = true then vfsLockersHoldersDirName else vfsLockersWaitingsDirName) =
      connsDirName holder from rfl,
      find_connsDir]
    refine Eq.mp ?_ (ramTreeAddLockerConnFiles_dirs kinds listed.files still kinds' later)
    rw [← tree]
    rfl

end

end Flom
