import Flom.RamRefine
import Mathlib.Data.List.Flatten

set_option autoImplicit false

namespace Flom

open NaryTree Lists

section

variable {frames : List (Frame RamNode)} {frame : Frame RamNode} {tree : GNode}

theorem ramTreeFindParent_at (once : ((plug (frame :: frames) tree).keys RamNode.ino).Nodup) :
    ramTreeFindParent (plug (frame :: frames) tree) tree =
      some (.node frame.data (frame.before ++ tree :: frame.after)) := by
  have other : tree.data.ino ≠ (plug (frame :: frames) tree).data.ino := fun same =>
    absent_aside once (key_mem_keys RamNode.ino tree)
      (same ▸ root_aside RamNode.ino frame frames tree)
  rw [ramTreeFindParent, if_neg other]
  exact parent_plug once

theorem delete_at (once : ((plug (frame :: frames) tree).keys RamNode.ino).Nodup) (now : Int) :
    ramTreeCleanup tree.data.ino
      (ramTreeUpdateMtime frame.data.ino now (plug (frame :: frames) tree)) =
        plug frames (.node { frame.data with mtime := now } (frame.before ++ frame.after)) := by
  have above : frame.data.ino ∉ aside RamNode.ino frames :=
    @absent_aside _ _ RamNode.ino _ frames (.node frame.data (frame.before ++ tree :: frame.after))
      once (key_mem_keys RamNode.ino _)
  have touched : ramTreeUpdateMtime frame.data.ino now (plug (frame :: frames) tree) =
      plug ({ frame with data := { frame.data with mtime := now } } :: frames) tree :=
      updateMtime_at above rfl
  have beside : tree.data.ino ∉ aside RamNode.ino (frame :: frames) :=
    absent_aside once (key_mem_keys RamNode.ino tree)
  rw [touched]
  exact cleanup_at beside rfl

end

section

variable {kind : ConnId → Bool} {dirs : RamDirs} {env : RamEnv} {conn : ConnId}

theorem eraseP_split {before after : List ConnDir} {found : ConnDir} (here : found.is conn = true)
    (others : ∀ other ∈ before, other.is conn = false) :
    (before ++ found :: after).eraseP (ConnDir.is conn) = before ++ after := by
  rw [List.eraseP_append_right _ fun other member => by simpa using others other member,
    List.eraseP_cons_of_pos here]

def RamDirs.waiterFrames (dirs : RamDirs) (before after : List ConnDir) : List (Frame RamNode) :=
  ⟨dirs.incubatorDir.dir vfsIncubatorDirName, before.map ConnDir.tree, after.map ConnDir.tree⟩ ::
    dirs.incubatorFrames

theorem plug_waiter {dirs : RamDirs} (before after : List ConnDir) (waiter : ConnDir) :
    plug (dirs.waiterFrames before after) waiter.tree =
    { dirs with incubator := before ++ waiter :: after }.tree := by
  rw [RamDirs.tree, RamDirs.incubatorTree, List.map_append, List.map_cons]
  rfl

theorem ramTreeDelConn_incubator (once : dirs.Once) (conn : ConnId) :
    (ramTreeDelConn env conn true dirs.tree).2 = (dirs.call env (.delConn conn true)).tree := by
  rw [ramTreeDelConn, if_pos rfl, find_incubatorDir]
  dsimp only
  rw [find_incubator, RamDirs.call]
  cases found : dirs.incubator.find? (ConnDir.is conn) with
  | none =>
    have absent : dirs.incubator.any (ConnDir.is conn) = false := by
      simpa using List.find?_eq_none.mp found
    rw [absent, if_neg Bool.false_ne_true]
    rfl
  | some inside =>
    obtain ⟨here, before, after, split, others⟩ := List.find?_eq_some_iff_append.mp found
    have placed : dirs.tree = plug (dirs.waiterFrames before after) inside.tree := by
      rw [plug_waiter, ← split]
    have nodes : ((plug (dirs.waiterFrames before after) inside.tree).keys RamNode.ino).Nodup :=
      placed ▸ once
    have listed : dirs.incubator.any (ConnDir.is conn) = true :=
      List.any_eq_true.mpr ⟨inside, List.mem_of_find?_eq_some found, here⟩
    rw [listed, if_pos rfl, split, eraseP_split
      here fun other member => by simpa using others other member]
    dsimp only [Option.map_some]
    have parent : ramTreeFindParent (plug (dirs.waiterFrames before after) inside.tree)
        inside.tree = some _ :=
      ramTreeFindParent_at nodes
    rw [placed, parent]
    refine (delete_at nodes (env.clock 0)).trans ?_
    rw [RamDirs.tree, RamDirs.incubatorTree, List.map_append]
    rfl

theorem find_named (kinded : dirs.Kinded kind) (other : kind conn = false) {found : GNode}
    (named : ramTreeFindNodeByName dirs.lockersTree (uidText conn) = some found) :
    ∃ before dir after front inside behind, dirs.lockers = before ++ dir :: after ∧
    dir.names conn = true ∧
      (∀ other ∈ before, other.names conn = false) ∧
      dir.conns (dir.side conn) = front ++ inside :: behind ∧
      inside.is conn = true ∧ (∀ other ∈ front, other.is conn = false) ∧ found = inside.tree := by
  rw [find_lockers_conn kinded other, List.findSome?_eq_some_iff] at named
  obtain ⟨before, dir, after, split, here, others⟩ := named
  obtain ⟨inside, listed, rfl⟩ := Option.map_eq_some_iff.mp here
  obtain ⟨front, behind, conns, mine, first⟩ := find_split listed
  refine ⟨before, dir, after, front, inside, behind, split, ?_, fun other member => ?_, conns, mine,
    first, rfl⟩
  · rw [LockerDir.names, listed, Option.isSome_some]
  · rw [LockerDir.names, Option.map_eq_none_iff.mp (others other member), Option.isSome_none]

theorem unnamed (kinded : dirs.Kinded kind) (other : kind conn = false)
    (absent : ramTreeFindNodeByName dirs.lockersTree (uidText conn) = none)
    (change : LockerDir → LockerDir) :
    dirs.inLocker (LockerDir.names conn) change = dirs := by
  rw [find_lockers_conn kinded other, List.findSome?_eq_none_iff] at absent
  rw [RamDirs.inLocker, updateFirst_absent fun dir member => ?_]
  rw [LockerDir.names, Option.map_eq_none_iff.mp (absent dir member), Option.isSome_none]

theorem ramTreeDelConn_locker (once : dirs.Once) (kinded : dirs.Kinded kind)
    (other : kind conn = false) :
    (ramTreeDelConn env conn false dirs.tree).2 = (dirs.call env (.delConn conn false)).tree := by
  rw [ramTreeDelConn, if_neg Bool.false_ne_true, find_lockersDir, RamDirs.call]
  dsimp only
  cases named : ramTreeFindNodeByName dirs.lockersTree (uidText conn) with
  | none => rw [unnamed kinded other named]
  | some found =>
    obtain ⟨before, dir, after, front, inside, behind, split, here, others, conns, mine, first,
        rfl⟩ :=
      find_named kinded other named
    have placed := placed_conn split conns
    have nodes :
      ((plug (dir.connFrame (dir.side conn) front behind :: dir.connsFrame
      (dir.side conn) :: dirs.lockerFrames before after) inside.tree).keys RamNode.ino).Nodup :=
      placed ▸ once
    dsimp only
    rw [inLocker_split split here others, LockerDir.delConn, conns, eraseP_split mine first,
      ← plug_setConns, placed,
      ramTreeFindParent_at nodes]
    refine (delete_at nodes (env.clock 0)).trans ?_
    rw [List.map_append]
    rfl

theorem locker_keys (dir : LockerDir) : dir.tree.keys RamNode.ino =
    dir.ino :: dir.resourceName.ino :: dir.resourceType.ino :: dir.holdersDir.ino ::
      (keysAll RamNode.ino (dir.holders.map ConnDir.tree) ++
        dir.waitingsDir.ino :: keysAll RamNode.ino (dir.waitings.map ConnDir.tree)) := by
  simp only [LockerDir.tree, RamFile.tree, LockerDir.connsTree, LockerDir.conns, LockerDir.connsDir,
    leaf, keys_node,
    keysAll_cons, keysAll_nil, List.append_nil, if_true, Bool.false_eq_true, if_false]
  rfl

theorem keysAll_sublist {shorter longer : List ConnDir} (less : shorter.Sublist longer) :
    (keysAll RamNode.ino (shorter.map ConnDir.tree)).Sublist
      (keysAll RamNode.ino (longer.map ConnDir.tree)) :=
  (less.map ConnDir.tree).flatMap _

theorem once_locker (once : dirs.Once) {before after : List LockerDir} {dir less : LockerDir}
    (split : dirs.lockers = before ++ dir :: after)
    (fewer : (less.tree.keys RamNode.ino).Subperm (dir.tree.keys RamNode.ino)) :
    ((plug (dirs.lockerFrames before after) less.tree).keys RamNode.ino).Nodup := by
  refine @keys_fewer _ _ RamNode.ino _ dir.tree _ fewer ?_
  rw [plug_locker, ← split]
  exact once

theorem delConn_fewer (dir : LockerDir) :
    ((dir.delConn env conn).tree.keys RamNode.ino).Sublist (dir.tree.keys RamNode.ino) := by
  have shorter (conns : List ConnDir) := keysAll_sublist
    (List.eraseP_sublist (p := ConnDir.is conn) (l := conns))
  rw [locker_keys, locker_keys, LockerDir.delConn]
  cases dir.side conn with
  | true =>
    exact
      (((((shorter dir.holders).append_right _).cons_cons _).cons_cons _).cons_cons _).cons_cons _
  | false =>
    exact (((((((shorter dir.waitings).cons_cons _).append_left _).cons_cons _).cons_cons
      _).cons_cons _).cons_cons _)

theorem moveConn_keys (dir : LockerDir) :
    ((dir.moveConn env conn).tree.keys RamNode.ino).Perm (dir.tree.keys RamNode.ino) := by
  rw [LockerDir.moveConn]
  split_ifs with held
  · exact .refl _
  · cases found : dir.waitings.find? (ConnDir.is conn) with
    | none => exact .refl _
    | some inside =>
      obtain ⟨here, before, after, split, others⟩ := List.find?_eq_some_iff_append.mp found
      have erased := @eraseP_split conn before after inside here fun other member => by
        simpa using others other member
      rw [locker_keys, locker_keys]
      dsimp only
      rw [split, erased]
      simp only [List.map_append, List.map_cons, List.map_nil, keysAll_append, keysAll_cons,
        keysAll_nil]
      refine .cons _ (.cons _ (.cons _ (.cons _ ?_)))
      rw [List.perm_iff_count]
      intro ino
      have same : (ConnDir.tree { inside with mtime := env.clock 2 }).keys RamNode.ino =
          inside.tree.keys RamNode.ino := rfl
      have touched : (dir.waitingsDir.touch (env.clock 0)).ino = dir.waitingsDir.ino := rfl
      rw [same, touched]
      simp only [List.count_append, List.count_cons, List.append_nil]
      omega

theorem move_tree (once : dirs.Once) {before after : List LockerDir} {dir : LockerDir}
    {front behind : List ConnDir} {inside : ConnDir} (split : dirs.lockers = before ++ dir :: after)
    (queued : dir.waitings = front ++ inside :: behind) :
    (dirs.tree |> ramTreeCleanup inside.ino |> ramTreeUpdateMtime dir.waitingsDir.ino (env.clock 0)
        |> NaryTree.modify (RamNode.is dir.holdersDir.ino) (.append inside.tree)
        |> ramTreeUpdateMtime dir.holdersDir.ino (env.clock 1) |> ramTreeUpdateMtime inside.ino
          (env.clock 2)) =
      plug (dirs.lockerFrames before after)
        (LockerDir.tree { dir with
          holdersDir := dir.holdersDir.touch (env.clock 1)
          waitingsDir := dir.waitingsDir.touch (env.clock 0)
          holders := dir.holders ++ [{ inside with mtime := env.clock 2 }]
          waitings := front ++ behind }) := by
  let places := dirs.lockerFrames before after
  let taken : LockerDir := dir.setConns false (dir.waitingsDir.touch (env.clock 0))
    (front ++ behind)
  let moved : LockerDir := taken.setConns true (dir.holdersDir.touch (env.clock 1))
    (dir.holders ++ [inside])
  have placed : dirs.tree = plug
      (dir.connFrame false front behind :: dir.connsFrame false :: places) inside.tree :=
    @placed_conn dirs before after dir split false front behind inside queued
  have nodes :
    ((plug (dir.connFrame false front behind :: dir.connsFrame false :: places) inside.tree).keys
    RamNode.ino).Nodup := placed ▸ once
  have fewer : (taken.tree.keys RamNode.ino).Sublist (dir.tree.keys RamNode.ino) := by
    have shorter : (front ++ behind).Sublist dir.waitings :=
      queued ▸ (List.sublist_cons_self inside behind).append_left front
    rw [locker_keys, locker_keys]
    exact (((((keysAll_sublist shorter).cons_cons _).append_left _).cons_cons _).cons_cons
      _).cons_cons _ |>.cons_cons _
  have first : ramTreeUpdateMtime dir.waitingsDir.ino (env.clock 0)
    (ramTreeCleanup inside.ino dirs.tree) =
      plug places taken.tree := by
    have absent : inside.ino ∉ aside RamNode.ino
        (dir.connFrame false front behind :: dir.connsFrame false :: places) :=
      absent_aside nodes (key_mem_keys RamNode.ino inside.tree)
    have above : dir.waitingsDir.ino ∉ aside RamNode.ino (dir.connsFrame false :: places) := by
      refine @absent_aside _ _ RamNode.ino _ _ (dir.connsTree false) ?_
        (key_mem_keys RamNode.ino (dir.connsTree false))
      rw [plug_conns]
      exact once_locker once split (List.Subperm.refl _)
    rw [placed, cleanup_at absent rfl, updateMtime_at above rfl, ← plug_setConns, List.map_append]
    rfl
  have second : ramTreeUpdateMtime dir.holdersDir.ino (env.clock 1)
      ((plug places taken.tree).modify (RamNode.is dir.holdersDir.ino) (.append inside.tree)) =
        plug places moved.tree := by
    have above : dir.holdersDir.ino ∉ aside RamNode.ino (taken.connsFrame true :: places) := by
      refine @absent_aside _ _ RamNode.ino _ _ (taken.connsTree true) ?_
        (key_mem_keys RamNode.ino (taken.connsTree true))
      rw [plug_conns]
      exact once_locker once split fewer.subperm
    rw [← plug_conns places taken true]
    refine (congrArg _ (modify_at above rfl)).trans ?_
    rw [updateMtime_at above rfl, ← plug_setConns, List.map_append]
    rfl
  have third : ramTreeUpdateMtime inside.ino (env.clock 2) (plug places moved.tree) =
      plug places (moved.setConns true (moved.connsDir true)
        (dir.holders ++ [{ inside with mtime := env.clock 2 }])).tree := by
    have place : plug places moved.tree =
        plug (moved.connFrame true dir.holders [] :: moved.connsFrame true :: places) inside.tree :=
      (plug_conn places moved true dir.holders [] inside).symm
    have same : (moved.tree.keys RamNode.ino).Perm (dir.tree.keys RamNode.ino) := by
      rw [locker_keys, locker_keys]
      refine .cons _ (.cons _ (.cons _ (.cons _ ?_)))
      change (keysAll RamNode.ino ((dir.holders ++ [inside]).map ConnDir.tree) ++
        dir.waitingsDir.ino :: keysAll RamNode.ino ((front ++ behind).map ConnDir.tree)).Perm _
      rw [queued, List.perm_iff_count]
      intro ino
      simp only [List.map_append, List.map_cons, List.map_nil, keysAll_append, keysAll_cons,
        keysAll_nil,
        List.count_append, List.count_cons, List.append_nil]
      omega
    have once' := once_locker once split same.subperm
    have above : inside.ino ∉ aside RamNode.ino
        (moved.connFrame true dir.holders [] :: moved.connsFrame true :: places) :=
      absent_aside (place ▸ once') (key_mem_keys RamNode.ino inside.tree)
    rw [place, updateMtime_at above rfl]
    exact plug_conn places moved true dir.holders [] { inside with mtime := env.clock 2 }
  change ramTreeUpdateMtime inside.ino (env.clock 2)
    (ramTreeUpdateMtime dir.holdersDir.ino (env.clock 1)
    (NaryTree.modify (RamNode.is dir.holdersDir.ino) (.append inside.tree)
      (ramTreeUpdateMtime dir.waitingsDir.ino (env.clock 0) (ramTreeCleanup inside.ino dirs.tree))))
        = _
  rw [first, second, third]
  rfl

theorem ramTreeMoveLockerConn_dirs (once : dirs.Once) (kinded : dirs.Kinded kind)
    (other : kind conn = false) :
    (ramTreeMoveLockerConn env conn dirs.tree).2 = (dirs.call env (.moveLockerConn conn)).tree := by
  rw [ramTreeMoveLockerConn, find_lockersDir, RamDirs.call]
  dsimp only
  cases named : ramTreeFindNodeByName dirs.lockersTree (uidText conn) with
  | none => rw [unnamed kinded other named]
  | some found =>
    obtain ⟨before, dir, after, front, inside, behind, split, here, others, conns, mine, first,
        rfl⟩ :=
      find_named kinded other named
    have placed := placed_conn split conns
    have nodes :
      ((plug (dir.connFrame (dir.side conn) front behind :: dir.connsFrame
      (dir.side conn) :: dirs.lockerFrames before after) inside.tree).keys RamNode.ino).Nodup :=
      placed ▸ once
    have parent : ramTreeFindParent dirs.tree inside.tree = some
        (dir.connsTree (dir.side conn)) := by
      rw [placed, ramTreeFindParent_at nodes, LockerDir.connsTree, conns, List.map_append,
        List.map_cons]
      rfl
    dsimp only
    rw [parent, inLocker_split split here others, LockerDir.moveConn]
    cases held : dir.side conn with
    | true =>
      rw [if_pos rfl, plug_locker, ← split]
      exact congrArg Prod.snd
        (if_neg (show connsDirName true ≠ vfsLockersWaitingsDirName by decide))
    | false =>
      rw [held] at conns
      have queued : dir.waitings = front ++ inside :: behind := conns
      have listed : dir.waitings.find? (ConnDir.is conn) = some inside := by
        rw [queued, List.find?_append,
          List.find?_eq_none.mpr fun other member => by simp [first other member],
          Option.none_or, List.find?_cons, mine]
      have grandparent : ramTreeFindParent dirs.tree (dir.connsTree false) = some dir.tree := by
        have place : dirs.tree = plug (dir.connsFrame false :: dirs.lockerFrames before after)
            (dir.connsTree false) := by
          rw [plug_conns, plug_locker, ← split]
        rw [place]
        exact ramTreeFindParent_at (place ▸ once)
      rw [listed, if_neg Bool.false_ne_true]
      dsimp only
      rw [queued, eraseP_split mine first,
        ← @move_tree dirs env once before after dir front behind inside split queued]
      refine (congrArg Prod.snd (if_pos rfl)).trans ?_
      rw [grandparent]
      dsimp only
      rw [show vfsLockersHoldersDirName = connsDirName true from rfl, find_connsDir]
      rfl

theorem once_inLocker (once : dirs.Once) (chosen : LockerDir → Bool)
    {change : LockerDir → LockerDir}
    (fewer : ∀ dir, ((change dir).tree.keys RamNode.ino).Subperm (dir.tree.keys RamNode.ino)) :
    (dirs.inLocker chosen change).Once := by
  cases found : dirs.lockers.find? chosen with
  | none =>
    rw [RamDirs.inLocker, updateFirst_absent
      fun dir member => by simpa using List.find?_eq_none.mp found dir member]
    exact once
  | some dir =>
    obtain ⟨here, before, after, split, others⟩ := List.find?_eq_some_iff_append.mp found
    rw [RamDirs.Once, inLocker_split split here
      fun other member => by simpa using others other member]
    exact once_locker once split (fewer dir)

theorem aside_waiterFrames (dirs : RamDirs) (before after : List ConnDir) :
    aside RamNode.ino (dirs.waiterFrames before after) =
      dirs.incubatorDir.ino :: (keysAll RamNode.ino (before.map ConnDir.tree) ++
        keysAll RamNode.ino (after.map ConnDir.tree)) ++ aside RamNode.ino dirs.incubatorFrames :=
  rfl

theorem addIncubatorConn_keys (conn : ConnId) (peerName resourceName resourceType : Name) :
    ((dirs.call env (.addIncubatorConn conn peerName resourceName resourceType)).tree.keys
      RamNode.ino).Perm
      ((List.range' 0 4).map env.ino ++ dirs.tree.keys RamNode.ino) := by
  let grown : RamDirs := { dirs with incubatorDir := dirs.incubatorDir.touch (env.clock 4) }
  have placed := @plug_waiter grown dirs.incubator []
    (incubatorDirNew env conn peerName resourceName resourceType)
  refine List.Perm.trans (.of_eq (congrArg _ placed.symm)) ?_
  refine (keys_plug RamNode.ino _ _).trans
    (.trans ?_ ((keys_plug RamNode.ino dirs.incubatorFrames _).symm.append_left _))
  rw [aside_waiterFrames, RamDirs.incubatorTree, keys_node, List.map_nil, keysAll_nil,
    List.append_nil]
  exact .refl _

theorem ramTreeAddIncubatorConn_dirs (once : dirs.Once) (fresh : env.Fresh 0 dirs.tree)
    (conn : ConnId) (peerName resourceName resourceType : Name) :
    ramTreeAddIncubatorConn env conn peerName resourceName resourceType dirs.tree =
      (.ok, (dirs.call env (.addIncubatorConn conn peerName resourceName resourceType)).tree) := by
  let grown : RamDirs := { dirs with incubatorDir := dirs.incubatorDir.touch (env.clock 4) }
  let node := ramNodeCreate env 0 (uidText conn) none
  have above : dirs.incubatorDir.ino ∉ aside RamNode.ino dirs.incubatorFrames :=
    absent_aside once (key_mem_keys RamNode.ino dirs.incubatorTree)
  have beside : env.ino 0 ∉ aside RamNode.ino (grown.waiterFrames dirs.incubator []) := by
    obtain ⟨outside, inside⟩ := @RamEnv.Fresh.absent env dirs.incubatorFrames dirs.incubatorTree 0
      fresh
    rw [RamDirs.incubatorTree, keys_node, dir_ino] at inside
    rw [aside_waiterFrames, List.map_nil, keysAll_nil, List.append_nil]
    exact fun member => (List.mem_append.mp member).elim inside outside
  have placed : ramTreeUpdateMtime dirs.incubatorDir.ino (env.clock 4)
      (appendData dirs.incubatorDir.ino node dirs.tree) = plug
          (grown.waiterFrames dirs.incubator []) (leaf node) := by
    rw [← plug_incubator, appendData_at above rfl, updateMtime_at above rfl]
    rfl
  have added (sub : GNode) (here : sub.data.ino = env.ino 0) (child : RamNode) :
      appendData node.ino child (plug (grown.waiterFrames dirs.incubator []) sub) =
        plug (grown.waiterFrames dirs.incubator []) (append (leaf child) sub) :=
        appendData_at beside here
  rw [ramTreeAddIncubatorConn, find_incubatorDir]
  refine congrArg (Prod.mk Rc.ok) ?_
  refine (congrArg _ (congrArg _ (congrArg _ placed))).trans ?_
  rw [added _ rfl, added _ rfl, added _ rfl]
  exact @plug_waiter grown dirs.incubator []
    (incubatorDirNew env conn peerName resourceName resourceType)

end

end Flom
