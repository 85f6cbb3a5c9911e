import Flom.RamCalls

set_option autoImplicit false

namespace Flom

open NaryTree Lists

structure RamStep where
  env : RamEnv
  call : RamCall

def ramTreeRun (root : GNode) (steps : List RamStep) : GNode :=
  steps.foldl (fun root step => (ramTreeCall step.env root step.call).2) root

def RamDirs.run (dirs : RamDirs) (steps : List RamStep) : RamDirs :=
  steps.foldl (fun dirs step => dirs.call step.env step.call) dirs

/-- malloc(3) keeps its word in every call. -/
def Allocates : GNode → List RamStep → Prop
  | _, [] => True
  | root, step :: rest =>
    step.env.Fresh 0 root ∧ Allocates (ramTreeCall step.env root step.call).2 rest

def ramDirsInit (env : RamEnv) : RamDirs where
  rootDir := ramInode env 0
  statusDir := ramInode env 1
  incubatorDir := ramInode env 3
  lockersDir := ramInode env 2
  incubator := []
  lockers := []

theorem ramDirsInit_once {env : RamEnv} (apart : Function.Injective env.ino) :
    (ramDirsInit env).Once := by
  have keys : (ramDirsInit env).tree.keys RamNode.ino = [0, 1, 3, 2].map env.ino := rfl
  rw [RamDirs.Once, keys]
  exact List.Nodup.map apart (by decide)

theorem ramDirsInit_kinded (kind : ConnId → Bool) (env : RamEnv) : (ramDirsInit env).Kinded kind :=
  ⟨fun _ inside => (List.not_mem_nil inside).elim, fun _ inside => (List.not_mem_nil inside).elim⟩

section

variable {kind : ConnId → Bool} {dirs : RamDirs} {env : RamEnv} {call : RamCall}

theorem call_kinded (kinded : dirs.Kinded kind) (kinds : call.Kinded kind) :
    (dirs.call env call).Kinded kind := by
  rw [RamDirs.Kinded, view_call]
  exact kinded_run kinded (forget_kinded kinds)

theorem ramTreeCall_dirs (once : dirs.Once) (kinded : dirs.Kinded kind)
    (fresh : env.Fresh 0 dirs.tree) (kinds : call.Kinded kind) :
    (ramTreeCall env dirs.tree call).2 = (dirs.call env call).tree ∧ (dirs.call env call).Once := by
  cases call with
  | addLocker uid resourceName resourceType =>
    have grown := fresh.grown (addLocker_keys uid resourceName resourceType) once
    exact ⟨congrArg Prod.snd (ramTreeAddLocker_dirs once fresh uid resourceName resourceType),
      grown.2⟩
  | delLocker uid =>
    refine ⟨ramTreeDelLocker_dirs once kinded uid (kinds (.delLocker uid) List.mem_cons_self), ?_⟩
    have fewer := (List.eraseP_sublist (p := LockerDir.is uid) (l := dirs.lockers)).map
      LockerDir.tree
    refine @keys_fewer _ _ RamNode.ino dirs.lockersFrames dirs.lockersTree _
      (List.Sublist.subperm ?_) once
    rw [RamDirs.lockersTree, RamDirs.lockersTree, keys_node, keys_node]
    exact (fewer.flatMap (keys RamNode.ino)).cons_cons _
  | addLockerConn locker conn holder listed =>
    exact ramTreeAddLockerConn_dirs (kinds (.addLockerConn locker conn holder) List.mem_cons_self)
      once kinded fresh holder listed
  | addLockerConnFile locker conn name content =>
    have files := ramTreeAddLockerConnFiles_dirs kinds [(name, content)] once kinded fresh
    refine ⟨?_, files.2⟩
    rw [ramTreeCall, RamDirs.call, ← files.1, ramTreeAddLockerConnFiles]
    split_ifs <;> rfl
  | moveLockerConn conn =>
    refine ⟨ramTreeMoveLockerConn_dirs once kinded
      (kinds (.moveLockerConn conn) List.mem_cons_self), ?_⟩
    exact once_inLocker once _ fun dir => (moveConn_keys dir).subperm
  | delConn conn incubating =>
    cases incubating with
    | true =>
      refine ⟨ramTreeDelConn_incubator once conn, ?_⟩
      rw [RamDirs.call]
      split_ifs
      · have fewer := keysAll_sublist
          (List.eraseP_sublist (p := ConnDir.is conn) (l := dirs.incubator))
        refine @keys_fewer _ _ RamNode.ino dirs.incubatorFrames dirs.incubatorTree _
          (List.Sublist.subperm ?_) once
        rw [RamDirs.incubatorTree, RamDirs.incubatorTree, keys_node, keys_node]
        exact fewer.cons_cons _
      · exact once
    | false =>
      refine ⟨ramTreeDelConn_locker once kinded
        (kinds (.delConn conn false) List.mem_cons_self), ?_⟩
      exact once_inLocker once _ fun dir => (delConn_fewer dir).subperm
  | addIncubatorConn conn peerName resourceName resourceType =>
    have grown := fresh.grown (addIncubatorConn_keys conn peerName resourceName resourceType) once
    exact ⟨congrArg Prod.snd (ramTreeAddIncubatorConn_dirs once fresh conn peerName resourceName
      resourceType), grown.2⟩

theorem run_view (dirs : RamDirs) (steps : List RamStep) :
    (dirs.run steps).view = dirs.view.run (steps.flatMap fun step => step.call.forget) := by
  induction steps generalizing dirs with
  | nil => rfl
  | cons step rest ih => exact (ih _).trans (by rw [view_call, List.flatMap_cons, run_append])

theorem ramTreeRun_dirs {steps : List RamStep} (once : dirs.Once) (kinded : dirs.Kinded kind)
    (allocates : Allocates dirs.tree steps) (kinds : ∀ step ∈ steps, step.call.Kinded kind) :
    ramTreeRun dirs.tree steps = (dirs.run steps).tree ∧ (dirs.run steps).Once := by
  induction steps generalizing dirs with
  | nil => exact ⟨rfl, once⟩
  | cons step rest ih =>
    obtain ⟨fresh, later⟩ := allocates
    obtain ⟨kind, others⟩ := List.forall_mem_cons.mp kinds
    obtain ⟨same, still⟩ := ramTreeCall_dirs once kinded fresh kind
    rw [same] at later
    have run := ih still (call_kinded kinded kind) later others
    rw [← same] at run
    exact run

end

section

variable {good : Nat → Prop} {env : RamEnv} {root : GNode}

theorem appendData_holds {node : RamNode} (gives : good node.ino) (dir : Nat)
    (all : root.Holds RamNode.ino good) :
    (appendData dir node root).Holds RamNode.ino good := by
  refine holds_modify _ (fun tree below => holds_append ?_ below) all
  exact holds_node.mpr ⟨gives, fun _ inside => (List.not_mem_nil inside).elim⟩

theorem updateMtime_holds (ino : Nat) (now : Int) (all : root.Holds RamNode.ino good) :
    (ramTreeUpdateMtime ino now root).Holds RamNode.ino good := by
  refine holds_modify (RamNode.is ino) (fun tree below => ?_) all
  exact @holds_mapData _ _ RamNode.ino good (fun node => { node with mtime := now })
    (fun _ => rfl) tree below

theorem addLockerConnFile_holds {node : Name → RamNode} (gives : ∀ content, good (node content).ino)
    {locker conn : ConnId} {content : Option Name} (all : root.Holds RamNode.ino good) :
    (ramTreeAddLockerConnFile node locker conn content root).2.Holds RamNode.ino good := by
  unfold ramTreeAddLockerConnFile
  split
  · exact all
  · split
    · exact all
    · split
      · exact all
      · split
        · exact all
        · exact appendData_holds (gives _) _ all

theorem addLockerConnFiles_holds (gives : ∀ count, good (env.ino count)) {locker conn : ConnId}
    {count : Nat} {files : List (FileName × Option Name)} (all : root.Holds RamNode.ino good) :
    (ramTreeAddLockerConnFiles env locker conn count files root).2.Holds RamNode.ino good := by
  induction files generalizing count root with
  | nil => exact all
  | cons file rest ih =>
    have added : (ramTreeAddLockerConnFile
      (fun content => ramNodeCreate env count file.1.text (some content)) locker conn file.2
      root).2.Holds RamNode.ino good := addLockerConnFile_holds (fun _ => gives count) all
    rw [ramTreeAddLockerConnFiles]
    split_ifs
    · exact ih added
    · exact added

theorem ramTreeCall_holds (gives : ∀ count, good (env.ino count)) (call : RamCall)
    (all : root.Holds RamNode.ino good) :
    (ramTreeCall env root call).2.Holds RamNode.ino good := by
  cases call with
  | addLocker uid resourceName resourceType =>
    rw [ramTreeCall, ramTreeAddLocker]
    split
    · exact all
    · exact appendData_holds (gives 4) _ (appendData_holds (gives 3) _ (appendData_holds (gives 2) _
        (appendData_holds (gives 1) _ (updateMtime_holds _ _ (appendData_holds (gives 0) _ all)))))
  | delLocker uid =>
    rw [ramTreeCall, ramTreeDelLocker]
    split
    · exact all
    · split
      · exact all
      · exact holds_remove _ all
  | addLockerConn locker conn holder listed =>
    rw [ramTreeCall, ramTreeAddLockerConn]
    split
    · exact all
    · split
      · exact all
      · split
        · exact all
        · exact addLockerConnFiles_holds gives
            (updateMtime_holds _ _ (appendData_holds (gives 0) _ all))
  | addLockerConnFile locker conn name content =>
    exact addLockerConnFile_holds (fun _ => gives 0) all
  | moveLockerConn conn =>
    rw [ramTreeCall, ramTreeMoveLockerConn]
    cases lockers : ramTreeFindNodeByName root vfsLockersDirName with
    | none => exact all
    | some dir =>
      dsimp only
      cases named : ramTreeFindNodeByName dir (uidText conn) with
      | none => exact all
      | some found =>
        have inside : found.Holds RamNode.ino good :=
          holds_preorder (List.mem_of_find?_eq_some named)
            (holds_preorder (List.mem_of_find?_eq_some lockers) all)
        dsimp only
        split
        · exact all
        · split_ifs
          · split
            · exact all
            · split
              · exact all
              · exact updateMtime_holds _ _ (updateMtime_holds _ _
                  (holds_modify _ (fun _ below => holds_append inside below)
                    (updateMtime_holds _ _ (holds_remove _ all))))
          · exact all
  | delConn conn incubating =>
    rw [ramTreeCall, ramTreeDelConn]
    split
    · exact all
    · split
      · exact all
      · split
        · exact all
        · exact holds_remove _ (updateMtime_holds _ _ all)
  | addIncubatorConn conn peerName resourceName resourceType =>
    rw [ramTreeCall, ramTreeAddIncubatorConn]
    split
    · exact all
    · exact appendData_holds (gives 3) _ (appendData_holds (gives 2) _ (appendData_holds (gives 1) _
        (updateMtime_holds _ _ (appendData_holds (gives 0) _ all))))

theorem ramTreeRun_holds {steps : List RamStep}
    (gives : ∀ step ∈ steps, ∀ count, good (step.env.ino count))
    (all : root.Holds RamNode.ino good) : (ramTreeRun root steps).Holds RamNode.ino good := by
  induction steps generalizing root with
  | nil => exact all
  | cons step rest ih =>
    obtain ⟨here, later⟩ := List.forall_mem_cons.mp gives
    exact ih later (ramTreeCall_holds here step.call all)

theorem ramTreeInit_holds (gives : ∀ count, good (env.ino count)) :
    (ramTreeInit env).Holds RamNode.ino good := by
  intro ino inside
  have keys : (ramTreeInit env).keys RamNode.ino = [0, 1, 3, 2].map env.ino := rfl
  rw [keys] at inside
  obtain ⟨count, _, rfl⟩ := List.mem_map.mp inside
  exact gives count

end

section

variable {kind : ConnId → Bool}

-- The tree of flom_vfs.c, searched by name and changed by address, is at any time the directories
-- that the calls asked for, no two nodes share an inode, and the uids it lists are those the calls
-- say.
theorem ramTree_refines {start : RamEnv} {steps : List RamStep}
    (apart : Function.Injective start.ino) (allocates : Allocates (ramTreeInit start) steps)
    (kinds : ∀ step ∈ steps, step.call.Kinded kind) :
    ramTreeRun (ramTreeInit start) steps = ((ramDirsInit start).run steps).tree ∧
      ((ramTreeRun (ramTreeInit start) steps).keys RamNode.ino).Nodup ∧
      ((ramDirsInit start).run steps).view = vfsInit.run
          (steps.flatMap fun step => step.call.forget) := by
  obtain ⟨same, once⟩ := ramTreeRun_dirs (ramDirsInit_once apart)
    (ramDirsInit_kinded kind start) allocates kinds
  have same' : ramTreeRun (ramTreeInit start) steps = ((ramDirsInit start).run steps).tree := same
  refine ⟨same', ?_, run_view (ramDirsInit start) steps⟩
  rw [same']
  exact once

end

theorem fresh_above {env : RamEnv} {root : GNode} {base : Nat} (ino : env.ino = (base + ·))
    (below : ∀ old ∈ root.keys RamNode.ino, old < base) : env.Fresh 0 root := by
  constructor
  · rw [ino]
    exact add_right_injective base
  · rintro later - inside
    have old := below _ inside
    rw [ino] at old
    exact absurd old (Nat.not_lt.mpr (Nat.le_add_right base later))

def stepsSample : List RamStep :=
  [⟨⟨(10 + ·), fun _ => 1⟩, .addLocker 1 ['R'] "simple".toList⟩,
    ⟨⟨(20 + ·), fun _ => 2⟩, .addLockerConn 1 2 false
      ⟨some "localhost".toList, .ex, none, none, none⟩⟩,
    ⟨⟨(30 + ·), fun _ => 3⟩, .moveLockerConn 2⟩,
    ⟨⟨(40 + ·), fun _ => 4⟩, .addIncubatorConn 3 "localhost".toList ['S'] "simple".toList⟩]

theorem allocates_sample : Allocates (ramTreeInit ⟨(2 + ·), fun _ => 0⟩) stepsSample :=
  ⟨fresh_above rfl (by decide), fresh_above rfl (by decide), fresh_above rfl (by decide),
    fresh_above rfl (by decide),
    trivial⟩

theorem kinded_sample : ∀ step ∈ stepsSample, step.call.Kinded fun uid => decide (uid = 1) := by
  simp [stepsSample, RamCall.Kinded, RamCall.forget, VfsCall.Kinded]

theorem ramTree_refines_sample :
    ramTreeRun (ramTreeInit ⟨(2 + ·), fun _ => 0⟩) stepsSample =
    ((ramDirsInit ⟨(2 + ·), fun _ => 0⟩).run stepsSample).tree ∧
      ((ramTreeRun (ramTreeInit ⟨(2 + ·), fun _ => 0⟩) stepsSample).keys RamNode.ino).Nodup ∧
      ((ramDirsInit ⟨(2 + ·), fun _ => 0⟩).run stepsSample).view = ⟨[3], [⟨1, [2], []⟩]⟩ :=
  ramTree_refines (add_right_injective 2) allocates_sample kinded_sample

end Flom
