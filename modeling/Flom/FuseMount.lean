import Flom.FuseRead

set_option autoImplicit false

namespace Flom

open NaryTree Paged Lists

inductive VfsDir where
  | incubator
  | lockers
  | conns (locker : ConnId) (holder : Bool)
deriving DecidableEq, Repr

def VfsDir.path : VfsDir → List Name
  | .incubator => [vfsStatusDirName, vfsIncubatorDirName]
  | .lockers => [vfsStatusDirName, vfsLockersDirName]
  | .conns locker holder =>
    [vfsStatusDirName, vfsLockersDirName, uidText locker, connsDirName holder]

def VfsTree.listed (tree : VfsTree) : VfsDir → Option (List ConnId)
  | .incubator => some tree.incubator
  | .lockers => some (tree.lockers.map VfsLocker.uid)
  | .conns locker holder =>
    (tree.lockers.find? fun dir => dir.uid = locker).map fun dir =>
      if holder then dir.holders else dir.waitings

def treeWalk : GNode → List Name → Option GNode
  | tree, [] => some tree
  | tree, name :: rest =>
    match ramTreeFindChildByName tree name with
    | none => none
    | some child => treeWalk child rest

section

variable {values : FuseCommonValues} {root : GNode}

theorem fusePointer_above {ino : Nat} (above : 1 < ino) : fusePointer ino = some ino := by
  have other : vfsInoRootDir ≠ ino := Nat.ne_of_lt above
  rw [fusePointer, if_neg other, ramPointer, if_neg (by omega)]

theorem child_inside {tree child : GNode} (inside : tree ∈ root.preorder)
    (below : child ∈ tree.children) :
    child ∈ root.preorder := by
  obtain ⟨frames, rfl⟩ := exists_plug inside
  obtain ⟨data, children⟩ := tree
  obtain ⟨before, after, rfl⟩ := List.append_of_mem (show child ∈ children from below)
  exact mem_preorder_plug (⟨data, before, after⟩ :: frames) child

theorem fuseWalk_tree (once : (root.keys RamNode.ino).Nodup)
    (above : root.Holds RamNode.ino (1 < ·)) (path : List Name) {tree : GNode} {ino : Nat}
    (here : ramTreeFind root (fusePointer ino) = some tree) :
    match treeWalk tree path with
    | none => fuseWalk values root ino path = none
    | some found =>
    ∃ ino', fuseWalk values root ino path = some ino' ∧
    ramTreeFind root (fusePointer ino') = some found := by
  induction path generalizing tree ino with
  | nil => exact ⟨ino, rfl, here⟩
  | cons name rest ih =>
    rw [treeWalk, fuseWalk, fuseLookup, here]
    dsimp only
    cases named : ramTreeFindChildByName tree name with
    | none => rfl
    | some child =>
      have inside := child_inside (ramTreeFind_inside here) (List.mem_of_find?_eq_some named)
      refine ih ?_
      rw [fusePointer_above
        (above _ (List.mem_map_of_mem (f := fun node : GNode => node.data.ino) inside))]
      exact ramTreeFind_mem once inside

theorem fuseWalk_found (values : FuseCommonValues) (once : (root.keys RamNode.ino).Nodup)
    (above : root.Holds RamNode.ino (1 < ·)) {path : List Name} {found : GNode}
    (walk : treeWalk root path = some found) :
    ∃ ino, fuseWalk values root vfsInoRootDir path = some ino ∧
    ramTreeFind root (fusePointer ino) = some found := by
  have down := @fuseWalk_tree values root once above path root vfsInoRootDir rfl
  rwa [walk] at down

theorem child_conns (data : RamNode) (conns : List ConnDir) (uid : ConnId) :
    ramTreeFindChildByName (.node data (conns.map ConnDir.tree)) (uidText uid) =
      (conns.find? (ConnDir.is uid)).map ConnDir.tree := by
  have same :
      (fun dir : ConnDir => decide (dir.tree.data.name = uidText uid)) = ConnDir.is uid := by
    funext dir
    exact decide_eq_decide.mpr uidText_inj
  rw [ramTreeFindChildByName, NaryTree.children, List.find?_map, ← same]
  rfl

theorem child_lockers (dirs : RamDirs) (uid : ConnId) :
    ramTreeFindChildByName dirs.lockersTree (uidText uid) =
    (dirs.lockers.find? (LockerDir.is uid)).map LockerDir.tree := by
  have same :
      (fun dir : LockerDir => decide (dir.tree.data.name = uidText uid)) = LockerDir.is uid := by
    funext dir
    exact decide_eq_decide.mpr uidText_inj
  rw [ramTreeFindChildByName, RamDirs.lockersTree, NaryTree.children, List.find?_map, ← same]
  rfl

theorem child_connsDir (dir : LockerDir) (holder : Bool) :
    ramTreeFindChildByName dir.tree (connsDirName holder) = some (dir.connsTree holder) := by
  have fixed : fixedName (connsDirName holder) = true := by cases holder <;> decide
  have file (file : RamFile) : decide (file.tree.data.name = connsDirName holder) = false :=
    decide_eq_false (fixedName_file fixed file.name)
  rw [ramTreeFindChildByName, LockerDir.tree, NaryTree.children, List.find?_cons, file,
    List.find?_cons, file]
  cases holder <;> rfl

theorem walk_lockers (dirs : RamDirs) (rest : List Name) :
    treeWalk dirs.tree (vfsStatusDirName :: vfsLockersDirName :: rest) =
    treeWalk dirs.lockersTree rest := rfl

theorem walk_incubator (dirs : RamDirs) (rest : List Name) :
    treeWalk dirs.tree (vfsStatusDirName :: vfsIncubatorDirName :: rest) =
    treeWalk dirs.incubatorTree rest := rfl

theorem walk_conns (dirs : RamDirs) (locker : ConnId) (holder : Bool) (rest : List Name) :
    treeWalk dirs.tree (vfsStatusDirName :: vfsLockersDirName :: uidText locker ::
      connsDirName holder :: rest) =
      (dirs.lockers.find? (LockerDir.is locker)).bind fun dir =>
      treeWalk (dir.connsTree holder) rest := by
  rw [walk_lockers, treeWalk, child_lockers]
  cases dirs.lockers.find? (LockerDir.is locker) with
  | none => rfl
  | some dir =>
    rw [Option.map_some, Option.bind_some]
    dsimp only
    rw [treeWalk, child_connsDir]

theorem walk_listed (dirs : RamDirs) (dir : VfsDir) :
    match dirs.view.listed dir with
    | none => treeWalk dirs.tree dir.path = none
    | some uids => ∃ found, treeWalk dirs.tree dir.path = some found ∧ found.data.isDir = true ∧
        found.children.map (fun child => child.data.name) = uids.map uidText := by
  have conns (conns : List ConnDir) : (conns.map ConnDir.tree).map (fun child => child.data.name) =
      (conns.map ConnDir.uid).map uidText := by
    rw [List.map_map, List.map_map]
    rfl
  cases dir with
  | incubator => exact ⟨dirs.incubatorTree, walk_incubator dirs [], rfl, conns dirs.incubator⟩
  | lockers =>
    refine ⟨dirs.lockersTree, walk_lockers dirs [], rfl, ?_⟩
    rw [RamDirs.lockersTree, NaryTree.children, RamDirs.view, List.map_map, List.map_map,
      List.map_map]
    rfl
  | conns locker holder =>
    have view : (dirs.view.lockers.find? fun dir => dir.uid = locker) =
        (dirs.lockers.find? (LockerDir.is locker)).map LockerDir.view := by
      rw [RamDirs.view, List.find?_map]
      rfl
    rw [VfsTree.listed, view, VfsDir.path, walk_conns]
    cases dirs.lockers.find? (LockerDir.is locker) with
    | none => rfl
    | some dir =>
      refine ⟨dir.connsTree holder, rfl, rfl, ?_⟩
      cases holder
      · exact conns dir.waitings
      · exact conns dir.holders

end

/-- What the tree of the daemon relies on: malloc(3), also that it gives out no address that the
kernel has for the root, and that lockers and connections have their uids from one counter. -/
structure Mountable (kind : ConnId → Bool) (start : RamEnv) (steps : List RamStep) : Prop where
  apart : Function.Injective start.ino
  allocates : Allocates (ramTreeInit start) steps
  kinds : ∀ step ∈ steps, step.call.Kinded kind
  first : ∀ count, 1 < start.ino count
  later : ∀ step ∈ steps, ∀ count, 1 < step.env.ino count

theorem Mountable.dirs {kind : ConnId → Bool} {start : RamEnv} {steps : List RamStep}
    (mountable : Mountable kind start steps) :
    ramTreeRun (ramTreeInit start) steps = ((ramDirsInit start).run steps).tree ∧
    ((ramDirsInit start).run steps).Once ∧
      ((ramDirsInit start).run steps).tree.Holds RamNode.ino (1 < ·) := by
  obtain ⟨same, once⟩ := ramTreeRun_dirs (ramDirsInit_once mountable.apart)
    (ramDirsInit_kinded kind start) mountable.allocates mountable.kinds
  have above := ramTreeRun_holds mountable.later (ramTreeInit_holds mountable.first)
  have same' : ramTreeRun (ramTreeInit start) steps = ((ramDirsInit start).run steps).tree := same
  exact ⟨same', once, same' ▸ above⟩

theorem mounted_directory_listed {B : Type} {direntry : Direntry B} {kind : ConnId → Bool}
    {start : RamEnv} {steps : List RamStep} (sound : direntry.Sound)
    (mountable : Mountable kind start steps) (values : FuseCommonValues) (dir : VfsDir) :
    match (vfsInit.run (steps.flatMap fun step => step.call.forget)).listed dir with
    | none => fuseWalk values (ramTreeRun (ramTreeInit start) steps) vfsInoRootDir dir.path = none
    | some uids =>
      ∃ ino,
        fuseWalk values (ramTreeRun (ramTreeInit start) steps) vfsInoRootDir dir.path = some ino ∧
        ∀ (sizes : Nat → Nat) (fuel : Nat),
          (∀ name ∈ ['.'] :: ['.', '.'] :: uids.map uidText, ∀ inode off,
          direntry.size (name, inode) ≤ sizes off) →
          uids.length + 2 < fuel →
            (fuseList direntry (ramTreeRun (ramTreeInit start) steps) sizes fuel ino).map
              (·.map Prod.fst) =
              some (['.'] :: ['.', '.'] :: uids.map uidText) := by
  obtain ⟨same, once, above⟩ := mountable.dirs
  have walk := walk_listed ((ramDirsInit start).run steps) dir
  rw [run_view] at walk
  rw [same]
  change match (vfsInit.run (steps.flatMap fun step => step.call.forget)).listed dir with
    | none => _
    | some uids => _ at walk
  cases listed : (vfsInit.run (steps.flatMap fun step => step.call.forget)).listed dir with
  | none =>
    rw [listed] at walk
    have down := @fuseWalk_tree values _ once above dir.path _ vfsInoRootDir rfl
    rw [show treeWalk _ _ = none from walk] at down
    exact down
  | some uids =>
    rw [listed] at walk
    obtain ⟨found, reached, isDir, names⟩ := walk
    obtain ⟨ino, walked, here⟩ := fuseWalk_found values once above reached
    refine ⟨ino, walked, fun sizes fuel fits enough => ?_⟩
    have counted : found.children.length = uids.length := by
      have lengths := congrArg List.length names
      rwa [List.length_map, List.length_map] at lengths
    have entries (parent : Nat) : (dirEntries ino parent found.children).map Prod.fst =
        ['.'] :: ['.', '.'] :: uids.map uidText := by
      rw [dirEntries, List.map_cons, List.map_cons, List.map_map, ← names]
      rfl
    obtain ⟨parent, reads⟩ := @fuseList_whole B direntry _ found ino sound once here isDir sizes
      (fun parent entry member off => fits entry.1 (entries parent ▸ List.mem_map_of_mem member)
        entry.2 off) fuel
      (counted ▸ enough)
    rw [reads, Option.map_some, entries]

def littleEndian : Nat → Nat → List Nat
  | 0, value => [value]
  | more + 1, value => value % 256 :: littleEndian more (value / 256)

def fromLittleEndian (bytes : List Nat) : Nat := bytes.foldr (fun byte rest => byte + 256 * rest) 0

theorem fromLittleEndian_of (more value : Nat) :
    fromLittleEndian (littleEndian more value) = value := by
  induction more generalizing value with
  | zero => rfl
  | succ more ih =>
    have rest := ih (value / 256)
    rw [fromLittleEndian] at rest
    rw [littleEndian, fromLittleEndian, List.foldr_cons, rest]
    exact Nat.mod_add_div value 256

theorem littleEndian_length (more value : Nat) : (littleEndian more value).length = more + 1 := by
  induction more generalizing value with
  | zero => rfl
  | succ more ih => rw [littleEndian, List.length_cons, ih]

def direntSize (length : Nat) : Nat := (24 + length + 7) / 8 * 8

def direntSample : Direntry Nat where
  size entry := direntSize entry.1.length
  write entry next :=
    littleEndian 7 entry.2 ++
      (littleEndian 7 next ++ (littleEndian 3 entry.1.length ++
      (littleEndian 3 0 ++ (entry.1.map Char.toNat ++ List.replicate
      (direntSize entry.1.length - (24 + entry.1.length)) 0))))
  take bytes :=
    let length := fromLittleEndian ((bytes.drop 16).take 4)
    if bytes.length < 24 ∨ bytes.length < direntSize length then none
    else
      some ((((bytes.drop 24).take length).map Char.ofNat, fromLittleEndian (bytes.take 8)),
        fromLittleEndian ((bytes.drop 8).take 8), bytes.drop (direntSize length))

theorem drop_head {front : List Nat} {count : Nat} (length : front.length = count) (rest : List Nat)
    (more : Nat) :
    (front ++ rest).drop (count + more) = rest.drop more := by
  rw [← length, ← List.drop_drop, List.drop_left]

theorem direntSample_sound : direntSample.Sound := by
  have size (entry : Name × Nat) : 24 + entry.1.length ≤ direntSize entry.1.length := by
    unfold direntSize
    omega
  have length (entry : Name × Nat) (next : Nat) :
      (direntSample.write entry next).length = direntSize entry.1.length := by
    have fits := size entry
    simp only [direntSample, List.length_append, littleEndian_length, List.length_map,
      List.length_replicate]
    omega
  have named (entry : Name × Nat) (next : Nat) (rest : List Nat) :
      fromLittleEndian (((direntSample.write entry next ++ rest).drop 16).take 4) =
        entry.1.length := by
    simp only [direntSample, List.append_assoc]
    rw [drop_head (littleEndian_length 7 _) _ 8, drop_head (littleEndian_length 7 _) _ 0,
      List.drop_zero,
      List.take_left' (littleEndian_length 3 _), fromLittleEndian_of]
  refine ⟨fun entry => by have := size entry; exact Nat.lt_of_lt_of_le (by omega) this, length,
    ?_, ?_, ?_⟩
  · intro entry next rest
    have fits := size entry
    have whole := named entry next rest
    have enough : ¬((direntSample.write entry next ++ rest).length < 24 ∨
        (direntSample.write entry next ++ rest).length < direntSize entry.1.length) := by
      rw [List.length_append, length]
      omega
    have inode : fromLittleEndian ((direntSample.write entry next ++ rest).take 8) = entry.2 := by
      simp only [direntSample, List.append_assoc]
      rw [List.take_left' (littleEndian_length 7 _), fromLittleEndian_of]
    have offset :
        fromLittleEndian (((direntSample.write entry next ++ rest).drop 8).take 8) = next := by
      simp only [direntSample, List.append_assoc]
      rw [drop_head (littleEndian_length 7 _) _ 0, List.drop_zero,
        List.take_left' (littleEndian_length 7 _),
        fromLittleEndian_of]
    have name : (((direntSample.write entry next ++ rest).drop 24).take entry.1.length).map
        Char.ofNat = entry.1 := by
      simp only [direntSample, List.append_assoc]
      rw [drop_head (littleEndian_length 7 _) _ 16, drop_head (littleEndian_length 7 _) _ 8,
        drop_head (littleEndian_length 3 _) _ 4, drop_head (littleEndian_length 3 _) _ 0,
        List.drop_zero,
        List.take_left' (List.length_map _), List.map_map]
      exact (List.map_congr_left fun symbol _ => Char.ofNat_toNat symbol).trans (List.map_id _)
    change (if _ then none else _) = _
    rw [whole, if_neg enough, name, inode, offset, List.drop_left' (length entry next)]
  · intro entry next shown less
    have counted : ((direntSample.write entry next).take shown).length = shown := by
      rw [List.length_take, length]
      exact Nat.min_eq_left (Nat.le_of_lt less)
    change (if _ then none else _) = _
    by_cases header : shown < 24
    · rw [if_pos (.inl (counted.trans_lt header))]
    · have whole := named entry next []
      rw [List.append_nil] at whole
      have kept : (((direntSample.write entry next).take shown).drop 16).take 4 =
          ((direntSample.write entry next).drop 16).take 4 := by
        rw [List.drop_take, List.take_take, Nat.min_eq_left (by omega)]
      rw [kept, whole, if_pos (.inr (counted.trans_lt less))]
  · rfl

theorem mountable_sample : Mountable (fun uid => decide (uid = 1)) ⟨(2 + ·), fun _ => 0⟩ stepsSample
    where
  apart := add_right_injective 2
  allocates := allocates_sample
  kinds := kinded_sample
  first count := by
    change 1 < 2 + count
    omega
  later step member count := by
    have above : 10 ≤ step.env.ino 0 ∧ step.env.ino count = step.env.ino 0 + count := by
      simp only [stepsSample, List.mem_cons, List.not_mem_nil, or_false] at member
      rcases member with rfl | rfl | rfl | rfl <;> exact ⟨by decide, rfl⟩
    omega

theorem mounted_directory_listed_sample :
    ∃ ino, fuseWalk ⟨0, 0⟩ (ramTreeRun (ramTreeInit ⟨(2 + ·), fun _ => 0⟩) stepsSample) 1
        [vfsStatusDirName, vfsLockersDirName, ['1'], vfsLockersHoldersDirName] = some ino ∧
      (fuseList direntSample (ramTreeRun (ramTreeInit ⟨(2 + ·), fun _ => 0⟩) stepsSample)
        (fun _ => 32) 4 ino).map
        (·.map Prod.fst) = some [['.'], ['.', '.'], ['2']] := by
  obtain ⟨ino, walked, lists⟩ :=
    mounted_directory_listed direntSample_sound mountable_sample ⟨0, 0⟩ (.conns 1 true)
  refine ⟨ino, walked, lists (fun _ => 32) 4 (fun name member inode off => ?_) (by decide)⟩
  change direntSize name.length ≤ 32
  revert name
  decide

def growingSample (grown : Bool) : GNode :=
  ramTreeRun (ramTreeInit ⟨(2 + ·), fun _ => 0⟩)
    (stepsSample ++ if grown then [⟨⟨(50 + ·), fun _ => 5⟩, .addLocker 4 ['S'] "simple".toList⟩]
      else [])

def lockersSample (grown : Bool) : GNode :=
  ((growingSample grown).preorder.find? fun node => node.data.ino = 4).getD
  (growingSample grown)

theorem growing_directory_listed_sample :
    ∃ last, direntSample.readAll (fun off =>
          FuseReply.bytes (fuseReaddir direntSample (growingSample (decide (64 ≤ off))) 4 32 off))
            5 0 =
        some (dirEntries 4 3 (lockersSample (decide (64 ≤ last))).children) ∧
      last = direntSample.total (dirEntries 4 3 (lockersSample (decide (64 ≤ last))).children) := by
  refine @growing_directory_listed Nat direntSample 4 direntSample_sound
    (fun off => growingSample (decide (64 ≤ off)))
    (fun off => lockersSample (decide (64 ≤ off))) 3 5 (fun _ => 32)
    (dirEntries 4 3 (lockersSample true).children)
    (fun off => ?_) (fun off => ?_) (fun off => ?_) (fun off later before => ?_) (fun off => ?_)
    (fun entry member off => ?_) (by decide)
  · cases decide (64 ≤ off) <;> rfl
  · cases decide (64 ≤ off) <;> decide
  · cases decide (64 ≤ off) <;> decide
  · have monotone : decide (64 ≤ off) = true → decide (64 ≤ later) = true := by
      simp only [decide_eq_true_eq]
      omega
    revert monotone
    cases decide (64 ≤ off) <;> cases decide (64 ≤ later) <;> decide
  · cases decide (64 ≤ off) <;> decide
  · change direntSize entry.1.length ≤ 32
    revert entry
    decide

end Flom
