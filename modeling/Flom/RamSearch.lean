import Flom.Lib.Decimal
import Flom.RamDirs

set_option autoImplicit false

namespace Flom

open NaryTree

theorem uidText_inj {first second : ConnId} : uidText first = uidText second ↔ first = second :=
  ⟨fun same => Decimal.toDigits_inj same, fun same => same ▸ rfl⟩

theorem uidText_ne (uid : ConnId) {name : Name} (other : name.all Char.isDigit = false) :
    uidText uid ≠ name := by
  rintro rfl
  have digits : (uidText uid).all Char.isDigit = true :=
    List.all_eq_true.mpr fun _ member => Nat.isDigit_of_mem_toDigits (by decide) (by decide) member
  rw [digits] at other
  cases other

theorem fileName_ne_uid (file : FileName) (uid : ConnId) : file.text ≠ uidText uid :=
  (uidText_ne uid (by cases file <;> decide)).symm

def fixedName (name : Name) : Bool :=
  !name.all Char.isDigit && [FileName.peerName, .resourceName, .resourceType, .lockMode, .quantity,
    .sequenceValue,
    .timestampValue].all fun file => decide (file.text ≠ name)

theorem fixedName_file {name : Name} (fixed : fixedName name = true) (file : FileName) :
    file.text ≠ name := by
  simp only [fixedName, Bool.and_eq_true, List.all_eq_true, decide_eq_true_eq] at fixed
  exact fixed.2 file (by cases file <;> decide)

theorem fixedName_uid {name : Name} (fixed : fixedName name = true) (uid : ConnId) :
    uidText uid ≠ name := by
  refine uidText_ne uid ?_
  simp only [fixedName, Bool.and_eq_true, Bool.not_eq_true'] at fixed
  exact fixed.1

@[simp] theorem dir_name (inode : Inode) (name : Name) : (inode.dir name).name = name := rfl

@[simp] theorem dir_ino (inode : Inode) (name : Name) : (inode.dir name).ino = inode.ino := rfl

@[simp] theorem file_name (file : RamFile) : file.node.name = file.name.text := rfl

theorem find_node (data : RamNode) (children : List GNode) (name : Name) :
    ramTreeFindNodeByName (.node data children) name =
      if data.name = name then some (.node data children)
      else children.findSome? fun child => ramTreeFindNodeByName child name := by
  unfold ramTreeFindNodeByName
  rw [preorder, preorderAll_eq]
  by_cases here : data.name = name
  · rw [if_pos here]
    exact List.find?_cons_of_pos (decide_eq_true here)
  · have other : ¬decide ((NaryTree.node data children).data.name = name) = true := by
      rw [decide_eq_true_eq]
      exact here
    rw [if_neg here, List.find?_cons_of_neg
      (p := fun node : GNode => decide (node.data.name = name)) other,
      List.find?_flatMap]

section

variable {name : Name}

theorem find_file (file : RamFile) (other : file.name.text ≠ name) :
    ramTreeFindNodeByName file.tree name = none := by
  rw [RamFile.tree, leaf, find_node, file_name, if_neg other]
  rfl

theorem find_files {files : List RamFile} (other : ∀ file : FileName, file.text ≠ name) :
    (files.map RamFile.tree).findSome? (fun child => ramTreeFindNodeByName child name) = none := by
  rw [List.findSome?_eq_none_iff]
  intro tree member
  obtain ⟨file, _, rfl⟩ := List.mem_map.mp member
  exact find_file file (other file.name)

theorem find_conn (dir : ConnDir) (uid : ConnId) :
    ramTreeFindNodeByName dir.tree (uidText uid) = if dir.is uid then some dir.tree else none := by
  rw [ConnDir.tree, find_node, find_files fun file => fileName_ne_uid file uid]
  simp [uidText_inj, ConnDir.is]

theorem find_conn_fixed (dir : ConnDir) (fixed : fixedName name = true) :
    ramTreeFindNodeByName dir.tree name = none := by
  rw [ConnDir.tree, find_node, find_files (fixedName_file fixed), dir_name,
    if_neg (fixedName_uid fixed dir.uid)]

theorem find_conns (conns : List ConnDir) (uid : ConnId) :
    (conns.map ConnDir.tree).findSome? (fun child => ramTreeFindNodeByName child (uidText uid)) =
      (conns.find? (ConnDir.is uid)).map ConnDir.tree := by
  induction conns with
  | nil => rfl
  | cons first rest ih =>
    rw [List.map_cons, List.findSome?_cons, find_conn, List.find?_cons]
    cases first.is uid with
    | true => rfl
    | false => exact ih

theorem find_conns_fixed {conns : List ConnDir} (fixed : fixedName name = true) :
    (conns.map ConnDir.tree).findSome? (fun child => ramTreeFindNodeByName child name) = none := by
  rw [List.findSome?_eq_none_iff]
  intro tree member
  obtain ⟨dir, _, rfl⟩ := List.mem_map.mp member
  exact find_conn_fixed dir fixed

theorem find_incubator (dirs : RamDirs) (uid : ConnId) :
    ramTreeFindNodeByName dirs.incubatorTree (uidText uid) =
    (dirs.incubator.find? (ConnDir.is uid)).map ConnDir.tree := by
  rw [RamDirs.incubatorTree, find_node, dir_name, if_neg (uidText_ne uid (by decide)).symm,
    find_conns]

theorem find_locker (dir : LockerDir) (uid : ConnId) :
    ramTreeFindNodeByName dir.tree (uidText uid) =
      if dir.is uid then some dir.tree else (dir.find uid).map ConnDir.tree := by
  have fixed (holder : Bool) : connsDirName holder ≠ uidText uid :=
    (uidText_ne uid (by cases holder <;> decide)).symm
  rw [LockerDir.tree, find_node]
  simp only [List.findSome?_cons, List.findSome?_nil, find_file _ (fileName_ne_uid _ uid),
    LockerDir.connsTree,
    find_node, dir_name, uidText_inj, LockerDir.is, find_conns, LockerDir.find, List.find?_append,
    decide_eq_true_eq,
    if_neg (fixed _), LockerDir.conns, if_true, Bool.false_eq_true, if_false]
  cases dir.holders.find? (ConnDir.is uid) <;> cases dir.waitings.find? (ConnDir.is uid) <;> rfl

theorem find_connsDir (dir : LockerDir) (holder : Bool) :
    ramTreeFindNodeByName dir.tree (connsDirName holder) = some (dir.connsTree holder) := by
  have fixed : fixedName (connsDirName holder) = true := by cases holder <;> decide
  rw [LockerDir.tree, find_node, dir_name, if_neg (fixedName_uid fixed dir.uid)]
  simp only [List.findSome?_cons, find_file _ (fixedName_file fixed _), LockerDir.connsTree,
    find_node, dir_name,
    find_conns_fixed fixed]
  cases holder <;> rfl

theorem find_incubatorDir (dirs : RamDirs) :
    ramTreeFindNodeByName dirs.tree vfsIncubatorDirName = some dirs.incubatorTree := by
  have root : vfsRootDirName ≠ vfsIncubatorDirName := by decide
  have status : vfsStatusDirName ≠ vfsIncubatorDirName := by decide
  simp only [RamDirs.tree, find_node, dir_name, if_neg root, if_neg status, List.findSome?_cons,
    RamDirs.incubatorTree, if_pos]

theorem find_lockersDir (dirs : RamDirs) :
    ramTreeFindNodeByName dirs.tree vfsLockersDirName = some dirs.lockersTree := by
  have root : vfsRootDirName ≠ vfsLockersDirName := by decide
  have status : vfsStatusDirName ≠ vfsLockersDirName := by decide
  have incubator : vfsIncubatorDirName ≠ vfsLockersDirName := by decide
  have fixed : fixedName vfsLockersDirName = true := by decide
  simp only [RamDirs.tree, find_node, dir_name, if_neg root, if_neg status, List.findSome?_cons,
    RamDirs.incubatorTree, if_neg incubator, find_conns_fixed fixed, RamDirs.lockersTree, if_pos]

theorem find_lockers (dirs : RamDirs) (uid : ConnId) :
    ramTreeFindNodeByName dirs.lockersTree (uidText uid) =
      dirs.lockers.findSome? fun dir => if dir.is uid then some dir.tree else (dir.find uid).map
        ConnDir.tree := by
  rw [RamDirs.lockersTree, find_node, dir_name, if_neg (uidText_ne uid (by decide)).symm,
    List.findSome?_map]
  simp only [Function.comp_def, find_locker]

end

end Flom
