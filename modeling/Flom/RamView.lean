import Flom.RamDirs

set_option autoImplicit false

namespace Flom

open Lists

def LockerDir.view (dir : LockerDir) : VfsLocker :=
  ⟨dir.uid, dir.holders.map ConnDir.uid, dir.waitings.map ConnDir.uid⟩

def RamDirs.view (dirs : RamDirs) : VfsTree :=
  ⟨dirs.incubator.map ConnDir.uid, dirs.lockers.map LockerDir.view⟩

def RamCall.forget : RamCall → List VfsCall
  | .addLocker uid _ _ => [.addLocker uid]
  | .delLocker uid => [.delLocker uid]
  | .addLockerConn locker conn holder _ => [.addLockerConn locker conn holder]
  | .addLockerConnFile _ _ _ _ => []
  | .moveLockerConn conn => [.moveLockerConn conn]
  | .delConn conn incubating => [.delConn conn incubating]
  | .addIncubatorConn conn _ _ _ => [.addIncubatorConn conn]

theorem vfsUpdate_eq (found : VfsLocker → Bool) (change : VfsLocker → VfsLocker)
    (dirs : List VfsLocker) :
    vfsUpdate found change dirs = updateFirst found change dirs := by
  induction dirs with
  | nil => rfl
  | cons first rest ih => rw [vfsUpdate, updateFirst, ih]

theorem any_is (conns : List ConnDir) (conn : ConnId) :
    conns.any (ConnDir.is conn) = decide (conn ∈ conns.map ConnDir.uid) := by
  rw [Bool.eq_iff_iff]
  simp [ConnDir.is]

theorem eraseP_uid (conns : List ConnDir) (conn : ConnId) :
    (conns.eraseP (ConnDir.is conn)).map ConnDir.uid = (conns.map ConnDir.uid).erase conn := by
  rw [List.erase_eq_eraseP', List.eraseP_map]
  congr 2

section

variable {dir : LockerDir} {env : RamEnv} {conn : ConnId}

theorem view_addConn (holder : Bool) :
    (dir.addConn env conn holder).view = dir.view.addConn conn holder := by
  cases holder <;> simp [LockerDir.addConn, LockerDir.setConns, LockerDir.view, LockerDir.conns,
    VfsLocker.addConn]

theorem view_addFile (file : RamFile) : (dir.addFile conn file).view = dir.view := by
  have same (conns : List ConnDir) :
      (updateFirst (ConnDir.is conn) (ConnDir.addFile file) conns).map ConnDir.uid =
        conns.map ConnDir.uid :=
    map_updateFirst_same (fun dir => (rfl : (ConnDir.addFile file dir).uid = dir.uid)) conns
  unfold LockerDir.addFile
  cases dir.side conn <;> simp [LockerDir.setConns, LockerDir.conns, LockerDir.view, same]

theorem view_side : dir.side conn = decide (conn ∈ dir.view.holders) := any_is dir.holders conn

theorem view_delConn : (dir.delConn env conn).view = dir.view.delConn conn := by
  rw [LockerDir.delConn, VfsLocker.delConn]
  cases held : dir.side conn with
  | true =>
    rw [if_pos (of_decide_eq_true (view_side ▸ held))]
    simp [LockerDir.setConns, LockerDir.conns, LockerDir.view, eraseP_uid]
  | false =>
    rw [if_neg (of_decide_eq_false (view_side ▸ held))]
    simp [LockerDir.setConns, LockerDir.conns, LockerDir.view, eraseP_uid]

theorem view_moveConn : (dir.moveConn env conn).view = dir.view.moveConn conn := by
  rw [LockerDir.moveConn, VfsLocker.moveConn]
  cases held : dir.side conn with
  | true => rw [if_pos rfl, if_pos (of_decide_eq_true (view_side ▸ held))]
  | false =>
    rw [if_neg Bool.false_ne_true, if_neg (of_decide_eq_false (view_side ▸ held))]
    cases found : dir.waitings.find? (ConnDir.is conn) with
    | none =>
      have absent : conn ∉ dir.view.waitings := by
        have none := List.find?_eq_none.mp found
        simpa [ConnDir.is, LockerDir.view] using none
      rw [if_neg absent]
    | some inside =>
      have mine : inside.uid = conn := of_decide_eq_true
        (show inside.is conn = true from List.find?_some found)
      have queued : conn ∈ dir.view.waitings :=
        List.mem_map.mpr ⟨inside, List.mem_of_find?_eq_some found, mine⟩
      rw [if_pos queued]
      simp [LockerDir.view, eraseP_uid, mine]

theorem view_names : dir.names conn = dir.view.names conn := by
  rw [LockerDir.names, LockerDir.find, VfsLocker.names, Bool.eq_iff_iff]
  simp [ConnDir.is, LockerDir.view]

end

theorem view_inLocker {chosen : LockerDir → Bool} {chosen' : VfsLocker → Bool}
    {change : LockerDir → LockerDir} {change' : VfsLocker → VfsLocker}
    (amounts : ∀ dir, chosen' dir.view = chosen dir)
    (follows : ∀ dir, (change dir).view = change' dir.view) (dirs : RamDirs) :
    (dirs.inLocker chosen change).view =
    { dirs.view with lockers := vfsUpdate chosen' change' dirs.view.lockers } := by
  rw [RamDirs.inLocker, RamDirs.view, map_updateFirst amounts follows, ← vfsUpdate_eq]
  rfl

theorem view_addFiles (env : RamEnv) (locker conn : ConnId) (count : Nat)
    (files : List (FileName × Option Name)) (dirs : RamDirs) :
    (dirs.addFiles env locker conn count files).view = dirs.view := by
  induction files generalizing count dirs with
  | nil => rfl
  | cons file rest ih =>
    obtain ⟨name, content⟩ := file
    cases content with
    | none => rfl
    | some content =>
      rw [RamDirs.addFiles]
      split_ifs
      · rw [ih, RamDirs.inLocker, RamDirs.view, map_updateFirst_same fun dir => view_addFile _]
        rfl
      · rfl

theorem view_call (env : RamEnv) (dirs : RamDirs) (call : RamCall) :
    (dirs.call env call).view = dirs.view.run call.forget := by
  cases call with
  | addLocker uid resourceName resourceType =>
    simp [RamDirs.call, RamDirs.view, RamCall.forget, VfsTree.run, VfsTree.call, LockerDir.view,
      lockerDirNew]
  | delLocker uid =>
    simp only [RamDirs.call, RamDirs.view, RamCall.forget, VfsTree.run, VfsTree.call,
      List.foldl_cons, List.foldl_nil,
      List.eraseP_map]
    rfl
  | addLockerConn locker conn holder listed =>
    rw [RamDirs.call, view_addFiles]
    exact @view_inLocker (LockerDir.is locker) (fun dir => dir.uid = locker)
      (LockerDir.addConn env conn holder) (·.addConn conn holder) (fun _ => rfl)
      (fun dir => view_addConn holder) dirs
  | addLockerConnFile locker conn name content => exact view_addFiles env locker conn 0 _ dirs
  | moveLockerConn conn =>
    exact view_inLocker (fun _ => view_names.symm) (fun dir => @view_moveConn dir env conn) dirs
  | delConn conn incubating =>
    cases incubating with
    | true =>
      simp only [RamDirs.call]
      split_ifs with listed
      · simp [RamDirs.view, RamCall.forget, VfsTree.run, VfsTree.call, eraseP_uid]
      · have absent : conn ∉ dirs.view.incubator := by simpa [any_is, RamDirs.view] using listed
        simp [RamCall.forget, VfsTree.run, VfsTree.call, List.erase_of_not_mem absent]
    | false =>
      exact view_inLocker (fun _ => view_names.symm) (fun dir => @view_delConn dir env conn) dirs
  | addIncubatorConn conn peerName resourceName resourceType =>
    simp [RamDirs.call, RamDirs.view, RamCall.forget, VfsTree.run, VfsTree.call, incubatorDirNew]

/-- Lockers and connections have their uids from one counter: no uid is both. -/
structure VfsTree.Kinded (kind : ConnId → Bool) (tree : VfsTree) : Prop where
  lockers : ∀ dir ∈ tree.lockers, kind dir.uid = true
  conns : ∀ dir ∈ tree.lockers, ∀ conn ∈ dir.holders ++ dir.waitings, kind conn = false

def VfsCall.Kinded (kind : ConnId → Bool) : VfsCall → Prop
  | .addLocker uid | .delLocker uid => kind uid = true
  | .addLockerConn locker conn _ => kind locker = true ∧ kind conn = false
  | .moveLockerConn conn | .delConn conn false => kind conn = false
  | .delConn _ true | .addIncubatorConn _ => True

def RamCall.Kinded (kind : ConnId → Bool) : RamCall → Prop
  | .addLockerConnFile locker conn _ _ => kind locker = true ∧ kind conn = false
  | call => ∀ plain ∈ call.forget, plain.Kinded kind

section

variable {kind : ConnId → Bool} {tree : VfsTree}

theorem kinded_update (kinded : tree.Kinded kind) {found : VfsLocker → Bool}
    {change : VfsLocker → VfsLocker} {conn : ConnId} (other : kind conn = false)
    (uid : ∀ dir, (change dir).uid = dir.uid)
    (names : ∀ dir, (change dir).holders ++ (change dir).waitings ⊆ conn ::
      (dir.holders ++ dir.waitings)) :
    VfsTree.Kinded kind { tree with lockers := vfsUpdate found change tree.lockers } := by
  have member {dir : VfsLocker} (inside : dir ∈ vfsUpdate found change tree.lockers) :
      ∃ before ∈ tree.lockers, dir.uid = before.uid ∧
        dir.holders ++ dir.waitings ⊆ conn :: (before.holders ++ before.waitings) := by
    rw [vfsUpdate_eq] at inside
    obtain old | ⟨before, old, rfl⟩ := mem_updateFirst inside
    · exact ⟨dir, old, rfl, List.subset_cons_self _ _⟩
    · exact ⟨before, old, uid before, names before⟩
  constructor
  · intro dir inside
    obtain ⟨before, old, same, _⟩ := member inside
    exact same ▸ kinded.lockers before old
  · intro dir inside listed names
    obtain ⟨before, old, _, within⟩ := member inside
    obtain rfl | earlier := List.mem_cons.mp (within names)
    · exact other
    · exact kinded.conns before old listed earlier

theorem kinded_call (kinded : tree.Kinded kind) {call : VfsCall} (kinds : call.Kinded kind) :
    (tree.call call).Kinded kind := by
  have known (dir : VfsLocker) (conn : ConnId) :
      dir.holders ++ dir.waitings ⊆ conn :: (dir.holders ++ dir.waitings) :=
      List.subset_cons_self _ _
  cases call with
  | addLocker uid =>
    constructor
    · intro dir inside
      obtain old | new := List.mem_append.mp inside
      · exact kinded.lockers dir old
      · obtain rfl := List.mem_singleton.mp new
        exact kinds
    · intro dir inside conn listed
      obtain old | new := List.mem_append.mp inside
      · exact kinded.conns dir old conn listed
      · obtain rfl := List.mem_singleton.mp new
        cases listed
  | delLocker uid =>
    have shorter : tree.lockers.eraseP (fun dir => dir.uid = uid) ⊆ tree.lockers :=
      List.eraseP_subset
    exact ⟨fun dir inside => kinded.lockers dir (shorter inside), fun dir inside =>
      kinded.conns dir (shorter inside)⟩
  | addLockerConn locker conn holder =>
    refine kinded_update kinded kinds.2 (fun dir => ?_) fun dir => ?_
    · unfold VfsLocker.addConn
      split_ifs <;> rfl
    · have names := @dir_call_names dir (conn :: (dir.holders ++ dir.waitings))
        (.addLockerConn dir.uid conn holder) ⟨rfl, List.mem_cons_self⟩ (known dir conn)
      simpa [VfsLocker.call] using names
  | moveLockerConn conn =>
    refine kinded_update kinded kinds (fun dir => dir_call_uid dir (.moveLockerConn conn))
      fun dir => ?_
    exact @dir_call_names dir _ (.moveLockerConn conn) List.mem_cons_self (known dir conn)
  | delConn conn incubating =>
    cases incubating with
    | true => exact ⟨kinded.lockers, kinded.conns⟩
    | false =>
      refine kinded_update kinded kinds (fun dir => dir_call_uid dir (.delConn conn false))
        fun dir => ?_
      exact @dir_call_names dir _ (.delConn conn false) List.mem_cons_self (known dir conn)
  | addIncubatorConn conn => exact ⟨kinded.lockers, kinded.conns⟩

theorem kinded_run (kinded : tree.Kinded kind) {calls : List VfsCall}
    (kinds : ∀ call ∈ calls, call.Kinded kind) :
    (tree.run calls).Kinded kind := by
  induction calls generalizing tree with
  | nil => exact kinded
  | cons call rest ih =>
    exact ih (kinded_call kinded (kinds call List.mem_cons_self)) fun later member =>
      kinds later (List.mem_cons_of_mem call member)

end

theorem forget_kinded {kind : ConnId → Bool} {call : RamCall} (kinds : call.Kinded kind) :
    ∀ plain ∈ call.forget, plain.Kinded kind := by
  cases call with
  | addLockerConnFile => simp [RamCall.forget]
  | _ => exact kinds

end Flom
