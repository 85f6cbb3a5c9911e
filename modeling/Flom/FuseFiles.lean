import Flom.FuseMount

set_option autoImplicit false

namespace Flom

open NaryTree Paged Lists

def ConnDir.listing (dir : ConnDir) : List (FileName × Name) :=
  dir.files.map fun file => (file.name, file.content)

def LockerDir.Shows (conn : ConnId) (holder : Bool) (listing : List (FileName × Name))
    (dir : LockerDir) : Prop :=
  dir.side conn = holder ∧ ∃ inside, dir.find conn = some inside ∧ inside.listing = listing

def RamDirs.Shows (locker conn : ConnId) (holder : Bool) (listing : List (FileName × Name))
    (dirs : RamDirs) : Prop :=
  ∃ before dir after, dirs.lockers = before ++ dir :: after ∧ dir.is locker = true ∧
    (∀ other ∈ before, other.is locker = false) ∧
    (∀ other ∈ before ++ after, other.names conn = false) ∧
    dir.Shows conn holder listing

section

variable {conn conn' : ConnId} {env : RamEnv} {dir : LockerDir} {holder : Bool}
  {listing : List (FileName × Name)}

theorem is_other (other : conn' ≠ conn) {dir : ConnDir} (here : dir.is conn' = true) :
    dir.is conn = false := by
  simp only [ConnDir.is, decide_eq_true_eq, decide_eq_false_iff_not] at here ⊢
  rintro rfl
  exact other here.symm

theorem find_eraseP (other : conn' ≠ conn) (conns : List ConnDir) :
    (conns.eraseP (ConnDir.is conn')).find? (ConnDir.is conn) = conns.find? (ConnDir.is conn) := by
  induction conns with
  | nil => rfl
  | cons first rest ih =>
    cases here : first.is conn' with
    | true => rw [List.eraseP_cons_of_pos here, List.find?_cons, is_other other here]
    | false => rw [List.eraseP_cons_of_neg (by simp [here]), List.find?_cons, List.find?_cons, ih]

theorem find_updateFirst (other : conn' ≠ conn) (file : RamFile) (conns : List ConnDir) :
    (updateFirst (ConnDir.is conn') (ConnDir.addFile file) conns).find? (ConnDir.is conn) =
      conns.find? (ConnDir.is conn) := by
  induction conns with
  | nil => rfl
  | cons first rest ih =>
    rw [updateFirst]
    cases here : first.is conn' with
    | true =>
      rw [if_pos rfl, List.find?_cons, List.find?_cons, is_other other here,
        is_other other (show (ConnDir.addFile file first).is conn' = true from here)]
    | false => rw [if_neg Bool.false_ne_true, List.find?_cons, List.find?_cons, ih]

theorem find_append_other (other : conn' ≠ conn) (conns : List ConnDir) {last : ConnDir}
    (here : last.is conn' = true) :
    (conns ++ [last]).find? (ConnDir.is conn) = conns.find? (ConnDir.is conn) := by
  rw [List.find?_append, List.find?_cons, is_other other here, List.find?_nil, Option.or_none]

theorem side_find (dir : LockerDir) : dir.side conn =
    (dir.holders.find? (ConnDir.is conn)).isSome := by
  rw [LockerDir.side, Bool.eq_iff_iff, List.find?_isSome, List.any_eq_true]

theorem find_sides (dir : LockerDir) :
    dir.find conn = (dir.holders.find? (ConnDir.is conn)).or
      (dir.waitings.find? (ConnDir.is conn)) := List.find?_append

theorem shows_same {dir' : LockerDir}
    (holders : dir'.holders.find? (ConnDir.is conn) = dir.holders.find? (ConnDir.is conn))
    (waitings : dir'.waitings.find? (ConnDir.is conn) = dir.waitings.find? (ConnDir.is conn)) :
    (dir.Shows conn holder listing → dir'.Shows conn holder listing) ∧
    dir'.names conn = dir.names conn := by
  have found : dir'.find conn = dir.find conn := by rw [find_sides, find_sides, holders, waitings]
  constructor
  · rintro ⟨side, shown⟩
    rw [LockerDir.Shows, side_find, holders, ← side_find, found]
    exact ⟨side, shown⟩
  · rw [LockerDir.names, LockerDir.names, found]

theorem shows_addConn (other : conn' ≠ conn) (holder' : Bool) :
    (dir.Shows conn holder listing → (dir.addConn env conn' holder').Shows conn holder listing) ∧
      (dir.addConn env conn' holder').names conn = dir.names conn := by
  have last : ConnDir.is conn' { ramInode env 0 with uid := conn', files := [] } = true :=
    decide_eq_true rfl
  cases holder' with
  | true => exact shows_same (find_append_other other dir.holders last) rfl
  | false => exact shows_same rfl (find_append_other other dir.waitings last)

theorem shows_addFile_other (other : conn' ≠ conn) (file : RamFile) :
    (dir.Shows conn holder listing → (dir.addFile conn' file).Shows conn holder listing) ∧
      (dir.addFile conn' file).names conn = dir.names conn := by
  unfold LockerDir.addFile
  cases dir.side conn' with
  | true => exact shows_same (find_updateFirst other file dir.holders) rfl
  | false => exact shows_same rfl (find_updateFirst other file dir.waitings)

theorem shows_delConn (other : conn' ≠ conn) :
    (dir.Shows conn holder listing → (dir.delConn env conn').Shows conn holder listing) ∧
      (dir.delConn env conn').names conn = dir.names conn := by
  unfold LockerDir.delConn
  cases dir.side conn' with
  | true => exact shows_same (find_eraseP other dir.holders) rfl
  | false => exact shows_same rfl (find_eraseP other dir.waitings)

theorem shows_moveConn_other (other : conn' ≠ conn) :
    (dir.Shows conn holder listing → (dir.moveConn env conn').Shows conn holder listing) ∧
      (dir.moveConn env conn').names conn = dir.names conn := by
  unfold LockerDir.moveConn
  split_ifs
  · exact ⟨id, rfl⟩
  · cases found : dir.waitings.find? (ConnDir.is conn') with
    | none => exact ⟨id, rfl⟩
    | some inside =>
      have here : ConnDir.is conn' { inside with mtime := env.clock 2 } = true :=
        (List.find?_some found : inside.is conn' = true)
      exact shows_same (find_append_other other dir.holders here) (find_eraseP other dir.waitings)

theorem shows_moveConn (shows : dir.Shows conn holder listing) :
    (dir.moveConn env conn).Shows conn true listing := by
  obtain ⟨side, inside, found, shown⟩ := shows
  cases holder with
  | true => rw [LockerDir.moveConn, if_pos side]; exact ⟨side, inside, found, shown⟩
  | false =>
    have absent : dir.holders.find? (ConnDir.is conn) = none := by
      rw [side_find, Option.isSome_eq_false_iff, Option.isNone_iff_eq_none] at side
      exact side
    rw [find_sides, absent, Option.none_or] at found
    have here : ConnDir.is conn { inside with mtime := env.clock 2 } = true :=
        (List.find?_some found : inside.is conn = true)
    have held : (dir.holders ++ [{ inside with mtime := env.clock 2 }]).find? (ConnDir.is conn) =
        some { inside with mtime := env.clock 2 } := by
      rw [List.find?_append, absent, Option.none_or, List.find?_cons, here]
    rw [LockerDir.moveConn, side, if_neg Bool.false_ne_true, found]
    refine ⟨by rw [side_find]; exact congrArg Option.isSome held,
      { inside with mtime := env.clock 2 }, ?_, shown⟩
    rw [find_sides]
    exact congrArg (Option.or · _) held

theorem shows_addFile (shows : dir.Shows conn holder listing) (file : RamFile) :
    (dir.addFile conn file).Shows conn holder (listing ++ [(file.name, file.content)]) := by
  obtain ⟨side, inside, found, rfl⟩ := shows
  obtain ⟨front, behind, conns, mine, first⟩ := find_split found
  have updated := @updateFirst_split _ (ConnDir.is conn)
    (ConnDir.addFile file) front behind inside first mine
  have there : (front ++ inside.addFile file :: behind).find? (ConnDir.is conn) = some
      (inside.addFile file) := by
    rw [List.find?_append, List.find?_eq_none.mpr
      fun other member => by simp [first other member], Option.none_or,
      List.find?_cons, show (inside.addFile file).is conn = true from mine]
  have longer : (inside.addFile file).listing = inside.listing ++ [(file.name, file.content)] := by
    rw [ConnDir.listing, ConnDir.listing, ConnDir.addFile, List.map_append]
    rfl
  rw [LockerDir.addFile, conns, updated]
  cases holder with
  | true =>
    rw [side]
    refine ⟨by rw [side_find]; exact congrArg Option.isSome there, inside.addFile file, ?_, longer⟩
    rw [find_sides]
    exact congrArg (Option.or · _) there
  | false =>
    rw [side]
    refine ⟨side, inside.addFile file, ?_, longer⟩
    have absent : dir.holders.find? (ConnDir.is conn) = none := by
      rw [side_find, Option.isSome_eq_false_iff, Option.isNone_iff_eq_none] at side
      exact side
    rw [find_sides]
    exact (congrArg (Option.or · _) absent).trans there

end

def RamCall.Spares (locker conn : ConnId) : RamCall → Prop
  | .delLocker uid => uid ≠ locker
  | .addLockerConn _ other _ _ | .delConn other false => other ≠ conn
  | _ => True

def RamCall.moves (conn : ConnId) : RamCall → Bool
  | .moveLockerConn other => decide (other = conn)
  | _ => false

section

variable {locker conn : ConnId} {env : RamEnv} {dirs : RamDirs} {holder : Bool}
  {listing : List (FileName × Name)}

theorem updateFirst_pairs (chosen : LockerDir → Bool) (change : LockerDir → LockerDir)
    (lockers : List LockerDir) :
    List.Forall₂ (fun dir dir' => dir' = dir ∨ dir' = change dir) lockers
      (updateFirst chosen change lockers) := by
  induction lockers with
  | nil => exact .nil
  | cons first rest ih =>
    rw [updateFirst]
    split_ifs
    · exact .cons (.inr rfl) (List.forall₂_same.mpr fun _ _ => .inl rfl)
    · exact .cons (.inl rfl) ih

theorem shows_others (shows : dirs.Shows locker conn holder listing) (chosen : LockerDir → Bool)
    {change : LockerDir → LockerDir} (uid : ∀ dir, (change dir).uid = dir.uid)
    (keeps : ∀ dir : LockerDir,
      (dir.Shows conn holder listing → (change dir).Shows conn holder listing) ∧
      (change dir).names conn = dir.names conn) :
    (dirs.inLocker chosen change).Shows locker conn holder listing := by
  obtain ⟨before, dir, after, split, here, first, others, shown⟩ := shows
  have pairs := updateFirst_pairs chosen change dirs.lockers
  rw [split] at pairs
  obtain ⟨before', dir', after', changed, front, mine, behind⟩ := forall₂_split pairs
  have is {dir dir' : LockerDir} (pair : dir' = dir ∨ dir' = change dir) :
      dir'.is locker = dir.is locker := by
    obtain rfl | rfl := pair
    · rfl
    · rw [LockerDir.is, uid, LockerDir.is]
  have names {dir dir' : LockerDir} (pair : dir' = dir ∨ dir' = change dir) :
      dir'.names conn = dir.names conn := by
    obtain rfl | rfl := pair
    · rfl
    · exact (keeps dir).2
  have change' : (dirs.inLocker chosen change).lockers = before' ++ dir' :: after' := by
    rw [RamDirs.inLocker, split]
    exact changed
  refine ⟨before', dir', after', change', (is mine).trans here, fun other member => ?_,
    fun other member => ?_, ?_⟩
  · obtain ⟨earlier, inside, pair⟩ := forall₂_mem front member
    exact (is pair).trans (first earlier inside)
  · have sides : List.Forall₂ (fun dir dir' => dir' = dir ∨ dir' = change dir) (before ++ after)
        (before' ++ after') :=
      List.rel_append front behind
    obtain ⟨earlier, inside, pair⟩ := forall₂_mem sides member
    exact (names pair).trans (others earlier inside)
  · obtain rfl | rfl := mine
    · exact shown
    · exact (keeps dir).1 shown

theorem shows_own {before after : List LockerDir} {dir : LockerDir} {chosen : LockerDir → Bool}
    {change : LockerDir → LockerDir} {holder' : Bool}
    (split : dirs.lockers = before ++ dir :: after) (here : dir.is locker = true)
    (first : ∀ other ∈ before, other.is locker = false)
    (others : ∀ other ∈ before ++ after, other.names conn = false) (mine : chosen dir = true)
    (foreign : ∀ other ∈ before, chosen other = false) (uid : (change dir).uid = dir.uid)
    (shown : (change dir).Shows conn holder' listing) :
    (dirs.inLocker chosen change).Shows locker conn holder' listing := by
  refine ⟨before, change dir, after, ?_, ?_, first, others, shown⟩
  · rw [RamDirs.inLocker, split, updateFirst_split foreign mine]
  · rw [LockerDir.is, uid]
    exact here

theorem setConns_uid (dir : LockerDir) (holder : Bool) (inode : Inode) (conns : List ConnDir) :
    (dir.setConns holder inode conns).uid = dir.uid := by
  cases holder <;> rfl

theorem moveConn_uid (dir : LockerDir) : (dir.moveConn env conn).uid = dir.uid := by
  unfold LockerDir.moveConn
  split_ifs
  · rfl
  · split <;> rfl

theorem shows_addFile_own (shows : dirs.Shows locker conn holder listing) {locker' : ConnId}
    (listed : dirs.lists locker' conn = true) (file : RamFile) :
    locker' = locker ∧ (dirs.inLocker (LockerDir.is locker') (LockerDir.addFile conn file)).Shows
      locker conn holder
        (listing ++ [(file.name, file.content)]) := by
  obtain ⟨before, dir, after, split, here, first, others, shown⟩ := shows
  have own : dir.is locker' = true := by
    by_contra foreign
    rw [RamDirs.lists, split, List.find?_append, List.find?_cons, Bool.eq_false_iff.mpr foreign,
      ← List.find?_append,
      Option.any_eq_true] at listed
    obtain ⟨found, inside, named⟩ := listed
    rw [others found (List.mem_of_find?_eq_some inside)] at named
    exact Bool.false_ne_true named
  have same : locker' = locker := by
    simp only [LockerDir.is, decide_eq_true_eq] at here own
    exact own.symm.trans here
  subst same
  exact ⟨rfl, shows_own split here first others here first (setConns_uid dir _ _ _)
    (shows_addFile shown file)⟩

theorem shows_addFiles (shows : dirs.Shows locker conn holder listing) (locker' conn' : ConnId)
    (count : Nat) (files : List (FileName × Option Name)) :
    ∃ more, (dirs.addFiles env locker' conn' count files).Shows locker conn holder
      (listing ++ more) := by
  have stop : ∃ more, dirs.Shows locker conn holder (listing ++ more) :=
    ⟨[], (List.append_nil listing).symm ▸ shows⟩
  induction files generalizing dirs count listing with
  | nil => exact stop
  | cons file rest ih =>
    obtain ⟨name, content⟩ := file
    cases content with
    | none => exact stop
    | some content =>
      rw [RamDirs.addFiles]
      split_ifs with listed
      · by_cases other : conn' = conn
        · subst other
          have added := (shows_addFile_own shows listed (ramFile env count name content)).2
          obtain ⟨more, later⟩ := ih added (count + 1) ⟨[], (List.append_nil _).symm ▸ added⟩
          exact ⟨_, List.append_assoc _ _ _ ▸ later⟩
        · have kept := shows_others shows (LockerDir.is locker') (fun dir => setConns_uid dir _ _ _)
            fun dir => shows_addFile_other other (ramFile env count name content)
          exact ih kept (count + 1) ⟨[], (List.append_nil _).symm ▸ kept⟩
      · exact stop

theorem shows_lists (shows : dirs.Shows locker conn holder listing) :
    dirs.lists locker conn = true := by
  obtain ⟨before, dir, after, split, here, first, others, side, inside, found, _⟩ := shows
  rw [RamDirs.lists, split, List.find?_append,
    List.find?_eq_none.mpr fun other member => by simp [first other member],
    Option.none_or, List.find?_cons, here, Option.any_some, LockerDir.names, found,
    Option.isSome_some]

theorem shows_addFiles_own (shows : dirs.Shows locker conn holder listing) (count : Nat)
    (shown : List (FileName × Name)) :
    (dirs.addFiles env locker conn count (shown.map fun file => (file.1, some file.2))).Shows locker
      conn holder
        (listing ++ shown) := by
  induction shown generalizing dirs count listing with
  | nil => exact (List.append_nil listing).symm ▸ shows
  | cons file rest ih =>
    have added := (shows_addFile_own shows (shows_lists shows) (ramFile env count file.1 file.2)).2
    rw [List.map_cons, RamDirs.addFiles, if_pos (shows_lists shows), List.append_cons]
    exact ih added (count + 1)

theorem shows_call (shows : dirs.Shows locker conn holder listing) {call : RamCall}
    (spares : call.Spares locker conn) :
    ∃ more, (dirs.call env call).Shows locker conn (holder || call.moves conn)
      (listing ++ more) := by
  have none {dirs : RamDirs} {holder : Bool} (shows : dirs.Shows locker conn holder listing) :
      ∃ more, dirs.Shows locker conn holder (listing ++ more) :=
      ⟨[], (List.append_nil listing).symm ▸ shows⟩
  cases call with
  | addLocker uid resourceName resourceType =>
    obtain ⟨before, dir, after, split, here, first, others, shown⟩ := shows
    refine none ⟨before, dir, after ++ [lockerDirNew env uid resourceName resourceType], ?_, here,
      first, ?_, ?_⟩
    · rw [RamDirs.call, split, List.append_assoc, List.cons_append]
    · intro other member
      rw [← List.append_assoc] at member
      obtain old | new := List.mem_append.mp member
      · exact others other old
      · obtain rfl := List.mem_singleton.mp new
        rfl
    · exact (Bool.or_false holder).symm ▸ shown
  | delLocker uid =>
    obtain ⟨before, dir, after, split, here, first, others, shown⟩ := shows
    have foreign : dir.is uid = false := by
      simp only [LockerDir.is, decide_eq_true_eq, decide_eq_false_iff_not] at here ⊢
      exact fun same => spares (same.symm.trans here)
    have left : ∃ before' after',
      (before ++ dir :: after).eraseP (LockerDir.is uid) = before' ++ dir :: after' ∧
        before' ⊆ before ∧ after' ⊆ after := by
      by_cases inside : ∃ other ∈ before, other.is uid = true
      · obtain ⟨other, member, is⟩ := inside
        exact ⟨_, after, List.eraseP_append_left is _ member, List.eraseP_subset,
          List.Subset.refl _⟩
      · push Not at inside
        refine ⟨before, after.eraseP (LockerDir.is uid), ?_, List.Subset.refl _, List.eraseP_subset⟩
        rw [List.eraseP_append_right _ fun other member => by simpa using inside other member,
          List.eraseP_cons_of_neg (by simp [foreign])]
    obtain ⟨before', after', erased, front, behind⟩ := left
    refine none ⟨before', dir, after', ?_, here, fun other member => first other (front member),
      ?_, ?_⟩
    · rw [RamDirs.call, split]
      exact erased
    · intro other member
      obtain old | later := List.mem_append.mp member
      · exact others other (List.mem_append_left _ (front old))
      · exact others other (List.mem_append_right _ (behind later))
    · exact (Bool.or_false holder).symm ▸ shown
  | addLockerConn locker' conn' holder' listed =>
    simp only [RamCall.moves, Bool.or_false]
    rw [RamDirs.call]
    refine shows_addFiles ?_ locker' conn' 1 listed.files
    exact shows_others shows _ (fun dir => setConns_uid dir _ _ _) fun dir =>
      shows_addConn spares holder'
  | addLockerConnFile locker' conn' name content =>
    simp only [RamCall.moves, Bool.or_false]
    exact shows_addFiles shows locker' conn' 0 _
  | moveLockerConn conn' =>
    rw [RamCall.moves]
    by_cases other : conn' = conn
    · subst other
      obtain ⟨before, dir, after, split, here, first, others, shown⟩ := shows
      have named : dir.names conn' = true := by
        obtain ⟨_, inside, found, _⟩ := shown
        rw [LockerDir.names, found, Option.isSome_some]
      rw [decide_eq_true rfl, Bool.or_true]
      exact none (shows_own split here first others named
        (fun other member => others other (List.mem_append_left _ member)) (moveConn_uid dir)
          (shows_moveConn shown))
    · rw [decide_eq_false other, Bool.or_false]
      exact none <| shows_others shows _ moveConn_uid fun dir => shows_moveConn_other other
  | delConn conn' incubating =>
    simp only [RamCall.moves, Bool.or_false]
    cases incubating with
    | true =>
      rw [RamDirs.call]
      split_ifs <;> exact none shows
    | false =>
      exact none <| shows_others shows _ (fun dir => setConns_uid dir _ _ _) fun dir =>
      shows_delConn spares
  | addIncubatorConn conn' peerName resourceName resourceType =>
    simp only [RamCall.moves, Bool.or_false]
    exact none shows

theorem shows_run (shows : dirs.Shows locker conn holder listing) {steps : List RamStep}
    (spares : ∀ step ∈ steps, step.call.Spares locker conn) :
    ∃ more, (dirs.run steps).Shows locker conn
      (holder || steps.any fun step => step.call.moves conn)
        (listing ++ more) := by
  induction steps generalizing dirs holder listing with
  | nil => exact ⟨[], (List.append_nil listing).symm ▸ (Bool.or_false holder).symm ▸ shows⟩
  | cons step rest ih =>
    obtain ⟨here, later⟩ := List.forall_mem_cons.mp spares
    obtain ⟨first, served⟩ := @shows_call locker conn step.env dirs holder listing shows step.call
      here
    obtain ⟨more, run⟩ := ih served later
    rw [List.any_cons, ← Bool.or_assoc]
    exact ⟨first ++ more, List.append_assoc listing first more ▸ run⟩

theorem run_append_dirs (dirs : RamDirs) (first second : List RamStep) :
    dirs.run (first ++ second) = (dirs.run first).run second := List.foldl_append

theorem shows_new {present : ∃ dir ∈ dirs.view.lockers, dir.uid = locker}
    (new : ∀ dir ∈ dirs.view.lockers, dir.names conn = false) (listed : RamConn)
    {shown : List (FileName × Name)}
    (whole : listed.files = shown.map fun file => (file.1, some file.2)) :
    (dirs.call env (.addLockerConn locker conn holder listed)).Shows locker conn holder shown := by
  have unnamed : ∀ dir ∈ dirs.lockers, dir.names conn = false := fun dir member => by
    rw [view_names]
    exact new dir.view (List.mem_map_of_mem member)
  obtain ⟨view, member, uid⟩ := present
  obtain ⟨dir', inside, rfl⟩ := List.mem_map.mp member
  obtain ⟨dir, found⟩ := Option.isSome_iff_exists.mp
    (List.find?_isSome.mpr ⟨dir', inside, decide_eq_true uid⟩
      : (dirs.lockers.find? (LockerDir.is locker)).isSome)
  obtain ⟨here, before, after, split, others⟩ := List.find?_eq_some_iff_append.mp found
  have first : ∀ other ∈ before, other.is locker = false := fun other member => by
    simpa using others other member
  have rest : ∀ other ∈ before ++ after, other.names conn = false := fun other member =>
    unnamed other (split ▸ List.mem_append.mpr
      ((List.mem_append.mp member).imp_right (List.mem_cons_of_mem dir)))
  have absent : dir.holders.find? (ConnDir.is conn) = none ∧
      dir.waitings.find? (ConnDir.is conn) = none := by
    have none := unnamed dir (split ▸ List.mem_append_right before List.mem_cons_self)
    rw [LockerDir.names, find_sides, Option.isSome_eq_false_iff, Option.isNone_iff_eq_none,
      Option.or_eq_none_iff] at none
    exact none
  let added : ConnDir := { ramInode env 0 with uid := conn, files := [] }
  have last (conns : List ConnDir) (none : conns.find? (ConnDir.is conn) = none) :
      (conns ++ [added]).find? (ConnDir.is conn) = some added := by
    rw [List.find?_append, none, Option.none_or, List.find?_cons,
      show added.is conn = true from decide_eq_true rfl]
  have shows : (dir.addConn env conn holder).Shows conn holder [] := by
    cases holder with
    | true =>
      refine ⟨by rw [side_find]; exact congrArg Option.isSome (last dir.holders absent.1), added,
        ?_, rfl⟩
      rw [find_sides]
      exact congrArg (Option.or · _) (last dir.holders absent.1)
    | false =>
      refine ⟨by rw [side_find]; exact congrArg Option.isSome absent.1, added, ?_, rfl⟩
      rw [find_sides]
      exact (congrArg (Option.or · _) absent.1).trans (last dir.waitings absent.2)
  rw [RamDirs.call, whole]
  have uid : (dir.addConn env conn holder).uid = dir.uid := setConns_uid dir holder _ _
  exact shows_addFiles_own (shows_own split here first rest here first uid shows) 1 shown

theorem fileName_text_inj {first second : FileName} (same : first.text = second.text) :
    first = second := by
  revert same
  cases first <;> cases second <;> decide

theorem files_once (listed : RamConn) : (listed.files.map Prod.fst).Nodup := by
  have part {A : Type} (value : Option A) (name : FileName) (content : A → Option Name) :
      ((value.map fun value => (name, content value)).toList.map Prod.fst).Sublist [name] := by
    cases value <;> simp
  have mode : ((if listed.lockMode = lockModeInvalid then []
      else [(FileName.lockMode, lockModeLongString listed.lockMode)]).map Prod.fst).Sublist
          [.lockMode] := by
    split_ifs <;> simp
  refine List.Nodup.sublist ?_
    (show ([.peerName] ++ [.lockMode] ++ [.quantity] ++ [.sequenceValue] ++
    [.timestampValue] : List FileName).Nodup by decide)
  rw [RamConn.files]
  simp only [List.map_append]
  exact ((((part _ .peerName _).append mode).append (part _ .quantity _)).append
    (part _ .sequenceValue _)).append (part _ .timestampValue _)

theorem child_file {name : FileName} {content : Name} {dir : ConnDir}
    {shown more : List (FileName × Name)} (listing : dir.listing = shown ++ more)
    (once : (shown.map Prod.fst).Nodup) (member : (name, content) ∈ shown) :
    ∃ child, ramTreeFindChildByName dir.tree name.text = some child ∧
    child.data.content = some content := by
  obtain ⟨front, behind, rfl⟩ := List.append_of_mem member
  rw [ConnDir.listing, List.append_assoc, List.cons_append, List.map_eq_append_iff] at listing
  obtain ⟨earlier, rest, files, first, later⟩ := listing
  obtain ⟨file, others, rfl, here, _⟩ := List.map_eq_cons_iff.mp later
  have named : file.name = name := congrArg Prod.fst here
  have absent : ∀ other ∈ earlier.map RamFile.tree,
      ¬decide (other.data.name = name.text) = true := by
    intro tree inside
    obtain ⟨other, old, rfl⟩ := List.mem_map.mp inside
    have listed : other.name ∈ front.map Prod.fst := by
      rw [← first, List.map_map]
      exact List.mem_map_of_mem old
    rw [List.map_append, List.map_cons] at once
    have disjoint := List.disjoint_of_nodup_append once
    simp only [decide_eq_true_eq]
    intro same
    have equal : other.name = name := fileName_text_inj same
    exact disjoint (equal ▸ listed) List.mem_cons_self
  have holds : some file.content = some content := congrArg (fun file => some file.2) here
  refine ⟨file.tree, ?_, holds⟩
  rw [ramTreeFindChildByName, ConnDir.tree, NaryTree.children, files, List.map_append,
    List.map_cons, List.find?_append,
    List.find?_eq_none.mpr absent, Option.none_or, List.find?_cons,
    show decide (file.tree.data.name = name.text) = true from decide_eq_true
      (congrArg FileName.text named)]

theorem walk_file (shows : dirs.Shows locker conn holder listing) {name : FileName} {content : Name}
    {shown more : List (FileName × Name)} (parts : listing = shown ++ more)
    (once : (shown.map Prod.fst).Nodup) (member : (name, content) ∈ shown) :
    ∃ child, treeWalk dirs.tree [vfsStatusDirName, vfsLockersDirName, uidText locker,
      connsDirName holder, uidText conn,
      name.text] = some child ∧ child.data.content = some content := by
  obtain ⟨before, dir, after, split, here, first, others, side, inside, found, listing⟩ := shows
  have locker' : dirs.lockers.find? (LockerDir.is locker) = some dir := by
    rw [split, List.find?_append, List.find?_eq_none.mpr
      fun other member => by simp [first other member],
      Option.none_or, List.find?_cons, here]
  have there : (dir.conns holder).find? (ConnDir.is conn) = some inside := by
    obtain ⟨front, behind, conns, mine, first⟩ := find_split found
    rw [← side, conns, List.find?_append,
      List.find?_eq_none.mpr fun other member => by simp [first other member],
      Option.none_or, List.find?_cons, mine]
  obtain ⟨child, named, holds⟩ := child_file (listing.trans parts) once member
  refine ⟨child, ?_, holds⟩
  rw [walk_conns, locker', Option.bind_some, treeWalk, LockerDir.connsTree, child_conns, there,
    Option.map_some]
  dsimp only
  rw [treeWalk, named]
  rfl

theorem fuse_file {root found : GNode} {ino : Nat} {content : Name} (top : root.data.content = none)
    (here : ramTreeFind root (fusePointer ino) = some found)
    (holds : found.data.content = some content) :
    fuseOpen root ino 0 = .opened ∧ ∀ (sizes : Nat → Nat) (fuel : Nat), (∀ off, 0 < sizes off) →
    content.length < fuel →
      fuseCat root sizes fuel ino = some content := by
  have other : ¬vfsInoRootDir = ino := by
    rintro rfl
    obtain rfl := Option.some.inj here
    rw [top] at holds
    cases holds
  rw [fusePointer, if_neg other] at here
  constructor
  · rw [fuseOpen, if_neg other, here]
    dsimp only
    rw [RamNode.isDir, holds]
    rfl
  · intro sizes fuel positive enough
    refine collect_whole (fun off => ?_) positive enough
    rw [fuseRead, here]
    dsimp only
    rw [holds, Option.getD_some]
    exact replyBufLimited_window content off (sizes off)

theorem listed_file_read {kind : ConnId → Bool} {start : RamEnv} {before after : List RamStep}
    {listed : RamConn} (mountable : Mountable kind start
      (before ++ ⟨env, .addLockerConn locker conn holder listed⟩ :: after))
    (present : ∃ dir ∈ (vfsInit.run (before.flatMap fun step => step.call.forget)).lockers,
      dir.uid = locker)
    (new : ∀ dir ∈ (vfsInit.run (before.flatMap fun step => step.call.forget)).lockers,
      dir.names conn = false) (whole : ∀ file ∈ listed.files, file.2.isSome = true)
    (spares : ∀ step ∈ after, step.call.Spares locker conn) (values : FuseCommonValues)
    {name : FileName} {content : Name} (member : (name, some content) ∈ listed.files) :
    ∃ ino,
      fuseWalk values
        (ramTreeRun (ramTreeInit start)
          (before ++ ⟨env, .addLockerConn locker conn holder listed⟩ :: after)) vfsInoRootDir
        [vfsStatusDirName, vfsLockersDirName, uidText locker,
          connsDirName (holder || after.any fun step => step.call.moves conn), uidText conn,
          name.text] = some ino ∧
      fuseOpen (ramTreeRun (ramTreeInit start)
        (before ++ ⟨env, .addLockerConn locker conn holder listed⟩ :: after)) ino 0 =
        .opened ∧
      ∀ (sizes : Nat → Nat) (fuel : Nat), (∀ off, 0 < sizes off) → content.length < fuel →
        fuseCat (ramTreeRun (ramTreeInit start)
          (before ++ ⟨env, .addLockerConn locker conn holder listed⟩ :: after)) sizes
          fuel ino = some content := by
  obtain ⟨same, once, above⟩ := mountable.dirs
  let first := (ramDirsInit start).run before
  have view : first.view = vfsInit.run (before.flatMap fun step => step.call.forget) :=
    run_view (ramDirsInit start) before
  rw [← view] at present new
  have contents : listed.files = (listed.files.map fun file => (file.1, file.2.getD [])).map
      fun file => (file.1, some file.2) := by
    rw [List.map_map]
    refine ((List.map_congr_left fun file inside => ?_).trans (List.map_id listed.files)).symm
    obtain ⟨content, some⟩ := Option.isSome_iff_exists.mp (whole file inside)
    exact Prod.ext rfl (show Option.some (file.2.getD []) = file.2 by rw [some, Option.getD_some])
  have names : ((listed.files.map fun file => (file.1, file.2.getD [])).map Prod.fst).Nodup := by
    have once := files_once listed
    rwa [contents, List.map_map] at once
  have inside : (name, content) ∈ listed.files.map fun file => (file.1, file.2.getD []) :=
    List.mem_map.mpr ⟨(name, some content), member, rfl⟩
  have shows := @shows_new locker conn env first holder present new listed _ contents
  obtain ⟨more, run⟩ := shows_run shows spares
  have last : (ramDirsInit start).run
    (before ++ ⟨env, .addLockerConn locker conn holder listed⟩ :: after) =
      (first.call env (.addLockerConn locker conn holder listed)).run after :=
      run_append_dirs _ before _
  rw [last] at same once above
  rw [same]
  generalize (first.call env (.addLockerConn locker conn holder listed)).run after =
    dirs at run once above
  obtain ⟨child, walk, holds⟩ := walk_file run rfl names inside
  obtain ⟨ino, walked, here⟩ := fuseWalk_found values once above walk
  exact ⟨ino, walked, fuse_file rfl here holds⟩

end

theorem listed_file_read_sample :
    ∃ ino, fuseWalk ⟨0, 0⟩ (ramTreeRun (ramTreeInit ⟨(2 + ·), fun _ => 0⟩) stepsSample)
      vfsInoRootDir
          [vfsStatusDirName, vfsLockersDirName, ['1'], vfsLockersHoldersDirName, ['2'],
            vfsPeernameFileName] = some ino ∧
        fuseOpen (ramTreeRun (ramTreeInit ⟨(2 + ·), fun _ => 0⟩) stepsSample) ino 0 = .opened ∧
        fuseCat (ramTreeRun (ramTreeInit ⟨(2 + ·), fun _ => 0⟩) stepsSample) (fun _ => 4) 16 ino =
          some "localhost\n".toList := by
  obtain ⟨ino, walked, opened, read⟩ := @listed_file_read 1 2 ⟨(20 + ·), fun _ => 2⟩ false
    (fun uid => decide (uid = 1)) ⟨(2 + ·), fun _ => 0⟩ (stepsSample.take 1) (stepsSample.drop 2)
    ⟨some "localhost".toList, .ex, none, none, none⟩ mountable_sample (by decide) (by decide)
      (by decide)
    (by simp [stepsSample, RamCall.Spares]) ⟨0, 0⟩ .peerName "localhost\n".toList (by decide)
  exact ⟨ino, walked, opened, read (fun _ => 4) 16 (fun _ => by decide) (by decide)⟩

end Flom
