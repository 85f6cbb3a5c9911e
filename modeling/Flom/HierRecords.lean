import Flom.HierUnlock

set_option autoImplicit false

namespace Flom

open Scan

structure HierRecord where
  id : Nat
  wait : HierWait
deriving DecidableEq, Repr

structure HierRecords where
  root : Rose Name HierRecord
  deleted : List Nat
  made : Nat

abbrev HierRecordRsrc := Rsrc HierRecords HierRecord

def HierRecord.lock (deleted : List Nat) (cl : HierRecord) : HierLock :=
  ⟨cl.wait.conn, cl.wait.mode, decide (cl.id ∈ deleted)⟩

def HierRecords.seen (data : HierRecords) : HierData :=
  ⟨data.root.map (HierRecord.lock data.deleted)⟩

def recordsAddLocker (data : HierRecords) (cl : HierRecord) (path : List Name) : HierRecords :=
  let reached := hierReach path data.seen.root
  { data with root := data.root.update (Rose.attach cl reached.2) reached.1 }

def recordsDelete (data : HierRecords) (ids : List Nat) : HierRecords :=
  { data with deleted := ids ++ data.deleted }

def recordsMine (conn : ConnId) (cl : HierRecord) : Bool := cl.wait.conn = conn

def recordsRelease (name : Name) (data : HierRecords) (conn : ConnId) : Option HierRecords :=
  let address := hierLocate (hierLevels name) data.seen.root
  ((data.root.subtree address).bind fun node => node.items.find? (recordsMine conn)).map fun cl =>
    recordsDelete
      { data with root := data.root.update (Rose.removeFirst (recordsMine conn)) address } [cl.id]

def recordsManager (name : Name) : Manager HierRecords HierRecord ConnId where
  can data cl := resourceHierCanLock data.seen.root cl.wait.mode (hierLevels cl.wait.name)
  skip data _ := data
  take data cl := recordsAddLocker data cl (hierLevels cl.wait.name)
  -- cl is still set when the send fails: the cleanup block deletes the record it has just linked.
  fail data cl := recordsDelete (recordsAddLocker data cl (hierLevels cl.wait.name)) [cl.id]
  conn cl := cl.wait.conn
  release := recordsRelease name

def recordsClean (rsrc : HierRecordRsrc) (conn : ConnId) (sends : List Rc) :
    Cleaned HierRecords HierRecord :=
  let cleaned := rsrcClean (recordsManager rsrc.name) rsrc conn sends
  let withdrawn := if (recordsRelease rsrc.name rsrc.data conn).isSome then []
    else (rsrc.waitings.find? (recordsMine conn)).toList.map HierRecord.id
  let data := recordsDelete cleaned.rsrc.data withdrawn
  { cleaned with
    rsrc := { cleaned.rsrc with
      data := if cleaned.rc = .ok then { data with root := data.root.prune } else data } }

def recordsCompareName (rsrc : HierRecordRsrc) (name : Name) : Bool :=
  name.head? = some hierResourceSeparator && (hierLevels name).head? = some rsrc.data.root.label

def recordsInmsg (rsrc : HierRecordRsrc) (conn : ConnId) (lastStep : Int) (msg : Msg)
    (sends : List Rc) :
    Inmsg HierRecords HierRecord :=
  match msg.verb with
  | .lock =>
    match msg.lock8.name with
    | some name =>
      let out := rsrcLock (recordsManager rsrc.name)
        ⟨⟨rsrc.data.made, ⟨conn, msg.lock8.mode, name⟩⟩, msg.lock8.wait ≠ 0, .lockBusy, fun _ =>
          none⟩
        rsrc lastStep msg
      { out with rsrc := { out.rsrc with
        data := { out.rsrc.data with made := rsrc.data.made + 1 } } }
    | none => inmsgError .crash rsrc msg
  | .unlock =>
    match msg.unlock8.name with
    | some name =>
      if recordsCompareName rsrc name then
        inmsgOfCleaned (recordsClean { rsrc with name := name } conn sends) msg
      else inmsgError .invalidResourceName rsrc msg
    | none => inmsgError .crash rsrc msg
  | _ => inmsgError .protocolError rsrc msg

def recordsStep (rsrc : HierRecordRsrc) : Call → HierRecordRsrc
  | .inmsg conn lastStep msg env => (recordsInmsg rsrc conn lastStep msg env.sends).rsrc
  | .clean conn env => (recordsClean rsrc conn env.sends).rsrc

def recordsInit (name : Name) : Except Rc HierRecordRsrc :=
  match name with
  | [] => .error .invalidResourceName
  | first :: _ =>
    if first = hierResourceSeparator then
      match hierLevels name with
      | [] => .error .crash
      | level :: rest => .ok ⟨name, ⟨Rose.bare level rest, [], 0⟩, []⟩
    else .error .invalidResourceName

def recordsReachable (rsrc : HierRecordRsrc) : List Nat :=
  rsrc.data.root.entries.map (fun entry => entry.2.id) ++ rsrc.waitings.map HierRecord.id

def RecordsLive (rsrc : HierRecordRsrc) : Prop :=
  (recordsReachable rsrc).Nodup ∧ ∀ id ∈ recordsReachable rsrc, id ∉ rsrc.data.deleted

def recordsCleanSent (rsrc : HierRecordRsrc) (conn : ConnId) (sends : List Rc) : Prop :=
  ∀ freed ∈ recordsRelease rsrc.name rsrc.data conn,
    EverySent (recordsManager rsrc.name).toOps Rc.ok freed rsrc.waitings sends

def recordsSent (rsrc : HierRecordRsrc) : Call → Prop
  | .inmsg conn _ msg env =>
    msg.verb = .unlock → ∀ name ∈ msg.unlock8.name, recordsCompareName rsrc name = true →
      recordsCleanSent { rsrc with name := name } conn env.sends
  | .clean conn env => recordsCleanSent rsrc conn env.sends

def recordsIds (data : HierRecords) : List Nat := data.root.entries.map fun entry => entry.2.id

structure RecordsOwned (data : HierRecords) (queue : List HierRecord) : Prop where
  once : (recordsIds data ++ queue.map HierRecord.id).Nodup
  made : ∀ id ∈ recordsIds data ++ queue.map HierRecord.id ++ data.deleted, id < data.made
  waiting : ∀ cl ∈ queue, cl.id ∉ data.deleted

def RecordsTreeLive (data : HierRecords) : Prop := ∀ id ∈ recordsIds data, id ∉ data.deleted

theorem recordsAddLocker_ids (data : HierRecords) (cl : HierRecord) (path : List Name) :
    (recordsIds (recordsAddLocker data cl path)).Perm (cl.id :: recordsIds data) := by
  obtain ⟨sub, reached, _⟩ := hierReach_spec path data.seen.root
  rw [HierRecords.seen, Rose.subtree_map] at reached
  obtain ⟨inner, found, _⟩ := Option.map_eq_some_iff.mp reached
  obtain ⟨others, before, after⟩ := Rose.entries_update found
  have attached := (Rose.attach_entries cl (hierReach path data.seen.root).2 inner).map
    (Rose.under (Rose.above (hierReach path data.seen.root).1 data.root))
  have linked := (after _).trans ((attached.append_right others).trans (before.symm.cons _))
  exact linked.map fun entry => entry.2.id

def recordsUnlink (name : Name) (data : HierRecords) (conn : ConnId) : HierRecords :=
  { data with
    root := data.root.update (Rose.removeFirst (recordsMine conn))
      (hierLocate (hierLevels name) data.seen.root) }

theorem recordsRelease_ids {name : Name} {data freed : HierRecords} {conn : ConnId}
    (released : recordsRelease name data conn = some freed) :
    ∃ id, freed = recordsDelete (recordsUnlink name data conn) [id] ∧
      (recordsIds data).Perm (id :: recordsIds (recordsUnlink name data conn)) := by
  obtain ⟨cl, taken, rfl⟩ := Option.map_eq_some_iff.mp released
  obtain ⟨node, reached, found⟩ := Option.bind_eq_some_iff.mp taken
  obtain ⟨others, before, after⟩ := Rose.entries_update reached
  have removed := (Rose.removeFirst_entries found).map
    (Rose.under (Rose.above (hierLocate (hierLevels name) data.seen.root) data.root))
  have split := before.trans ((removed.append_right others).trans ((after _).symm.cons _))
  exact ⟨cl.id, rfl, split.map fun entry : List Name × HierRecord => entry.2.id⟩

theorem recordsOwned_fewer {data data' : HierRecords} {queue queue' : List HierRecord}
    (owned : RecordsOwned data queue) (made : data'.made = data.made)
    (deleted : data'.deleted = data.deleted)
    (same : (recordsIds data' ++ queue'.map HierRecord.id).Subperm
      (recordsIds data ++ queue.map HierRecord.id)) (fewer : queue' ⊆ queue) :
    RecordsOwned data' queue' where
  once := by
    obtain ⟨listed, perm, part⟩ := same
    exact perm.nodup_iff.mp (part.nodup owned.once)
  made id member := by
    rw [made]
    apply owned.made
    rw [deleted] at member
    exact List.mem_append.mpr ((List.mem_append.mp member).imp_left fun reached =>
      same.subset reached)
  waiting cl member := deleted ▸ owned.waiting cl (fewer member)

theorem recordsOwned_take {data : HierRecords} {others rest : List HierRecord} {cl : HierRecord}
    (path : List Name) (owned : RecordsOwned data (others ++ cl :: rest)) :
    RecordsOwned (recordsAddLocker data cl path) (others ++ rest) := by
  refine recordsOwned_fewer owned rfl rfl ?_ ?_
  · have moved := (recordsAddLocker_ids data cl path).append_right
      ((others ++ rest).map HierRecord.id)
    refine (moved.trans ?_).subperm
    simp only [List.map_append, List.map_cons, List.cons_append, ← List.append_assoc]
    exact List.perm_middle.symm
  · intro other member
    simp only [List.mem_append, List.mem_cons] at member ⊢
    exact member.imp_right .inr

theorem recordsOwned_delete {data : HierRecords} {queue : List HierRecord} {ids : List Nat}
    (owned : RecordsOwned data queue) (apart : ∀ cl ∈ queue, cl.id ∉ ids)
    (made : ∀ id ∈ ids, id < data.made) :
    RecordsOwned (recordsDelete data ids) queue where
  once := owned.once
  made id member := by
    simp only [recordsDelete, List.mem_append] at member
    rcases member with reached | gone | earlier
    · exact owned.made id (List.mem_append_left _ (List.mem_append.mpr reached))
    · exact made id gone
    · exact owned.made id (List.mem_append_right _ earlier)
  waiting cl member := by
    simp only [recordsDelete, List.mem_append, not_or]
    exact ⟨apart cl member, owned.waiting cl member⟩

theorem recordsOwned_fail {data : HierRecords} {others rest : List HierRecord} {cl : HierRecord}
    (path : List Name) (owned : RecordsOwned data (others ++ cl :: rest)) :
    RecordsOwned (recordsDelete (recordsAddLocker data cl path) [cl.id]) (others ++ rest) := by
  have taken := recordsOwned_take path owned
  have linked : cl.id ∈ recordsIds (recordsAddLocker data cl path) :=
    (recordsAddLocker_ids data cl path).mem_iff.mpr List.mem_cons_self
  apply recordsOwned_delete taken
  · intro other member same
    have twice := List.mem_map_of_mem (f := HierRecord.id) member
    rw [List.mem_singleton.mp same] at twice
    exact List.disjoint_of_nodup_append taken.once linked twice
  · intro id single
    obtain rfl := List.mem_singleton.mp single
    exact taken.made _ (List.mem_append_left _ (List.mem_append_left _ linked))

theorem recordsDelete_seen {data : HierRecords} {ids : List Nat}
    (apart : ∀ id ∈ recordsIds data, id ∉ ids) :
    (recordsDelete data ids).seen = data.seen := by
  simp only [HierRecords.seen, recordsDelete, HierData.mk.injEq]
  apply Rose.map_congr
  intro entry member
  simp [HierRecord.lock, apart entry.2.id (List.mem_map_of_mem member)]

theorem recordsAddLocker_map (data : HierRecords) (cl : HierRecord) (path : List Name)
    (deleted : List Nat) :
    (recordsAddLocker data cl path).root.map (HierRecord.lock deleted) =
      (data.root.map (HierRecord.lock deleted)).update
        (hierAttach (cl.lock deleted) (hierReach path data.seen.root).2)
            (hierReach path data.seen.root).1 := by
  rw [recordsAddLocker]
  apply Rose.map_update
  intro sub _
  rw [Rose.map_attach, hierAttach_eq]

theorem recordsTake_seen {data : HierRecords} {cl : HierRecord} (path : List Name)
    (live : cl.id ∉ data.deleted) :
    (recordsAddLocker data cl path).seen =
      resourceHierAddLocker data.seen ⟨cl.wait.conn, cl.wait.mode, false⟩ path := by
  rw [HierRecords.seen, resourceHierAddLocker, HierData.mk.injEq]
  refine (recordsAddLocker_map data cl path data.deleted).trans ?_
  simp [HierRecord.lock, live, HierRecords.seen]

theorem recordsFail_seen {data : HierRecords} {cl : HierRecord} (path : List Name)
    (fresh : cl.id ∉ recordsIds data) :
    (recordsDelete (recordsAddLocker data cl path) [cl.id]).seen =
      resourceHierAddLocker data.seen ⟨cl.wait.conn, cl.wait.mode, true⟩ path := by
  rw [HierRecords.seen, resourceHierAddLocker, HierData.mk.injEq]
  refine (recordsAddLocker_map data cl path (cl.id :: data.deleted)).trans ?_
  have apart : ∀ id ∈ recordsIds data, id ∉ [cl.id] := fun id member single =>
    fresh (List.mem_singleton.mp single ▸ member)
  have same : data.root.map (HierRecord.lock (cl.id :: data.deleted)) = data.seen.root :=
    congrArg HierData.root (recordsDelete_seen apart)
  rw [same]
  simp [HierRecord.lock]

theorem recordsRelease_isSome (name : Name) (data : HierRecords) (conn : ConnId) :
    (recordsRelease name data conn).isSome = hierNodeHolds name data.seen conn := by
  have below : data.seen.root.subtree (hierLocate (hierLevels name) data.seen.root) =
      (data.root.subtree (hierLocate (hierLevels name) data.seen.root)).map
        (Rose.map (HierRecord.lock data.deleted)) :=
    Rose.subtree_map _ _ _
  rw [recordsRelease, Option.isSome_map, hierNodeHolds, below]
  cases data.root.subtree (hierLocate (hierLevels name) data.seen.root) with
  | none => rfl
  | some node =>
    simp only [Option.map_some, Option.any_some, Rose.map_items, List.any_map, Option.bind_some,
      List.isSome_find?]
    rfl

theorem recordsRelease_seen {name : Name} {data : HierRecords} {conn : ConnId}
    (once : (recordsIds data).Nodup) :
    (recordsRelease name data conn).map HierRecords.seen = hierRelease name data.seen conn := by
  rw [hierRelease, ← recordsRelease_isSome]
  cases released : recordsRelease name data conn with
  | none => rfl
  | some freed =>
    obtain ⟨id, rfl, split⟩ := recordsRelease_ids released
    have apart : ∀ other ∈ recordsIds (recordsUnlink name data conn), other ∉ [id] := by
      intro other member single
      exact (List.nodup_cons.mp (split.nodup_iff.mp once)).1 (List.mem_singleton.mp single ▸ member)
    rw [Option.map_some, recordsDelete_seen apart, HierRecords.seen, Option.isSome_some, if_pos rfl,
      Option.some.injEq, HierData.mk.injEq]
    apply Rose.map_update
    intro sub _
    rw [hierRemoveConn_eq, ← Rose.map_removeFirst]
    rfl

theorem recordsScan_seen (name : Name) (data : HierRecords) (queue : List HierRecord)
    (sends : List Rc) (others : List HierRecord) (owned : RecordsOwned data (others ++ queue)) :
    let scanned := scan (recordsManager name).toOps Rc.ok data queue sends
    let contents := scan (hierManager name).toOps Rc.ok data.seen (queue.map HierRecord.wait) sends
    RecordsOwned scanned.state (others ++ scanned.queue) ∧ scanned.state.seen = contents.state ∧
      scanned.queue.map HierRecord.wait = contents.queue ∧ scanned.rc = contents.rc := by
  induction data, queue, sends using scan_cases
      (recordsManager name).toOps Rc.ok generalizing others with
  | done data sends => exact ⟨by simpa using owned, rfl, rfl, rfl⟩
  | granted data cl rest sends can sent ih =>
    have live := owned.waiting cl (by simp)
    obtain ⟨kept, state, queue, rc⟩ := ih others (recordsOwned_take _ owned)
    have same : ((recordsManager name).take data cl).seen =
        (hierManager name).take data.seen cl.wait :=
      recordsTake_seen _ live
    simp only [List.map_cons]
    rw [scan, if_pos (show (hierManager name).can data.seen cl.wait = true from can), if_pos sent,
      ← same]
    exact ⟨kept, state, queue, rc⟩
  | failed data cl rest sends can unsent =>
    have fresh : cl.id ∉ recordsIds data := by
      intro linked
      exact List.disjoint_of_nodup_append owned.once linked (List.mem_map_of_mem (by simp))
    simp only [List.map_cons]
    rw [scan, if_pos (show (hierManager name).can data.seen cl.wait = true from can), if_neg unsent]
    exact ⟨recordsOwned_fail _ owned, recordsFail_seen _ fresh, rfl, rfl⟩
  | skipped data cl rest sends cannot ih =>
    obtain ⟨kept, state, queue, rc⟩ := ih (others ++ [cl]) (by rw [List.append_assoc]; exact owned)
    simp only [List.map_cons]
    have refused : ¬(hierManager name).can data.seen cl.wait = true := by
      simpa using (show (hierManager name).can data.seen cl.wait = false from cannot)
    rw [scan, if_neg refused]
    exact ⟨by simpa using kept, state, congrArg (cl.wait :: ·) queue, rc⟩

theorem recordsScan_live (name : Name) (data : HierRecords) (queue : List HierRecord)
    (sends : List Rc) (others : List HierRecord) (owned : RecordsOwned data (others ++ queue))
    (live : RecordsTreeLive data) :
    RecordsTreeLive (scan (recordsManager name).toOps Rc.ok data queue sends).state ↔
      (scan (recordsManager name).toOps Rc.ok data queue sends).failed = none := by
  induction data, queue, sends using scan_cases
      (recordsManager name).toOps Rc.ok generalizing others with
  | done data sends => simpa using live
  | granted data cl rest sends can sent ih =>
    apply ih others (recordsOwned_take _ owned)
    intro id member
    rcases List.mem_cons.mp ((recordsAddLocker_ids data cl _).mem_iff.mp member) with rfl | held
    · exact owned.waiting cl (by simp)
    · exact live id held
  | failed data cl rest sends can unsent =>
    simp only [reduceCtorEq, iff_false]
    intro live
    apply live cl.id
    · exact (recordsAddLocker_ids data cl _).mem_iff.mpr List.mem_cons_self
    · exact List.mem_cons_self
  | skipped data cl rest sends cannot ih =>
    exact ih (others ++ [cl]) (by rw [List.append_assoc]; exact owned) live

theorem recordsRelease_contents {data : HierRecords} {queue : List HierRecord} (name : Name)
    (conn : ConnId) (owned : RecordsOwned data queue) :
    (hierManager name).release data.seen conn =
    (recordsRelease name data conn).map HierRecords.seen :=
  (recordsRelease_seen (List.Nodup.of_append_left owned.once)).symm

theorem recordsOwned_release {name : Name} {data freed : HierRecords} {conn : ConnId}
    {queue : List HierRecord} (owned : RecordsOwned data queue)
    (released : recordsRelease name data conn = some freed) : RecordsOwned freed queue := by
  obtain ⟨id, rfl, split⟩ := recordsRelease_ids released
  have once := (split.append_right (queue.map HierRecord.id)).nodup_iff.mp owned.once
  apply recordsOwned_delete
  · refine recordsOwned_fewer owned rfl rfl ?_ fun _ member => member
    exact (List.subperm_append_right _).mpr
      ((List.sublist_cons_self id _).subperm.trans split.symm.subperm)
  · intro cl member single
    have waits := List.mem_map_of_mem (f := HierRecord.id) member
    rw [List.mem_singleton.mp single] at waits
    exact (List.nodup_cons.mp once).1 (List.mem_append_right _ waits)
  · intro other single
    apply owned.made
    rw [List.mem_singleton.mp single]
    exact List.mem_append_left _ (List.mem_append_left _ (split.mem_iff.mpr List.mem_cons_self))

theorem recordsTreeLive_release {name : Name} {data freed : HierRecords} {conn : ConnId}
    {queue : List HierRecord} (owned : RecordsOwned data queue) (live : RecordsTreeLive data)
    (released : recordsRelease name data conn = some freed) : RecordsTreeLive freed := by
  obtain ⟨id, rfl, split⟩ := recordsRelease_ids released
  intro other member gone
  have once := split.nodup_iff.mp (List.Nodup.of_append_left owned.once)
  rcases List.mem_cons.mp gone with rfl | earlier
  · exact (List.nodup_cons.mp once).1 member
  · exact live other (split.mem_iff.mpr (List.mem_cons_of_mem _ member)) earlier

def recordsSeen (rsrc : HierRecordRsrc) : HierRsrc :=
  ⟨rsrc.name, rsrc.data.seen, rsrc.waitings.map HierRecord.wait⟩

theorem recordsPrune_ids (data : HierRecords) :
    recordsIds { data with root := data.root.prune } = recordsIds data := by
  rw [recordsIds, Rose.prune_entries, recordsIds]

theorem recordsOwned_prune {data : HierRecords} {queue : List HierRecord}
    (owned : RecordsOwned data queue) :
    RecordsOwned { data with root := data.root.prune } queue := by
  refine recordsOwned_fewer owned rfl rfl ?_ fun _ member => member
  rw [recordsPrune_ids]

theorem recordsPrune_seen (data : HierRecords) :
    HierRecords.seen { data with root := data.root.prune } = ⟨resourceHierGc data.seen.root⟩ := by
  rw [HierRecords.seen, HierData.mk.injEq, resourceHierGc_eq]
  exact Rose.map_prune _ _

structure RecordsCleaned (rsrc : HierRecordRsrc) (conn : ConnId) (sends : List Rc)
    (cleaned : HierRecordRsrc) : Prop where
  owned : RecordsOwned cleaned.data cleaned.waitings
  seen : recordsSeen cleaned = (resourceHierClean (recordsSeen rsrc) conn sends).rsrc
  live : RecordsTreeLive rsrc.data →
    (RecordsTreeLive cleaned.data ↔ recordsCleanSent rsrc conn sends)

theorem recordsClean_released (rsrc : HierRecordRsrc) (conn : ConnId) (sends : List Rc)
    (owned : RecordsOwned rsrc.data rsrc.waitings) {freed : HierRecords}
    (released : recordsRelease rsrc.name rsrc.data conn = some freed) :
    RecordsCleaned rsrc conn sends (recordsClean rsrc conn sends).rsrc := by
  have kept := recordsOwned_release owned released
  obtain ⟨after, state, queue, rc⟩ := recordsScan_seen rsrc.name freed rsrc.waitings sends [] kept
  have contents := recordsRelease_contents rsrc.name conn owned
  rw [released, Option.map_some] at contents
  have scanned := (recordsManager rsrc.name).clean_of_some Rc.ok rsrc.data freed rsrc.waitings conn
    sends released
  have looked := (hierManager rsrc.name).clean_of_some Rc.ok rsrc.data.seen freed.seen
    (rsrc.waitings.map HierRecord.wait) conn sends contents
  have live := recordsScan_live rsrc.name freed rsrc.waitings sends [] kept
  constructor
  · simp only [recordsClean, rsrcClean, scanned, released, Option.isSome_some, if_true,
      recordsDelete,
      List.nil_append]
    split
    · exact recordsOwned_prune after
    · exact after
  · simp only [recordsClean, rsrcClean, scanned, released, Option.isSome_some, if_true,
      recordsDelete,
      List.nil_append, resourceHierClean, recordsSeen, looked, hierCollect, ← rc, ← state, ← queue]
    split
    · rw [recordsPrune_seen]
    · rfl
  · intro tree
    have sent : recordsCleanSent rsrc conn sends ↔
        (scan (recordsManager rsrc.name).toOps Rc.ok freed rsrc.waitings sends).failed = none := by
      rw [← everySent_iff, recordsCleanSent, released]
      simp
    rw [sent, ← live (recordsTreeLive_release owned tree released)]
    simp only [recordsClean, rsrcClean, scanned, released, Option.isSome_some, if_true,
      recordsDelete,
      List.nil_append]
    split
    · simp only [RecordsTreeLive, recordsPrune_ids]
    · rfl

def recordsWithdrawn (rsrc : HierRecordRsrc) (conn : ConnId) : List Nat :=
  (rsrc.waitings.find? (recordsMine conn)).toList.map HierRecord.id

theorem recordsOwned_withdraw {rsrc : HierRecordRsrc} (conn : ConnId)
    (owned : RecordsOwned rsrc.data rsrc.waitings) :
    RecordsOwned (recordsDelete rsrc.data (recordsWithdrawn rsrc conn))
      (rsrc.waitings.eraseP (recordsMine conn)) ∧
        ∀ id ∈ recordsIds rsrc.data, id ∉ recordsWithdrawn rsrc conn := by
  have shorter : rsrc.waitings.eraseP (recordsMine conn) ⊆ rsrc.waitings :=
    List.eraseP_sublist.subset
  have kept : RecordsOwned rsrc.data (rsrc.waitings.eraseP (recordsMine conn)) := by
    refine recordsOwned_fewer owned rfl rfl ?_ shorter
    exact (List.subperm_append_left _).mpr (List.eraseP_sublist.map _).subperm
  unfold recordsWithdrawn
  cases found : rsrc.waitings.find? (recordsMine conn) with
  | none => exact ⟨kept, by simp⟩
  | some cl =>
    have split := (Lists.find_eraseP_perm found).map HierRecord.id
    have once := (split.append_left (recordsIds rsrc.data)).nodup_iff.mp owned.once
    have waits : cl.id ∈ rsrc.waitings.map HierRecord.id := split.mem_iff.mpr List.mem_cons_self
    constructor
    · apply recordsOwned_delete kept
      · intro other member single
        have left := List.mem_map_of_mem (f := HierRecord.id) member
        rw [List.mem_singleton.mp single] at left
        exact (List.nodup_cons.mp (List.Nodup.of_append_right once)).1 left
      · intro id single
        rw [List.mem_singleton.mp single]
        exact owned.made _ (List.mem_append_left _ (List.mem_append_right _ waits))
    · intro id linked single
      rw [List.mem_singleton.mp single] at linked
      exact List.disjoint_of_nodup_append owned.once linked waits

theorem recordsClean_withdrawn (rsrc : HierRecordRsrc) (conn : ConnId) (sends : List Rc)
    (owned : RecordsOwned rsrc.data rsrc.waitings)
    (released : recordsRelease rsrc.name rsrc.data conn = none) :
    RecordsCleaned rsrc conn sends (recordsClean rsrc conn sends).rsrc := by
  have contents := recordsRelease_contents rsrc.name conn owned
  rw [released, Option.map_none] at contents
  have scanned := (recordsManager rsrc.name).clean_of_none Rc.ok rsrc.data rsrc.waitings conn sends
    released
  have looked := (hierManager rsrc.name).clean_of_none Rc.ok rsrc.data.seen
    (rsrc.waitings.map HierRecord.wait) conn sends contents
  obtain ⟨kept, apart⟩ := recordsOwned_withdraw conn owned
  have cleaned : (recordsClean rsrc conn sends).rsrc =
      ⟨rsrc.name, { recordsDelete rsrc.data (recordsWithdrawn rsrc conn) with
        root := rsrc.data.root.prune },
        rsrc.waitings.eraseP (recordsMine conn)⟩ := by
    simp only [recordsClean, rsrcClean, scanned, released]
    rfl
  rw [cleaned]
  constructor
  · exact recordsOwned_prune kept
  · have erased : (rsrc.waitings.eraseP (recordsMine conn)).map HierRecord.wait =
        (rsrc.waitings.map HierRecord.wait).eraseP fun waiter => waiter.conn = conn := by
      rw [List.eraseP_map]
      rfl
    have gone := recordsDelete_seen apart
    have pruned := recordsPrune_seen (recordsDelete rsrc.data (recordsWithdrawn rsrc conn))
    simp only [resourceHierClean, rsrcClean, recordsSeen, looked, hierCollect, if_true, erased]
    rw [gone] at pruned
    rw [← pruned]
    rfl
  · intro tree
    have sent : recordsCleanSent rsrc conn sends := by
      rw [recordsCleanSent, released]
      simp
    refine iff_of_true ?_ sent
    intro id member gone
    have linked : id ∈ recordsIds rsrc.data := by
      have same := recordsPrune_ids (recordsDelete rsrc.data (recordsWithdrawn rsrc conn))
      exact same ▸ member
    rcases List.mem_append.mp gone with withdrawn | earlier
    · exact apart id linked withdrawn
    · exact tree id linked earlier

theorem recordsClean_spec (rsrc : HierRecordRsrc) (conn : ConnId) (sends : List Rc)
    (owned : RecordsOwned rsrc.data rsrc.waitings) :
    RecordsCleaned rsrc conn sends (recordsClean rsrc conn sends).rsrc := by
  cases released : recordsRelease rsrc.name rsrc.data conn with
  | some freed => exact recordsClean_released rsrc conn sends owned released
  | none => exact recordsClean_withdrawn rsrc conn sends owned released

def recordsNew (rsrc : HierRecordRsrc) (conn : ConnId) (mode : LockMode) (name : Name) :
    HierRecord :=
  ⟨rsrc.data.made, ⟨conn, mode, name⟩⟩

theorem recordsOwned_new {rsrc : HierRecordRsrc} (conn : ConnId) (mode : LockMode) (name : Name)
    (owned : RecordsOwned rsrc.data rsrc.waitings) :
    RecordsOwned { rsrc.data with made := rsrc.data.made + 1 }
      (rsrc.waitings ++ [recordsNew rsrc conn mode name]) where
  once := by
    have fresh : rsrc.data.made ∉ recordsIds rsrc.data ++ rsrc.waitings.map HierRecord.id :=
        fun member =>
      (owned.made _ (List.mem_append_left _ member)).false
    simp only [List.map_append, List.map_cons, List.map_nil, recordsNew, ← List.append_assoc]
    exact List.nodup_append.mpr ⟨owned.once, by simp, by
      intro id member other single same
      rw [List.mem_singleton.mp single] at same
      exact fresh (same ▸ member)⟩
  made id member := by
    simp only [List.map_append, List.map_cons, List.map_nil, recordsNew, List.mem_append,
      List.mem_singleton] at member
    have old := owned.made id
    simp only [List.mem_append] at old
    rcases member with (linked | waits | rfl) | gone
    · exact (old (.inl (.inl linked))).trans (Nat.lt_succ_self _)
    · exact (old (.inl (.inr waits))).trans (Nat.lt_succ_self _)
    · exact Nat.lt_succ_self _
    · exact (old (.inr gone)).trans (Nat.lt_succ_self _)
  waiting cl member gone := by
    rcases List.mem_append.mp member with old | single
    · exact owned.waiting cl old gone
    · rw [List.mem_singleton.mp single] at gone
      exact (owned.made _ (List.mem_append_right _ gone)).false

structure RecordsStepped (rsrc : HierRecordRsrc) (call : Call) (stepped : HierRecordRsrc) :
    Prop where
  owned : RecordsOwned stepped.data stepped.waitings
  seen : recordsSeen stepped = resourceHierStep (recordsSeen rsrc) call
  live : RecordsTreeLive rsrc.data → (RecordsTreeLive stepped.data ↔ recordsSent rsrc call)

theorem recordsLock_spec (rsrc : HierRecordRsrc) (conn : ConnId) (lastStep : Int) (msg : Msg)
    (env : Env) (name : Name) (owned : RecordsOwned rsrc.data rsrc.waitings)
    (locks : msg.verb = .lock) (names : msg.lock8.name = some name) :
    RecordsStepped rsrc (.inmsg conn lastStep msg env)
      (recordsStep rsrc (.inmsg conn lastStep msg env)) := by
  have grown := recordsOwned_new conn msg.lock8.mode name owned
  have fresh := grown.waiting (recordsNew rsrc conn msg.lock8.mode name) (by simp)
  have sent : recordsSent rsrc (.inmsg conn lastStep msg env) := fun unlocks => by
    simp [locks] at unlocks
  have refused : RecordsOwned { rsrc.data with made := rsrc.data.made + 1 } rsrc.waitings :=
    recordsOwned_fewer grown rfl rfl
      ((List.subperm_append_left _).mpr ((List.sublist_append_left _ _).map _).subperm) (by simp)
  have records := rsrcLock_rsrc_eq (recordsManager rsrc.name)
    ⟨recordsNew rsrc conn msg.lock8.mode name, msg.lock8.wait ≠ 0, .lockBusy, fun _ => none⟩ rsrc
      lastStep msg
  have contents := rsrcLock_rsrc_eq (hierManager rsrc.name)
    ⟨⟨conn, msg.lock8.mode, name⟩, msg.lock8.wait ≠ 0, .lockBusy, fun _ => none⟩
      (recordsSeen rsrc) lastStep msg
  have stepped : recordsStep rsrc (.inmsg conn lastStep msg env) =
      { (rsrcLock (recordsManager rsrc.name)
        ⟨recordsNew rsrc conn msg.lock8.mode name, msg.lock8.wait ≠ 0,
            .lockBusy, fun _ => none⟩ rsrc lastStep msg).rsrc with
        data := { (rsrcLock (recordsManager rsrc.name) ⟨recordsNew rsrc conn msg.lock8.mode name,
              msg.lock8.wait ≠ 0, .lockBusy, fun _ => none⟩ rsrc lastStep msg).rsrc.data with
          made := rsrc.data.made + 1 } } := by
    simp [recordsStep, recordsInmsg, locks, names, recordsNew]
  have looked : resourceHierStep (recordsSeen rsrc) (.inmsg conn lastStep msg env) =
      (rsrcLock (hierManager rsrc.name) ⟨⟨conn, msg.lock8.mode, name⟩, msg.lock8.wait ≠ 0,
      .lockBusy,
        fun _ => none⟩ (recordsSeen rsrc) lastStep msg).rsrc := by
    simp [resourceHierStep, resourceHierInmsg, locks, names, recordsSeen]
  have can : (hierManager rsrc.name).can (recordsSeen rsrc).data ⟨conn, msg.lock8.mode, name⟩ =
      (recordsManager rsrc.name).can rsrc.data (recordsNew rsrc conn msg.lock8.mode name) := rfl
  rw [records] at stepped
  rw [contents, can] at looked
  split_ifs at stepped looked
  · constructor
    · rw [stepped]
      exact recordsOwned_fewer (recordsOwned_take (hierLevels name) grown) rfl rfl (by simp; rfl)
        (by simp)
    · rw [looked, stepped]
      have seen := recordsTake_seen (hierLevels name) fresh
      exact congrArg (fun data => (⟨rsrc.name, data, rsrc.waitings.map HierRecord.wait⟩ : HierRsrc))
        seen
    · intro tree
      refine iff_of_true ?_ sent
      rw [stepped]
      intro id member
      rcases List.mem_cons.mp
          ((recordsAddLocker_ids rsrc.data _ (hierLevels name)).mem_iff.mp member) with
        rfl | held
      · exact fresh
      · exact tree id held
  · constructor
    · rw [stepped]
      exact grown
    · rw [looked, stepped]
      simp only [recordsSeen, List.map_append, List.map_cons, List.map_nil]
      rfl
    · intro tree
      refine iff_of_true ?_ sent
      rw [stepped]
      exact tree
  · constructor
    · rw [stepped]
      exact refused
    · rw [looked, stepped]
      rfl
    · intro tree
      refine iff_of_true ?_ sent
      rw [stepped]
      exact tree

theorem recordsUnlock_spec (rsrc : HierRecordRsrc) (conn : ConnId) (lastStep : Int) (msg : Msg)
    (env : Env) (name : Name) (owned : RecordsOwned rsrc.data rsrc.waitings)
    (unlocks : msg.verb = .unlock) (names : msg.unlock8.name = some name) :
    RecordsStepped rsrc (.inmsg conn lastStep msg env)
      (recordsStep rsrc (.inmsg conn lastStep msg env)) := by
  have label : (recordsSeen rsrc).data.root.label = rsrc.data.root.label := Rose.map_label _ _
  have compare :
      resourceHierCompareName (recordsSeen rsrc) name = recordsCompareName rsrc name := by
    rw [resourceHierCompareName, recordsCompareName, label]
  have cleaned := recordsClean_spec { rsrc with name := name } conn env.sends owned
  have looked : resourceHierStep (recordsSeen rsrc) (.inmsg conn lastStep msg env) =
      if recordsCompareName rsrc name then
        (resourceHierClean (recordsSeen { rsrc with name := name }) conn env.sends).rsrc
      else recordsSeen rsrc := by
    simp only [resourceHierStep, resourceHierInmsg, unlocks, names, resourceHierUnlock, compare]
    split
    · simp [resourceHierChangeName, recordsSeen]
    · rfl
  have stepped : recordsStep rsrc (.inmsg conn lastStep msg env) =
      if recordsCompareName rsrc name then
        (recordsClean { rsrc with name := name } conn env.sends).rsrc
      else rsrc := by
    simp only [recordsStep, recordsInmsg, unlocks, names]
    split
    · simp
    · rfl
  have sent : recordsSent rsrc (.inmsg conn lastStep msg env) ↔
      (recordsCompareName rsrc name = true →
      recordsCleanSent { rsrc with name := name } conn env.sends) := by
    simp [recordsSent, unlocks, names]
  by_cases named : recordsCompareName rsrc name = true
  · rw [if_pos named] at looked stepped
    constructor
    · rw [stepped]
      exact cleaned.owned
    · rw [looked, stepped]
      exact cleaned.seen
    · intro tree
      rw [stepped, sent]
      exact (cleaned.live tree).trans ⟨fun cleaned _ => cleaned, fun cleaned => cleaned named⟩
  · rw [if_neg named] at looked stepped
    constructor
    · rw [stepped]
      exact owned
    · rw [looked, stepped]
    · intro tree
      rw [stepped]
      exact iff_of_true tree (sent.mpr fun same => absurd same named)

theorem recordsStep_spec (rsrc : HierRecordRsrc) (call : Call)
    (owned : RecordsOwned rsrc.data rsrc.waitings) :
    RecordsStepped rsrc call (recordsStep rsrc call) := by
  have same : ∀ conn lastStep msg env, recordsStep rsrc (.inmsg conn lastStep msg env) = rsrc →
      resourceHierStep (recordsSeen rsrc) (.inmsg conn lastStep msg env) = recordsSeen rsrc →
      recordsSent rsrc (.inmsg conn lastStep msg env) →
      RecordsStepped rsrc (.inmsg conn lastStep msg env)
          (recordsStep rsrc (.inmsg conn lastStep msg env)) := by
    intro conn lastStep msg env stepped looked sent
    rw [stepped]
    exact ⟨owned, looked.symm, fun tree => iff_of_true tree sent⟩
  cases call with
  | inmsg conn lastStep msg env =>
    cases verb : msg.verb with
    | lock =>
      cases names : msg.lock8.name with
      | some name => exact recordsLock_spec rsrc conn lastStep msg env name owned verb names
      | none =>
        apply same
        · simp [recordsStep, recordsInmsg, verb, names]
        · simp [resourceHierStep, resourceHierInmsg, verb, names]
        · simp [recordsSent, verb]
    | unlock =>
      cases names : msg.unlock8.name with
      | some name => exact recordsUnlock_spec rsrc conn lastStep msg env name owned verb names
      | none =>
        apply same
        · simp [recordsStep, recordsInmsg, verb, names]
        · simp [resourceHierStep, resourceHierInmsg, verb, names]
        · simp [recordsSent, names]
    | _ =>
      apply same
      · simp [recordsStep, recordsInmsg, verb]
      · simp [resourceHierStep, resourceHierInmsg, verb]
      · simp [recordsSent, verb]
  | clean conn env =>
    have cleaned := recordsClean_spec rsrc conn env.sends owned
    exact ⟨cleaned.owned, cleaned.seen, cleaned.live⟩

theorem recordsInit_ok {name : Name} {initial : HierRecordRsrc}
    (started : recordsInit name = .ok initial) :
    resourceHierInit name = .ok (recordsSeen initial) ∧ RecordsOwned initial.data initial.waitings ∧
      RecordsTreeLive initial.data := by
  cases name with
  | nil => cases started
  | cons first text =>
    rw [recordsInit] at started
    split_ifs at started with separator
    subst separator
    cases levels : hierLevels (hierResourceSeparator :: text) with
    | nil => simp [levels] at started
    | cons level rest =>
      simp only [levels, Except.ok.injEq] at started
      rw [← started]
      have none : recordsIds ⟨Rose.bare level rest, [], 0⟩ = [] := by
        rw [recordsIds, Rose.bare_entries, List.map_nil]
      refine ⟨?_, ⟨?_, ?_, by simp⟩, ?_⟩
      · simp [resourceHierInit, levels, recordsSeen, HierRecords.seen, Rose.map_bare,
          hierEmptyChain_eq]
      · simp [none]
      · simp [none]
      · simp [RecordsTreeLive, none]

theorem recordsRun_seen {name : Name} {initial : HierRecordRsrc}
    (started : recordsInit name = .ok initial) (calls : List Call) :
    recordsSeen (Run.run recordsStep initial calls) = Run.run resourceHierStep
      (recordsSeen initial) calls := by
  have owned := (recordsInit_ok started).2.1
  clear started
  induction calls generalizing initial with
  | nil => rfl
  | cons call rest ih =>
    have stepped := recordsStep_spec initial call owned
    rw [Run.run, Run.run, ih stepped.owned, stepped.seen]

theorem recordsLive_iff {rsrc : HierRecordRsrc} (owned : RecordsOwned rsrc.data rsrc.waitings) :
    RecordsLive rsrc ↔ RecordsTreeLive rsrc.data := by
  constructor
  · intro live id member
    exact live.2 id (List.mem_append_left _ member)
  · intro tree
    refine ⟨owned.once, ?_⟩
    intro id member
    rcases List.mem_append.mp member with linked | waits
    · exact tree id linked
    · obtain ⟨cl, listed, rfl⟩ := List.mem_map.mp waits
      exact owned.waiting cl listed

theorem hier_records_live_iff (name : Name) (initial : HierRecordRsrc)
    (started : recordsInit name = .ok initial) (calls : List Call) :
    (∀ earlier, earlier <+: calls → RecordsLive (Run.run recordsStep initial earlier)) ↔
      Run.Along recordsStep recordsSent initial calls := by
  obtain ⟨_, owned, live⟩ := recordsInit_ok started
  apply Run.forall_prefix_iff_along (fun rsrc => RecordsOwned rsrc.data rsrc.waitings) RecordsLive
  · exact fun rsrc call owned => (recordsStep_spec rsrc call owned).owned
  · intro rsrc call owned live
    have stepped := recordsStep_spec rsrc call owned
    rw [recordsLive_iff stepped.owned]
    exact stepped.live ((recordsLive_iff owned).mp live)
  · exact owned
  · exact (recordsLive_iff owned).mpr live

def recordsRoot : HierRecordRsrc := ⟨['/', 'r'], ⟨.node ['r'] [] [], [], 0⟩, []⟩

-- The holder goes and the next in the queue cannot be told: its record stays linked after its end.
theorem told_in_vain_stays_linked :
    let calls := [Call.inmsg 1 8 (msgLock ['/', 'r'] .ex 1 0 1) Env.fine,
      Call.inmsg 2 8 (msgLock ['/', 'r'] .ex 1 0 1) Env.fine,
      Call.clean 1 { Env.fine with sends := [.sendError] }]
    let reached := Run.run recordsStep recordsRoot calls
    recordsInit ['/', 'r'] = .ok recordsRoot ∧ recordsIds reached.data = [1] ∧
      reached.data.deleted = [1, 0] ∧ ¬RecordsLive reached := by
  intro calls reached
  refine ⟨rfl, by decide, by decide, ?_⟩
  intro live
  exact live.2 1 (by decide) (by decide)

theorem hier_records_live_iff_told :
    let calls := [Call.inmsg 1 8 (msgLock ['/', 'r'] .ex 1 0 1) Env.fine,
      Call.inmsg 2 8 (msgLock ['/', 'r'] .ex 1 0 1) Env.fine, Call.clean 1 Env.fine]
    (∀ earlier, earlier <+: calls → RecordsLive (Run.run recordsStep recordsRoot earlier)) ↔
      Run.Along recordsStep recordsSent recordsRoot calls :=
  hier_records_live_iff ['/', 'r'] recordsRoot rfl _

end Flom
