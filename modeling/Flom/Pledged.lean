import Flom.Exclusion
import Flom.Lib.Pledge

set_option autoImplicit false

namespace Flom

open Scan

def hierStands (msg : Msg) (held : List Name × LockMode) : Prop :=
  held.2 = msg.lock8.mode ∧ ∃ name root, msg.lock8.name = some name ∧
    held.1 = hierPlace root (hierLevels name)

def Resource.Owes (client : ConnId) (msg : Msg) : Resource → Prop
  | .simple rsrc =>
    simpleLedger.Owes (fun mode => mode = msg.lock8.mode)
      (fun waiter => waiter.info = msg.lock8.mode) rsrc.data rsrc.waitings client
  | .numeric rsrc =>
    numericLedger.Owes (fun quantity => quantity = msg.lock8.quantity)
      (fun waiter => waiter.info = msg.lock8.quantity) rsrc.data rsrc.waitings client
  | .set rsrc => setLedger.Owes (fun _ => True) (fun _ => True) rsrc.data rsrc.waitings client
  | .hier rsrc =>
    (hierLedger rsrc.name).Owes (hierStands msg)
      (fun waiter => waiter.mode = msg.lock8.mode ∧ msg.lock8.name = some waiter.name) rsrc.data
        rsrc.waitings client
  | .sequence rsrc =>
    sequenceLedger.Owes (fun _ => True) (fun _ => True) rsrc.data rsrc.waitings client
  | .timestamp rsrc =>
    timestampLedger.Owes (fun _ => True) (fun _ => True) rsrc.data rsrc.waitings client

/-- The resource is called for the client with that request only, and not before it has lost what
it had. -/
def Resource.AskedOnce (client : ConnId) (request : Msg) (resource : Resource) : LockerCall → Prop
  | .inmsg conn _ msg _ =>
    conn = client → msg.verb = .lock ∧ msg.lock8 = request.lock8 ∧ resource.records client = 0
  | .clean conn _ => conn ≠ client
  | .timeout _ => True

instance askedOnceDecidable (client : ConnId) (request : Msg) (resource : Resource)
    (call : LockerCall) :
    Decidable (resource.AskedOnce client request call) :=
  match call with
  | .inmsg _ _ _ _ => inferInstanceAs (Decidable (_ → _ ∧ _ ∧ _))
  | .clean _ _ => inferInstanceAs (Decidable (_ ≠ _))
  | .timeout _ => isTrue trivial

section

variable {Data Wait H : Type} {m : Manager Data Wait ConnId} {l : Ledger m H} {stands : H → Prop}
  {hopes : Wait → Prop} {rsrc : Rsrc Data Wait} {client : ConnId}

theorem rsrcLock_owes (items : ∀ data waiter, hopes waiter → stands (l.item data waiter))
    (owes : l.Owes stands hopes rsrc.data rsrc.waitings client) (request : Request Data Wait)
    (lastStep : Int) (msg : Msg)
    (fresh : l.Fresh hopes rsrc.data rsrc.waitings client request.waiter) :
    l.Owes stands hopes (rsrcLock m request rsrc lastStep msg).rsrc.data
      (rsrcLock m request rsrc lastStep msg).rsrc.waitings client := by
  obtain same | ⟨can, same⟩ | ⟨_, same⟩ := rsrcLock_rsrc m request rsrc lastStep msg
  · rw [same]
    exact owes.skip request.waiter
  · rw [same]
    exact owes.take items can fresh
  · rw [same]
    refine (owes.skip request.waiter).enqueue ⟨fun mine => ?_, fresh.hopes⟩
    rw [Ledger.records_skip]
    exact fresh.room mine

theorem rsrcWaitings_owes (items : ∀ data waiter, hopes waiter → stands (l.item data waiter))
    (owes : l.Owes stands hopes rsrc.data rsrc.waitings client) (sends : List Rc) :
    l.Owes stands hopes (rsrcWaitings m rsrc sends).rsrc.data
      (rsrcWaitings m rsrc sends).rsrc.waitings client := by
  simp only [rsrcWaitings, indexScan_eq_scan]
  exact owes.scan items Rc.ok sends

theorem rsrcClean_owes (items : ∀ data waiter, hopes waiter → stands (l.item data waiter))
    (owes : l.Owes stands hopes rsrc.data rsrc.waitings client) (conn : ConnId) (sends : List Rc) :
    l.Owes stands hopes (rsrcClean m rsrc conn sends).rsrc.data
      (rsrcClean m rsrc conn sends).rsrc.waitings client :=
  owes.clean items Rc.ok conn sends

end

theorem hierStands_item {request : Msg} (name : Name) (data : HierData) (waiter : HierWait)
    (hopes : waiter.mode = request.lock8.mode ∧ request.lock8.name = some waiter.name) :
    hierStands request ((hierLedger name).item data waiter) :=
  ⟨hopes.1, waiter.name, data.root, hopes.2, rfl⟩

theorem timestampClock_owes {rsrc : TimestampRsrc} {client : ConnId} (clock : List Timeval)
    (owes : timestampLedger.Owes (fun _ => True) (fun _ => True) rsrc.data rsrc.waitings client) :
    timestampLedger.Owes (fun _ => True) (fun _ => True) (timestampSetClock rsrc clock).data
      (timestampSetClock rsrc clock).waitings client := ⟨owes.single, owes.held, owes.queued⟩

section

variable {resource : Resource} {client : ConnId} {request : Msg}

theorem resourceClean_owes (owes : resource.Owes client request) (conn : ConnId) (env : Env) :
    (resourceClean resource conn env).resource.Owes client request := by
  cases resource with
  | simple rsrc => exact rsrcClean_owes (fun _ _ same => same) owes conn env.sends
  | numeric rsrc => exact rsrcClean_owes (fun _ _ same => same) owes conn env.sends
  | set rsrc => exact rsrcClean_owes (fun _ _ same => same) owes conn env.sends
  | sequence rsrc => exact rsrcClean_owes (fun _ _ same => same) owes conn env.sends
  | timestamp rsrc =>
    exact rsrcClean_owes (fun _ _ same => same) (timestampClock_owes env.clock owes) conn env.sends
  | hier rsrc =>
    have cleaned := rsrcClean_owes (hierStands_item rsrc.name) owes conn env.sends
    have held := hierCollect_held (rsrcClean (hierManager rsrc.name) rsrc conn env.sends)
    have waitings := hierCollect_waitings (rsrcClean (hierManager rsrc.name) rsrc conn env.sends)
    refine ⟨?_, ?_, ?_⟩
    · refine le_trans (le_of_eq ?_) cleaned.single
      exact congrArg₂ (fun pairs queue => (pairs.filter fun entry => entry.1 = client).length +
        (Ledger.waitingBy (hierManager rsrc.name) queue client).length) held waitings
    · intro entry member
      exact cleaned.held entry (Eq.mp (congrArg (fun pairs => entry ∈ pairs) held) member)
    · intro waiter member
      exact cleaned.queued waiter (waitings.symm ▸ member)

theorem unlocking_owes {target : Resource} {conn : ConnId} {msg : Msg}
    (owes : resource.Owes client request) (accepted : resource.unlocking conn msg = some target) :
    target.Owes client request := by
  obtain rfl | ⟨rsrc, name, rfl, rfl, _⟩ | ⟨rsrc, _, rfl, rfl, _⟩ := unlocking_cases accepted
  · exact owes
  · exact ⟨owes.single, owes.held, owes.queued⟩
  · have held := sequenceHeld_mark (msg.unlock8.rollback ≠ 0) conn rsrc.data.holders
    refine ⟨?_, ?_, owes.queued⟩
    · refine le_trans (le_of_eq ?_) owes.single
      exact congrArg (fun pairs => (pairs.filter fun entry => entry.1 = client).length + _) held
    · exact fun _ _ _ => trivial

theorem resourceTimeout_owes (owes : resource.Owes client request) (env : Env) :
    (resourceTimeout resource env).resource.Owes client request := by
  cases resource with
  | timestamp rsrc =>
    let looked : TimestampRsrc := { timestampSetClock rsrc env.clock with
      data := timestampManager.skip (timestampSetClock rsrc env.clock).data ⟨0, ()⟩ }
    have looking : timestampLedger.Owes (fun _ => True)
        (fun _ => True) looked.data looked.waitings client :=
      (timestampClock_owes env.clock owes).skip ⟨0, ()⟩
    simp only [resourceTimeout, replyOfCleaned, resourceTimestampTimeout]
    split
    · exact owes
    · split
      · exact rsrcWaitings_owes (fun _ _ same => same) looking env.sends
      · exact looking
  | simple rsrc | numeric rsrc | set rsrc | hier rsrc | sequence rsrc => exact owes

theorem resourceLock_owes {conn : ConnId} {lastStep : Int} {msg : Msg} {env : Env}
    (owes : resource.Owes client request) (lock : msg.verb = .lock)
    (once : conn = client → msg.lock8 = request.lock8 ∧ resource.records client = 0) :
    (resourceInmsg resource conn lastStep msg env).resource.Owes client request := by
  cases resource with
  | simple rsrc =>
    simp only [resourceInmsg, resourceSimpleInmsg, lock]
    refine rsrcLock_owes (fun _ _ same => same) owes _ lastStep msg ⟨fun mine => ?_, fun mine => ?_⟩
    · exact (simple_records rsrc client).symm.trans (once mine).2
    · exact congrArg Lock8.mode (once mine).1
  | numeric rsrc =>
    simp only [resourceInmsg, resourceNumericInmsg, lock]
    refine rsrcLock_owes (fun _ _ same => same) owes _ lastStep msg ⟨fun mine => ?_, fun mine => ?_⟩
    · exact (numeric_records rsrc client).symm.trans (once mine).2
    · exact congrArg Lock8.quantity (once mine).1
  | set rsrc =>
    simp only [resourceInmsg, resourceSetInmsg, lock]
    refine rsrcLock_owes (fun _ _ same => same) owes _ lastStep msg
      ⟨fun mine => ?_, fun _ => trivial⟩
    exact (set_records rsrc client).symm.trans (once mine).2
  | hier rsrc =>
    cases named : msg.lock8.name with
    | none =>
      simp only [resourceInmsg, resourceHierInmsg, lock, named, answerOfInmsg, inmsgError]
      exact owes
    | some name =>
      simp only [resourceInmsg, resourceHierInmsg, lock, named]
      have locked := rsrcLock_owes (hierStands_item rsrc.name) owes
        ⟨⟨conn, msg.lock8.mode, name⟩, msg.lock8.wait ≠ 0, .lockBusy, fun _ => none⟩ lastStep msg
        ⟨fun mine => ?_, fun mine => ?_⟩
      · exact ⟨locked.single, locked.held, locked.queued⟩
      · exact (hier_records rsrc client).symm.trans (once mine).2
      · exact ⟨congrArg Lock8.mode (once mine).1, (once mine).1 ▸ named⟩
  | sequence rsrc =>
    simp only [resourceInmsg, resourceSequenceInmsg, lock]
    refine rsrcLock_owes (fun _ _ same => same) owes _ lastStep msg
      ⟨fun mine => ?_, fun _ => trivial⟩
    exact (sequence_records rsrc client).symm.trans (once mine).2
  | timestamp rsrc =>
    simp only [resourceInmsg, resourceTimestampInmsg, lock]
    refine rsrcLock_owes (fun _ _ same => same) (timestampClock_owes env.clock owes) _ lastStep msg
      ⟨fun mine => ?_, fun _ => trivial⟩
    exact (timestamp_records rsrc client).symm.trans (once mine).2

theorem owes_call {call : LockerCall} (owes : resource.Owes client request)
    (once : resource.AskedOnce client request call) :
    (resourceCall resource call).Owes client request := by
  cases call with
  | inmsg conn lastStep msg env =>
    by_cases lock : msg.verb = .lock
    · exact resourceLock_owes owes lock fun mine => (once mine).2
    · obtain ⟨target, _, accepted, law⟩ | ⟨rc, _, law⟩ :=
        resourceInmsg_unlocked resource conn lastStep msg env lock
      · rw [resourceCall, law, answerOfReply_resource]
        exact resourceClean_owes (unlocking_owes owes accepted) conn env
      · rw [resourceCall, law]
        exact owes
  | clean conn env => exact resourceClean_owes owes conn env
  | timeout env => exact resourceTimeout_owes owes env

theorem kept_holding {before after : Resource} (kept : before.Kept after client)
    (holds : client ∈ before.holding) :
    client ∈ after.holding := by
  have carried {Data Wait H : Type} {m : Manager Data Wait ConnId} {l : Ledger m H}
      {granted : List (Data × Wait)} {data data' : Data} {queue queue' : List Wait}
      (same : l.Untouched granted data queue data' queue' client)
      (holds : client ∈ (l.held data).map Prod.fst) : client ∈ (l.held data').map Prod.fst := by
    obtain ⟨entry, member, mine⟩ := List.mem_map.mp holds
    have held : entry ∈ l.heldBy data client := List.mem_filter.mpr ⟨member, by simpa using mine⟩
    have still := same.held.mem_iff.mpr (List.mem_append_right _ held)
    exact List.mem_map.mpr ⟨entry, (List.mem_filter.mp still).1, mine⟩
  cases before <;> cases after <;> simp only [Resource.Kept] at kept <;> obtain ⟨granted, same⟩ :=
    kept
  · rw [simple_holding] at holds ⊢
    exact carried same holds
  · rw [numeric_holding] at holds ⊢
    exact carried same holds
  · rw [set_holding] at holds ⊢
    exact carried same holds
  · next rsrc _ =>
    rw [hier_holding rsrc.name] at holds ⊢
    exact carried same holds
  · rw [sequence_holding] at holds ⊢
    exact carried same holds
  · rw [timestamp_holding] at holds ⊢
    exact carried same holds

theorem owes_records (owes : resource.Owes client request) : resource.records client ≤ 1 := by
  cases resource with
  | simple rsrc => exact simple_records rsrc client ▸ owes.single
  | numeric rsrc => exact numeric_records rsrc client ▸ owes.single
  | set rsrc => exact set_records rsrc client ▸ owes.single
  | hier rsrc => exact hier_records rsrc client ▸ owes.single
  | sequence rsrc => exact sequence_records rsrc client ▸ owes.single
  | timestamp rsrc => exact timestamp_records rsrc client ▸ owes.single

-- A client that holds waits for nothing, so that nothing done for others can cost it its record.
theorem holding_call {call : LockerCall} (owes : resource.Owes client request)
    (once : resource.AskedOnce client request call) (holds : client ∈ resource.holding) :
    client ∈ (resourceCall resource call).holding := by
  have one := owes_records owes
  have some : 0 < resource.holding.count client := List.count_pos_iff.mpr holds
  have unqueued : client ∉ resource.waiting := by
    intro queued
    have waits : 0 < resource.waiting.count client := List.count_pos_iff.mpr queued
    unfold Resource.records at one
    omega
  refine kept_holding (resourceCall_kept (fun mine => ?_) unqueued).1 holds
  cases call with
  | inmsg conn lastStep msg env =>
    have none := (once (List.mem_singleton.mp mine).symm).2.2
    exact (Resource.records_eq_zero.mp none).1 holds
  | clean conn env => exact once (List.mem_singleton.mp mine).symm
  | timeout env => cases mine

theorem holding_calls {calls : List LockerCall} (owes : resource.Owes client request)
    (once : Run.Along resourceCall (Resource.AskedOnce client request) resource calls)
    (holds : client ∈ resource.holding) :
    client ∈ (Run.run resourceCall resource calls).holding :=
  (Run.along_invariant resourceCall _
    (fun reached => reached.Owes client request ∧ client ∈ reached.holding)
    (fun _ _ both allowed => ⟨owes_call both.1 allowed, holding_call both.1 allowed both.2⟩)
    resource calls
    ⟨owes, holds⟩ once).2

theorem owes_calls {calls : List LockerCall} (owes : resource.Owes client request)
    (once : Run.Along resourceCall (Resource.AskedOnce client request) resource calls) :
    (Run.run resourceCall resource calls).Owes client request :=
  Run.along_invariant resourceCall _ (Resource.Owes client request)
    (fun _ _ => owes_call) resource calls owes once

end

def Resource.type : Resource → RsrcType
  | .simple _ => .simple
  | .numeric _ => .numeric
  | .set _ => .set
  | .hier _ => .hier
  | .sequence _ => .sequence
  | .timestamp _ => .timestamp

def Key.type : Key → RsrcType
  | .whole name => rsrcGetType name
  | .level _ => .hier

def Resource.Typed (resource : Resource) : Prop := resource.key.type = resource.type

theorem typed_init (name : Name) (resource : Resource)
    (started : resourceInit (rsrcGetType name) name = .ok resource) :
    resource.Typed := by
  cases type : rsrcGetType name with
  | null =>
    rw [type] at started
    cases started
  | simple | set =>
    rw [type] at started
    obtain rfl := Except.ok.inj started
    exact type
  | numeric =>
    rw [type] at started
    obtain ⟨rsrc, made, rfl⟩ := except_map_ok started
    obtain ⟨total, _, rfl⟩ := resourceNumericInit_ok made
    exact type
  | hier =>
    rw [type] at started
    obtain ⟨rsrc, _, rfl⟩ := except_map_ok started
    rfl
  | sequence =>
    rw [type] at started
    obtain ⟨rsrc, made, rfl⟩ := except_map_ok started
    obtain ⟨total, _, rfl⟩ := resourceSequenceInit_eq made
    exact type
  | timestamp =>
    rw [type] at started
    obtain ⟨rsrc, made, rfl⟩ := except_map_ok started
    obtain ⟨format, total, _, _, _, rfl⟩ := resourceTimestampInit_eq made
    exact type

theorem resourceCall_type (resource : Resource) (call : LockerCall) :
    (resourceCall resource call).type = resource.type := by
  cases resource <;> cases call <;> rfl

theorem typed_call (resource : Resource) (call : LockerCall) (typed : resource.Typed) :
    (resourceCall resource call).Typed := by
  rw [Resource.Typed, resourceCall_key, resourceCall_type]
  exact typed

def Grant.Fits (type : RsrcType) (request : Msg) (grant : Grant) : Prop :=
  match type, grant with
  | .simple, .mode held => held = request.lock8.mode
  | .numeric, .quantity held => held = request.lock8.quantity
  | .hier, .path levels held =>
    held = request.lock8.mode ∧ ∃ name, request.lock8.name = some name ∧ levels = hierLevels name
  | .set, .element _ | .sequence, .slot | .timestamp, .slot => True
  | _, _ => False

theorem grants_fst (resource : Resource) : resource.grants.map Prod.fst = resource.holding := by
  cases resource with
  | simple rsrc | numeric rsrc | hier rsrc | sequence rsrc | timestamp rsrc =>
    simp [Resource.grants, Resource.holding, Function.comp_def]
  | set rsrc =>
    simp only [Resource.grants, Resource.holding, List.map_filterMap, Option.map_map,
      Function.comp_def, Option.map_id']
    conv_rhs => rw [← List.zipIdx_map_fst 0 rsrc.data.elements, List.filterMap_map]
    rfl

theorem hierStands_path {root : HierTree} {path : List Name} {lock : HierLock} {request : Msg}
    {name : Name} (stands : hierStands request (path, lock.mode))
    (linked : (path, lock) ∈ root.entries) (named : request.lock8.name = some name)
    (rooted : (hierLevels name).head? = some root.label) :
    path = hierLevels name := by
  obtain ⟨_, other, tree, asked, place⟩ := stands
  obtain rfl := Option.some.inj (asked.symm.trans named)
  obtain ⟨rest, first⟩ := Rose.entry_head linked
  dsimp only at place first
  unfold hierPlace at place
  split_ifs at place with same
  · exact place
  · rw [place] at first
    rw [(List.cons.inj first).1] at same
    exact absurd rooted same

theorem owes_fits {resource : Resource} {client : ConnId} {request : Msg} {name : Name}
    (owes : resource.Owes client request) (named : request.lock8.name = some name)
    (accepts : resource.key.accepts name = true) :
    ∀ grant ∈ resource.grants, grant.1 = client → grant.2.Fits resource.type request := by
  intro grant member mine
  cases resource with
  | simple rsrc =>
    obtain ⟨holder, held, rfl⟩ := List.mem_map.mp member
    exact owes.held (holder.conn, holder.info) (List.mem_map.mpr ⟨holder, held, rfl⟩) mine
  | numeric rsrc =>
    obtain ⟨holder, held, rfl⟩ := List.mem_map.mp member
    exact owes.held (holder.conn, holder.info) (List.mem_map.mpr ⟨holder, held, rfl⟩) mine
  | hier rsrc =>
    obtain ⟨⟨path, lock⟩, linked, rfl⟩ := List.mem_map.mp member
    have stands := owes.held (lock.conn, path, lock.mode)
      (List.mem_map.mpr ⟨(path, lock), linked, rfl⟩) mine
    have rooted := of_decide_eq_true (Bool.and_eq_true_iff.mp accepts).2
    exact ⟨stands.1, name, named, hierStands_path stands linked named rooted⟩
  | set rsrc =>
    obtain ⟨entry, _, element⟩ := List.mem_filterMap.mp member
    obtain ⟨conn, _, rfl⟩ := Option.map_eq_some_iff.mp element
    trivial
  | sequence rsrc | timestamp rsrc =>
    obtain ⟨holder, _, rfl⟩ := List.mem_map.mp member
    trivial

end Flom
