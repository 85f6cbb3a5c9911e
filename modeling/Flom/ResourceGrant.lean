import Flom.Disconnect
import Flom.ResourceKept

set_option autoImplicit false

namespace Flom

open Scan

def Resource.capacity : Resource → Option Int32
  | .numeric rsrc => some rsrc.data.totalQuantity
  | _ => none

def Resource.suits (resource : Resource) (msg : Msg) : Prop :=
  msg.lock8.wait ≠ 0 ∧ ∀ total, resource.capacity = some total → ¬total < msg.lock8.quantity

section

variable {Data Wait H : Type} {m : Manager Data Wait ConnId}

theorem rsrcLock_answer {request : Request Data Wait} {rsrc : Rsrc Data Wait} {lastStep : Int}
    {msg : Msg} (done : (rsrcLock m request rsrc lastStep msg).rc = .ok) :
    let result := rsrcLock m request rsrc lastStep msg
    result.msg.step = lastStep + msgStepIncr ∧
      (((msgAnswer result.msg).rc = .ok ∧ m.can rsrc.data request.waiter = true ∧
          result.rsrc.data = m.take rsrc.data request.waiter) ∨
        (msgAnswer result.msg).rc = .lockEnqueued ∨
        ((msgAnswer result.msg).rc = request.refusal ∧ request.wait = false)) := by
  have answered : ∀ rc element, (msgBuildAnswer msgInit .lock (lastStep + msgStepIncr) rc element).1
    = .ok →
      (msgAnswer (msgBuildAnswer msgInit .lock (lastStep + msgStepIncr) rc element).2).rc = rc := by
    intro rc element built
    rw [msgBuildAnswer_answer _ _ _ _ _ built]
  unfold rsrcLock at done ⊢
  split at done
  · by_cases can : m.can rsrc.data request.waiter = true
    · simp only [can, if_true] at done ⊢
      exact ⟨msgBuildAnswer_step _ _ _ _ _, .inl ⟨answered _ _ done, trivial, trivial⟩⟩
    · by_cases wait : request.wait = true
      · simp only [can, wait, if_true, if_false, Bool.false_eq_true] at done ⊢
        exact ⟨msgBuildAnswer_step _ _ _ _ _, .inr (.inl (answered _ _ done))⟩
      · simp only [can, wait, if_false, Bool.false_eq_true] at done ⊢
        exact ⟨msgBuildAnswer_step _ _ _ _ _, .inr (.inr ⟨answered _ _ done, trivial⟩)⟩
  · next rc spent unfreed freed => exact absurd done unfreed

theorem rsrcClean_granted_held (l : Ledger m H) (rsrc : Rsrc Data Wait) (conn : ConnId)
    (sends : List Rc) :
    ∀ grant ∈ (rsrcClean m rsrc conn sends).granted,
      m.conn grant.2 ∈ (l.held (rsrcClean m rsrc conn sends).rsrc.data).map Prod.fst :=
  l.clean_granted_held Rc.ok rsrc.data rsrc.waitings conn sends

theorem rsrcLock_honest (l : Ledger m H) {request : Request Data Wait} {rsrc : Rsrc Data Wait}
    {lastStep : Int} {msg : Msg} (refuses : request.refusal ≠ .ok)
    (done : (rsrcLock m request rsrc lastStep msg).rc = .ok) :
    let result := rsrcLock m request rsrc lastStep msg
    result.msg.step = lastStep + msgStepIncr ∧
      ((msgAnswer result.msg).rc = .ok →
        m.conn request.waiter ∈ (l.held result.rsrc.data).map Prod.fst) ∧
      (request.wait = true →
        (msgAnswer result.msg).rc = .ok ∨ (msgAnswer result.msg).rc = .lockEnqueued) := by
  obtain ⟨step, ⟨granted, can, taken⟩ | enqueued | ⟨refused, impatient⟩⟩ := rsrcLock_answer done
  · refine ⟨step, fun _ => ?_, fun _ => .inl granted⟩
    rw [taken]
    exact List.mem_map_of_mem
      ((l.take_held rsrc.data request.waiter can).mem_iff.mpr List.mem_cons_self)
  · refine ⟨step, fun ok => ?_, fun _ => .inr enqueued⟩
    rw [ok] at enqueued
    cases enqueued
  · refine ⟨step, fun ok => ?_, fun patient => ?_⟩
    · exact absurd (refused.symm.trans ok) refuses
    · rw [impatient] at patient
      cases patient

end

theorem simple_holding (rsrc : SimpleRsrc) :
    (Resource.simple rsrc).holding = (simpleLedger.held rsrc.data).map Prod.fst :=
  (heldPairs_fst rsrc.data.holders).symm

theorem numeric_holding (rsrc : NumericRsrc) :
    (Resource.numeric rsrc).holding = (numericLedger.held rsrc.data).map Prod.fst :=
  (heldPairs_fst rsrc.data.holders).symm

theorem set_holding (rsrc : SetRsrc) :
    (Resource.set rsrc).holding = (setLedger.held rsrc.data).map Prod.fst :=
  (setHeld_fst rsrc.data.elements).symm

theorem hier_holding (name : Name) (rsrc : HierRsrc) :
    (Resource.hier rsrc).holding = ((hierLedger name).held rsrc.data).map Prod.fst :=
  (hierHeld_fst rsrc.data.root).symm

theorem sequence_holding (rsrc : SequenceRsrc) :
    (Resource.sequence rsrc).holding = (sequenceLedger.held rsrc.data).map Prod.fst :=
  (sequenceHeld_fst rsrc.data.holders).symm

theorem timestamp_holding (rsrc : TimestampRsrc) :
    (Resource.timestamp rsrc).holding = (timestampLedger.held rsrc.data).map Prod.fst :=
  (heldPairs_fst rsrc.data.holders).symm

theorem answerOfReply_unposted (reply : ResourceReply) (msg : Msg)
    (done : (answerOfReply reply msg).rc = .ok) : (answerOfReply reply msg).msg.state ≠ .ready := by
  unfold answerOfReply at done ⊢
  split at done
  · next ok =>
    rw [if_pos ok]
    split at done
    · next freed =>
      simp [msgInit]
    · next rc spent unfreed freed => exact absurd done unfreed
  · next failed => exact absurd done failed

theorem resourceInmsg_lock {resource : Resource} {conn : ConnId} {lastStep : Int} {msg : Msg}
    {env : Env} (lock : msg.verb = .lock)
    (done : (resourceInmsg resource conn lastStep msg env).rc = .ok) :
    let answer := resourceInmsg resource conn lastStep msg env
    answer.msg.step = lastStep + msgStepIncr ∧
      ((msgAnswer answer.msg).rc = .ok → conn ∈ answer.resource.holding) ∧
      (resource.suits msg →
        (msgAnswer answer.msg).rc = .ok ∨ (msgAnswer answer.msg).rc = .lockEnqueued) := by
  cases resource with
  | simple rsrc =>
    simp only [resourceInmsg, resourceSimpleInmsg, lock, answerOfInmsg, simple_holding] at done ⊢
    obtain ⟨step, holds, waits⟩ := rsrcLock_honest simpleLedger (by simp) done
    exact ⟨step, holds, fun suits => waits (by simpa using suits.1)⟩
  | numeric rsrc =>
    simp only [resourceInmsg, resourceNumericInmsg, lock, answerOfInmsg, numeric_holding] at done ⊢
    have refuses : (numericRequest rsrc conn msg).refusal ≠ .ok := by
      unfold numericRequest
      dsimp only
      split <;> simp
    obtain ⟨step, holds, waits⟩ := rsrcLock_honest numericLedger refuses done
    refine ⟨step, holds, fun suits => waits ?_⟩
    have possible := suits.2 _ rfl
    simp [numericRequest, possible, suits.1]
  | set rsrc =>
    simp only [resourceInmsg, resourceSetInmsg, lock, answerOfInmsg, set_holding] at done ⊢
    obtain ⟨step, holds, waits⟩ := rsrcLock_honest setLedger (by simp) done
    exact ⟨step, holds, fun suits => waits (by simpa using suits.1)⟩
  | hier rsrc =>
    cases named : msg.lock8.name with
    | none =>
      simp [resourceInmsg, resourceHierInmsg, lock, named, answerOfInmsg, inmsgError] at done
    | some name =>
      simp only [resourceInmsg, resourceHierInmsg, lock, named, answerOfInmsg,
        hier_holding rsrc.name] at done ⊢
      obtain ⟨step, holds, waits⟩ := rsrcLock_honest (hierLedger rsrc.name) (by simp) done
      exact ⟨step, holds, fun suits => waits (by simpa using suits.1)⟩
  | sequence rsrc =>
    simp only [resourceInmsg, resourceSequenceInmsg, lock, answerOfInmsg, sequence_holding]
      at done ⊢
    obtain ⟨step, holds, waits⟩ := rsrcLock_honest sequenceLedger (by simp) done
    exact ⟨step, holds, fun suits => waits (by simpa using suits.1)⟩
  | timestamp rsrc =>
    simp only [resourceInmsg, resourceTimestampInmsg, lock, answerOfInmsg, timestamp_holding]
      at done ⊢
    obtain ⟨step, holds, waits⟩ := rsrcLock_honest timestampLedger (by simp) done
    exact ⟨step, holds, fun suits => waits (by simpa using suits.1)⟩

theorem resourceInmsg_posted {resource : Resource} {conn : ConnId} {lastStep : Int} {msg : Msg}
    {env : Env} (done : (resourceInmsg resource conn lastStep msg env).rc = .ok)
    (ready : (resourceInmsg resource conn lastStep msg env).msg.state = .ready) :
    msg.verb = .lock := by
  by_contra lock
  obtain ⟨target, _, _, law⟩ | ⟨rc, failed, law⟩ :=
    resourceInmsg_unlocked resource conn lastStep msg env lock
  · rw [law] at done ready
    exact answerOfReply_unposted _ msg done ready
  · rw [law] at done
    exact failed done

theorem replyOfCleaned_told {Data Wait H : Type} {m : Manager Data Wait ConnId} (l : Ledger m H)
    (wrap : Rsrc Data Wait → Resource)
    (holding : ∀ rsrc, (wrap rsrc).holding = (l.held rsrc.data).map Prod.fst)
    (cleaned : Cleaned Data Wait)
    (held : ∀ grant ∈ cleaned.granted, m.conn grant.2 ∈ (l.held cleaned.rsrc.data).map Prod.fst) :
    ∀ other ∈ (replyOfCleaned wrap m.conn cleaned).told,
      other ∈ (replyOfCleaned wrap m.conn cleaned).resource.holding := by
  intro other member
  obtain ⟨grant, granted, rfl⟩ := List.mem_map.mp member
  simp only [replyOfCleaned, holding]
  exact held grant granted

theorem resourceClean_told (resource : Resource) (conn : ConnId) (env : Env) :
    ∀ other ∈ (resourceClean resource conn env).told,
      other ∈ (resourceClean resource conn env).resource.holding := by
  cases resource with
  | simple rsrc =>
    exact replyOfCleaned_told simpleLedger .simple simple_holding _
      (rsrcClean_granted_held simpleLedger rsrc conn env.sends)
  | numeric rsrc =>
    exact replyOfCleaned_told numericLedger .numeric numeric_holding _
      (rsrcClean_granted_held numericLedger rsrc conn env.sends)
  | set rsrc =>
    exact replyOfCleaned_told setLedger .set set_holding _
      (rsrcClean_granted_held setLedger rsrc conn env.sends)
  | hier rsrc =>
    have held := rsrcClean_granted_held (hierLedger rsrc.name) rsrc conn env.sends
    refine replyOfCleaned_told (hierLedger rsrc.name) .hier (hier_holding rsrc.name) _ ?_
    intro grant granted
    rw [resourceHierClean, hierCollect_granted] at granted
    rw [show (hierLedger rsrc.name).held (resourceHierClean rsrc conn env.sends).rsrc.data =
      (hierLedger rsrc.name).held _ from hierCollect_held _]
    exact held grant granted
  | sequence rsrc =>
    exact replyOfCleaned_told sequenceLedger .sequence sequence_holding _
      (rsrcClean_granted_held sequenceLedger rsrc conn env.sends)
  | timestamp rsrc =>
    exact replyOfCleaned_told timestampLedger .timestamp timestamp_holding _
      (rsrcClean_granted_held timestampLedger (timestampSetClock rsrc env.clock) conn env.sends)

theorem resourceTimeout_told (resource : Resource) (env : Env) :
    ∀ other ∈ (resourceTimeout resource env).told,
      other ∈ (resourceTimeout resource env).resource.holding := by
  cases resource with
  | timestamp rsrc =>
    refine replyOfCleaned_told timestampLedger .timestamp timestamp_holding _ ?_
    unfold resourceTimestampTimeout
    dsimp only
    split_ifs
    · simp
    · simp only [resourceTimestampWaitings, rsrcWaitings, indexScan_eq_scan]
      exact timestampLedger.scan_granted_held Rc.ok _ _ env.sends
    · simp
  | simple rsrc | numeric rsrc | set rsrc | hier rsrc | sequence rsrc => simp [resourceTimeout]

theorem rsrcLock_granted {Data Wait : Type} (m : Manager Data Wait ConnId)
    (request : Request Data Wait) (rsrc : Rsrc Data Wait) (lastStep : Int) (msg : Msg) :
    (rsrcLock m request rsrc lastStep msg).granted = [] := by
  unfold rsrcLock
  split
  · split_ifs <;> rfl
  · rfl

theorem resourceInmsg_lock_told {resource : Resource} {conn : ConnId} {lastStep : Int} {msg : Msg}
    {env : Env} (lock : msg.verb = .lock) :
    (resourceInmsg resource conn lastStep msg env).told = [] := by
  cases resource with
  | simple rsrc =>
    simp [resourceInmsg, resourceSimpleInmsg, lock, answerOfInmsg, rsrcLock_granted]
  | numeric rsrc =>
    simp [resourceInmsg, resourceNumericInmsg, lock, answerOfInmsg, rsrcLock_granted]
  | set rsrc => simp [resourceInmsg, resourceSetInmsg, lock, answerOfInmsg, rsrcLock_granted]
  | hier rsrc =>
    cases named : msg.lock8.name with
    | none => simp [resourceInmsg, resourceHierInmsg, lock, named, answerOfInmsg, inmsgError]
    | some name =>
      simp [resourceInmsg, resourceHierInmsg, lock, named, answerOfInmsg, rsrcLock_granted]
  | sequence rsrc =>
    simp [resourceInmsg, resourceSequenceInmsg, lock, answerOfInmsg, rsrcLock_granted]
  | timestamp rsrc =>
    simp [resourceInmsg, resourceTimestampInmsg, lock, answerOfInmsg, rsrcLock_granted]

theorem resourceInmsg_told (resource : Resource) (conn : ConnId) (lastStep : Int) (msg : Msg)
    (env : Env) :
    ∀ other ∈ (resourceInmsg resource conn lastStep msg env).told,
      other ∈ (resourceInmsg resource conn lastStep msg env).resource.holding := by
  by_cases lock : msg.verb = .lock
  · simp [resourceInmsg_lock_told lock]
  · obtain ⟨target, _, _, law⟩ | ⟨rc, _, law⟩ :=
      resourceInmsg_unlocked resource conn lastStep msg env lock
    · rw [law, answerOfReply_told, answerOfReply_resource]
      exact resourceClean_told target conn env
    · simp [law]

theorem numericTotal_preserved (total : Int32) :
    Preserved numericManager.toOps (fun data => data.totalQuantity = total) fun _ => True :=
  ⟨fun _ _ same _ _ => same, fun _ _ same _ _ => same, fun _ _ same => same⟩

theorem numericTotal_release (total : Int32) (data : NumericData) (conn : ConnId)
    (freed : NumericData) (same : data.totalQuantity = total)
    (released : numericManager.release data conn = some freed) :
    freed.totalQuantity = total := by
  obtain ⟨_, _, rfl⟩ := Option.map_eq_some_iff.mp released
  exact same

theorem resourceClean_capacity (resource : Resource) (conn : ConnId) (env : Env) :
    (resourceClean resource conn env).resource.capacity = resource.capacity := by
  cases resource with
  | numeric rsrc =>
    have sound := rsrcClean_sound (numericTotal_preserved rsrc.data.totalQuantity)
      (numericTotal_release rsrc.data.totalQuantity) rsrc conn env.sends ⟨rfl, fun _ _ => trivial⟩
    exact congrArg some sound.data
  | simple rsrc | set rsrc | hier rsrc | sequence rsrc | timestamp rsrc => rfl

theorem resourceTimeout_capacity (resource : Resource) (env : Env) :
    (resourceTimeout resource env).resource.capacity = resource.capacity := by
  cases resource <;> rfl

theorem unlocking_capacity {resource target : Resource} {conn : ConnId} {msg : Msg}
    (accepted : resource.unlocking conn msg = some target) :
    target.capacity = resource.capacity := by
  obtain rfl | ⟨_, _, rfl, rfl, _⟩ | ⟨_, _, rfl, rfl, _⟩ := unlocking_cases accepted <;> rfl

theorem resourceInmsg_keeps {Key : Type} (key : Resource → Key)
    (lock : ∀ resource conn lastStep msg env, msg.verb = .lock →
      key (resourceInmsg resource conn lastStep msg env).resource = key resource)
    (unlocking : ∀ resource conn msg target, resource.unlocking conn msg = some target →
      key target = key resource)
    (clean : ∀ resource conn env, key (resourceClean resource conn env).resource = key resource)
    (resource : Resource) (conn : ConnId) (lastStep : Int) (msg : Msg) (env : Env) :
    key (resourceInmsg resource conn lastStep msg env).resource = key resource := by
  by_cases locks : msg.verb = .lock
  · exact lock resource conn lastStep msg env locks
  · obtain ⟨target, _, accepted, law⟩ | ⟨rc, _, law⟩ :=
      resourceInmsg_unlocked resource conn lastStep msg env locks
    · rw [law, answerOfReply_resource, clean, unlocking resource conn msg target accepted]
    · rw [law]

theorem resourceInmsg_capacity (resource : Resource) (conn : ConnId) (lastStep : Int) (msg : Msg)
    (env : Env) :
    (resourceInmsg resource conn lastStep msg env).resource.capacity = resource.capacity := by
  apply resourceInmsg_keeps Resource.capacity
  · intro resource conn lastStep msg env lock
    cases resource with
    | numeric rsrc =>
      simp only [resourceInmsg, resourceNumericInmsg, lock, answerOfInmsg]
      have sound := rsrcLock_sound (numericTotal_preserved rsrc.data.totalQuantity)
        (numericRequest rsrc conn msg) rsrc lastStep msg ⟨rfl, fun _ _ => trivial⟩ trivial
      exact congrArg some sound.data
    | simple rsrc | set rsrc | hier rsrc | sequence rsrc | timestamp rsrc => rfl
  · exact fun _ _ _ _ accepted => unlocking_capacity accepted
  · exact resourceClean_capacity

theorem resourceInit_capacity {type : RsrcType} {name asked : Name} {resource : Resource}
    {total : Int32} (started : resourceInit type name = .ok resource)
    (matches_ : resourceCompareName resource asked = true)
    (limited : resource.capacity = some total) :
    type = .numeric ∧ asked = name ∧ rsrcGetNumber name .numeric = .ok total := by
  cases type with
  | null => cases started
  | simple | set =>
    obtain rfl := Except.ok.inj started
    cases limited
  | hier | sequence | timestamp =>
    obtain ⟨_, _, rfl⟩ := except_map_ok started
    cases limited
  | numeric =>
    obtain ⟨_, made, rfl⟩ := except_map_ok started
    obtain ⟨declared, number, rfl⟩ := resourceNumericInit_ok made
    obtain rfl : declared = total := Option.some.inj limited
    exact ⟨rfl, (of_decide_eq_true matches_).symm, number⟩

end Flom
