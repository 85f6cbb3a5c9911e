import Flom.ResourceHierExclusion
import Flom.ResourceNumeric
import Flom.ResourceSequence
import Flom.ResourceSet
import Flom.ResourceSimple
import Flom.ResourceTimestamp

set_option autoImplicit false

namespace Flom

open Scan

inductive Resource where
  | simple (rsrc : SimpleRsrc)
  | numeric (rsrc : NumericRsrc)
  | set (rsrc : SetRsrc)
  | hier (rsrc : HierRsrc)
  | sequence (rsrc : SequenceRsrc)
  | timestamp (rsrc : TimestampRsrc)

-- `told` lists the connections whose queued request was granted, `failed` the one that could not
-- be told.
structure ResourceReply where
  rc : Rc
  resource : Resource
  told : List ConnId
  failed : Option ConnId

structure ResourceAnswer extends ResourceReply where
  msg : Msg

section

variable {Data Wait : Type}

def replyOfCleaned (wrap : Rsrc Data Wait → Resource) (conn : Wait → ConnId)
    (cleaned : Cleaned Data Wait) : ResourceReply :=
  ⟨cleaned.rc, wrap cleaned.rsrc, cleaned.granted.map fun grant => conn grant.2,
    cleaned.failed.map conn⟩

def answerOfInmsg (wrap : Rsrc Data Wait → Resource) (conn : Wait → ConnId)
    (inmsg : Inmsg Data Wait) : ResourceAnswer :=
  { rc := inmsg.rc
    resource := wrap inmsg.rsrc
    told := inmsg.granted.map fun grant => conn grant.2
    failed := inmsg.failed.map conn
    msg := inmsg.msg }

end

def resourceInit (type : RsrcType) (name : Name) : Except Rc Resource :=
  match type with
  | .null => .error .outOfRange
  | .simple => .ok (.simple (resourceSimpleInit name))
  | .numeric => (resourceNumericInit name).map .numeric
  | .set => .ok (.set (resourceSetInit name))
  | .hier => (resourceHierInit name).map .hier
  | .sequence => (resourceSequenceInit name).map .sequence
  | .timestamp => (resourceTimestampInit name).map .timestamp

theorem except_map_ok {Start Result : Type} {start : Start → Result} {result : Except Rc Start}
    {made : Result} (started : result.map start = .ok made) : ∃ value, result = .ok value ∧
    made = start value := by
  cases result with
  | error rc => cases started
  | ok value => exact ⟨value, rfl, (Except.ok.inj started).symm⟩

theorem except_map_error {Start Result : Type} {start : Start → Result} {result : Except Rc Start}
    {rc : Rc} (failed : result.map start = .error rc) : result = .error rc := by
  cases result with
  | error other => rw [Except.error.inj failed]
  | ok value => cases failed

-- Only the hierarchical manager can leave a pointer unset that is followed later.
theorem resourceInit_crash {type : RsrcType} {name : Name}
    (failed : resourceInit type name = .error .crash) : type = .hier := by
  cases type with
  | hier => rfl
  | null | simple | set => cases failed
  | numeric => cases resourceNumericInit_error (except_map_error failed)
  | sequence => cases resourceSequenceInit_error (except_map_error failed)
  | timestamp => cases resourceTimestampInit_error (except_map_error failed) <;> contradiction

def resourceInmsg (resource : Resource) (conn : ConnId) (lastStep : Int) (msg : Msg) (env : Env) :
    ResourceAnswer :=
  match resource with
  | .simple rsrc =>
    answerOfInmsg .simple ConnLock.conn (resourceSimpleInmsg rsrc conn lastStep msg env.sends)
  | .numeric rsrc =>
    answerOfInmsg .numeric ConnLock.conn (resourceNumericInmsg rsrc conn lastStep msg env.sends)
  | .set rsrc =>
    answerOfInmsg .set ConnLock.conn (resourceSetInmsg rsrc conn lastStep msg env.sends)
  | .hier rsrc =>
    answerOfInmsg .hier HierWait.conn (resourceHierInmsg rsrc conn lastStep msg env.sends)
  | .sequence rsrc =>
    answerOfInmsg .sequence ConnLock.conn (resourceSequenceInmsg rsrc conn lastStep msg env.sends)
  | .timestamp rsrc =>
    answerOfInmsg .timestamp ConnLock.conn (resourceTimestampInmsg rsrc conn lastStep msg env)

def resourceClean (resource : Resource) (conn : ConnId) (env : Env) : ResourceReply :=
  match resource with
  | .simple rsrc => replyOfCleaned .simple ConnLock.conn (resourceSimpleClean rsrc conn env.sends)
  | .numeric rsrc =>
    replyOfCleaned .numeric ConnLock.conn (resourceNumericClean rsrc conn env.sends)
  | .set rsrc => replyOfCleaned .set ConnLock.conn (resourceSetClean rsrc conn env.sends)
  | .hier rsrc => replyOfCleaned .hier HierWait.conn (resourceHierClean rsrc conn env.sends)
  | .sequence rsrc =>
    replyOfCleaned .sequence ConnLock.conn (resourceSequenceClean rsrc conn env.sends)
  | .timestamp rsrc =>
    replyOfCleaned .timestamp ConnLock.conn (resourceTimestampClean rsrc conn env)

def resourceTimeout (resource : Resource) (env : Env) : ResourceReply :=
  match resource with
  | .timestamp rsrc => replyOfCleaned .timestamp ConnLock.conn (resourceTimestampTimeout rsrc env)
  | _ => ⟨.ok, resource, [], none⟩

def resourceCompareName (resource : Resource) (name : Name) : Bool :=
  match resource with
  | .simple rsrc => rsrc.name = name
  | .numeric rsrc => rsrc.name = name
  | .set rsrc => rsrc.name = name
  | .hier rsrc => resourceHierCompareName rsrc name
  | .sequence rsrc => rsrc.name = name
  | .timestamp rsrc => rsrc.name = name

theorem resourceInit_compare {type : RsrcType} {name : Name} {resource : Resource}
    (started : resourceInit type name = .ok resource) :
    resourceCompareName resource name = true := by
  cases type with
  | null => cases started
  | simple | set =>
    obtain rfl := Except.ok.inj started
    simp [resourceCompareName, resourceSimpleInit, resourceSetInit]
  | numeric =>
    obtain ⟨_, made, rfl⟩ := except_map_ok started
    obtain ⟨_, _, rfl⟩ := resourceNumericInit_ok made
    simp [resourceCompareName]
  | hier =>
    obtain ⟨rsrc, made, rfl⟩ := except_map_ok started
    exact (resourceHierInit_ok made).1
  | sequence =>
    obtain ⟨rsrc, made, rfl⟩ := except_map_ok started
    simp [resourceCompareName, (resourceSequenceInit_ok made).1]
  | timestamp =>
    obtain ⟨rsrc, made, rfl⟩ := except_map_ok started
    simp [resourceCompareName, (resourceTimestampInit_ok made).1]

def resourceStep (resource : Resource) : Call → Resource
  | .inmsg conn lastStep msg env => (resourceInmsg resource conn lastStep msg env).resource
  | .clean conn env => (resourceClean resource conn env).resource

def Resource.holding : Resource → List ConnId
  | .simple rsrc => rsrc.data.holders.map ConnLock.conn
  | .numeric rsrc => rsrc.data.holders.map ConnLock.conn
  | .set rsrc => rsrc.data.elements.filterMap SetElement.conn
  | .hier rsrc => rsrc.data.root.entries.map fun entry => entry.2.conn
  | .sequence rsrc => rsrc.data.holders.map ConnLock.conn
  | .timestamp rsrc => rsrc.data.holders.map ConnLock.conn

def Resource.waiting : Resource → List ConnId
  | .simple rsrc => rsrc.waitings.map ConnLock.conn
  | .numeric rsrc => rsrc.waitings.map ConnLock.conn
  | .set rsrc => rsrc.waitings.map ConnLock.conn
  | .hier rsrc => rsrc.waitings.map HierWait.conn
  | .sequence rsrc => rsrc.waitings.map ConnLock.conn
  | .timestamp rsrc => rsrc.waitings.map ConnLock.conn

def Resource.records (resource : Resource) (conn : ConnId) : Nat :=
  resource.holding.count conn + resource.waiting.count conn

theorem Resource.records_eq_zero {resource : Resource} {conn : ConnId} :
    resource.records conn = 0 ↔ conn ∉ resource.holding ∧ conn ∉ resource.waiting := by
  simp [Resource.records, List.count_eq_zero]

def Resource.unlocking (resource : Resource) (conn : ConnId) (msg : Msg) : Option Resource :=
  match resource with
  | .simple rsrc => if some rsrc.name = msg.unlock8.name then some resource else none
  | .numeric rsrc => if some rsrc.name = msg.unlock8.name then some resource else none
  | .set rsrc => if some rsrc.name = msg.unlock8.name then some resource else none
  | .hier rsrc =>
    msg.unlock8.name.bind fun name =>
      if resourceHierCompareName rsrc name then some (.hier (resourceHierChangeName rsrc name))
      else none
  | .sequence rsrc =>
    if some rsrc.name = msg.unlock8.name then
      (rsrcConnFind rsrc.data.holders conn).map fun _ =>
        .sequence (sequenceMarked rsrc (msg.unlock8.rollback ≠ 0) conn)
    else none
  | .timestamp rsrc => if some rsrc.name = msg.unlock8.name then some resource else none

theorem unlocking_cases {resource target : Resource} {conn : ConnId} {msg : Msg}
    (accepted : resource.unlocking conn msg = some target) :
    target = resource ∨
      (∃ rsrc name, resource = .hier rsrc ∧ target = .hier (resourceHierChangeName rsrc name) ∧
        msg.unlock8.name = some name ∧ resourceHierCompareName rsrc name = true) ∨
      ∃ rsrc holder, resource = .sequence rsrc ∧
        target = .sequence (sequenceMarked rsrc (msg.unlock8.rollback ≠ 0) conn) ∧
        some rsrc.name = msg.unlock8.name ∧ rsrcConnFind rsrc.data.holders conn = some holder := by
  cases resource with
  | simple rsrc | numeric rsrc | set rsrc | timestamp rsrc =>
    simp only [Resource.unlocking] at accepted
    split_ifs at accepted
    exact .inl (Option.some.inj accepted).symm
  | hier rsrc =>
    obtain ⟨name, named, chosen⟩ := Option.bind_eq_some_iff.mp accepted
    split_ifs at chosen with same
    exact .inr (.inl ⟨rsrc, name, rfl, (Option.some.inj chosen).symm, named, same⟩)
  | sequence rsrc =>
    simp only [Resource.unlocking] at accepted
    split_ifs at accepted with same
    obtain ⟨holder, found, rfl⟩ := Option.map_eq_some_iff.mp accepted
    exact .inr (.inr ⟨rsrc, holder, rfl, rfl, same, found⟩)

def answerOfReply (reply : ResourceReply) (msg : Msg) : ResourceAnswer :=
  if reply.rc = .ok then
    match msgFree msg with
    | (.ok, _) => { reply with rc := .ok, msg := msgInit }
    | (rc, spent) => { reply with rc := rc, msg := spent }
  else { reply with msg := msg }

section

variable (reply : ResourceReply) (msg : Msg)

theorem answerOfReply_resource : (answerOfReply reply msg).resource = reply.resource := by
  unfold answerOfReply
  split
  · split <;> rfl
  · rfl

theorem answerOfReply_told : (answerOfReply reply msg).told = reply.told := by
  unfold answerOfReply
  split
  · split <;> rfl
  · rfl

theorem answerOfReply_failed : (answerOfReply reply msg).failed = reply.failed := by
  unfold answerOfReply
  split
  · split <;> rfl
  · rfl

end

section

variable {Data Wait : Type} (wrap : Rsrc Data Wait → Resource) (conn : Wait → ConnId)

theorem answerOfInmsg_cleaned (cleaned : Cleaned Data Wait) (msg : Msg) :
    answerOfInmsg wrap conn (inmsgOfCleaned cleaned msg) =
      answerOfReply (replyOfCleaned wrap conn cleaned) msg := by
  unfold answerOfReply inmsgOfCleaned replyOfCleaned
  by_cases done : cleaned.rc = .ok
  · simp only [done, if_true]
    obtain ⟨rc, spent⟩ := msgFree msg
    cases rc <;> rfl
  · simp only [done, if_false]
    rfl

theorem answerOfInmsg_unlock (cleaned : Cleaned Data Wait) (rsrc : Rsrc Data Wait) (msg : Msg) :
    answerOfInmsg wrap conn (rsrcUnlock cleaned rsrc msg) =
      if some rsrc.name = msg.unlock8.name then answerOfReply (replyOfCleaned wrap conn cleaned) msg
      else ⟨⟨unlockRefusal msg, wrap rsrc, [], none⟩, msg⟩ := by
  unfold rsrcUnlock
  split
  · exact answerOfInmsg_cleaned wrap conn cleaned msg
  · rfl

end

theorem resourceInmsg_unlock (resource : Resource) (conn : ConnId) (lastStep : Int) (msg : Msg)
    (env : Env) (unlock : msg.verb = .unlock) :
    match resource.unlocking conn msg with
    | some target =>
      resourceInmsg resource conn lastStep msg env = answerOfReply
        (resourceClean target conn env) msg
    | none =>
      ∃ rc ≠ Rc.ok,
          resourceInmsg resource conn lastStep msg env = ⟨⟨rc, resource, [], none⟩, msg⟩ := by
  cases resource with
  | simple rsrc =>
    simp only [resourceInmsg, resourceSimpleInmsg, unlock, answerOfInmsg_unlock, Resource.unlocking]
    by_cases same : some rsrc.name = msg.unlock8.name <;> simp [same, resourceClean]
  | numeric rsrc =>
    simp only [resourceInmsg, resourceNumericInmsg, unlock, answerOfInmsg_unlock,
      Resource.unlocking]
    by_cases same : some rsrc.name = msg.unlock8.name <;> simp [same, resourceClean]
  | set rsrc =>
    simp only [resourceInmsg, resourceSetInmsg, unlock, answerOfInmsg_unlock, Resource.unlocking]
    by_cases same : some rsrc.name = msg.unlock8.name <;> simp [same, resourceClean]
  | timestamp rsrc =>
    simp only [resourceInmsg, resourceTimestampInmsg, unlock, answerOfInmsg_unlock,
      Resource.unlocking]
    by_cases same : some rsrc.name = msg.unlock8.name <;> simp [same, resourceClean]
  | hier rsrc =>
    simp only [resourceInmsg, resourceHierInmsg, unlock, Resource.unlocking]
    cases named : msg.unlock8.name with
    | none => exact ⟨.crash, by simp, rfl⟩
    | some name =>
      unfold resourceHierUnlock
      by_cases same : resourceHierCompareName rsrc name = true
      · simp [same, answerOfInmsg_cleaned, resourceClean]
      · simp only [same, Option.bind_some]
        exact ⟨.invalidResourceName, by simp, rfl⟩
  | sequence rsrc =>
    simp only [resourceInmsg, resourceSequenceInmsg, unlock, resourceSequenceUnlock,
      Resource.unlocking]
    by_cases same : some rsrc.name = msg.unlock8.name
    · cases found : rsrcConnFind rsrc.data.holders conn with
      | some holder => simp [same, answerOfInmsg_cleaned, resourceClean]
      | none =>
        simp only [same, if_true, Option.map_none]
        exact ⟨.objCorrupted, by simp, rfl⟩
    · simp only [same, if_false]
      exact ⟨unlockRefusal msg, by simp, rfl⟩

theorem resourceInmsg_other (resource : Resource) (conn : ConnId) (lastStep : Int) (msg : Msg)
    (env : Env) (lock : msg.verb ≠ .lock) (unlock : msg.verb ≠ .unlock) :
    resourceInmsg resource conn lastStep msg env = ⟨⟨.protocolError, resource, [], none⟩, msg⟩ := by
  cases resource with
  | simple rsrc => simp [resourceInmsg, resourceSimpleInmsg, answerOfInmsg, inmsgError]
  | numeric rsrc => simp [resourceInmsg, resourceNumericInmsg, answerOfInmsg, inmsgError]
  | set rsrc => simp [resourceInmsg, resourceSetInmsg, answerOfInmsg, inmsgError]
  | hier rsrc => simp [resourceInmsg, resourceHierInmsg, answerOfInmsg, inmsgError]
  | sequence rsrc => simp [resourceInmsg, resourceSequenceInmsg, answerOfInmsg, inmsgError]
  | timestamp rsrc => simp [resourceInmsg, resourceTimestampInmsg, answerOfInmsg, inmsgError]

theorem resourceInmsg_unlocked (resource : Resource) (conn : ConnId) (lastStep : Int) (msg : Msg)
    (env : Env) (lock : msg.verb ≠ .lock) :
    (∃ target, msg.verb = .unlock ∧ resource.unlocking conn msg = some target ∧
      resourceInmsg resource conn lastStep msg env = answerOfReply
        (resourceClean target conn env) msg) ∨
      ∃ rc ≠ Rc.ok,
          resourceInmsg resource conn lastStep msg env = ⟨⟨rc, resource, [], none⟩, msg⟩ := by
  by_cases unlock : msg.verb = .unlock
  · have law := resourceInmsg_unlock resource conn lastStep msg env unlock
    cases accepted : resource.unlocking conn msg with
    | some target =>
      simp only [accepted] at law
      exact .inl ⟨target, unlock, rfl, law⟩
    | none =>
      simp only [accepted] at law
      exact .inr law
  · exact .inr
      ⟨.protocolError, by simp, resourceInmsg_other resource conn lastStep msg env lock unlock⟩

theorem rsrcClean_rc_of_sent {Data Wait : Type} (m : Manager Data Wait ConnId)
    (rsrc : Rsrc Data Wait) (conn : ConnId) (sends : List Rc) (sent : ∀ send ∈ sends, send = .ok) :
    (rsrcClean m rsrc conn sends).rc = .ok := by
  cases released : m.release rsrc.data conn with
  | some freed =>
    rw [rsrcClean, m.clean_of_some Rc.ok rsrc.data freed rsrc.waitings conn sends released]
    exact scan_rc_ok_of_sent m.toOps Rc.ok freed rsrc.waitings sends sent
  | none => rw [rsrcClean, m.clean_of_none Rc.ok rsrc.data rsrc.waitings conn sends released]

theorem resourceClean_rc_of_sent (resource : Resource) (conn : ConnId) (env : Env)
    (sent : ∀ send ∈ env.sends, send = .ok) : (resourceClean resource conn env).rc = .ok := by
  cases resource with
  | hier rsrc => exact (hierCollect_rc _).trans (rsrcClean_rc_of_sent _ rsrc conn env.sends sent)
  | timestamp rsrc =>
    exact rsrcClean_rc_of_sent _ (timestampSetClock rsrc env.clock) conn env.sends sent
  | simple rsrc | numeric rsrc | set rsrc | sequence rsrc =>
    exact rsrcClean_rc_of_sent _ rsrc conn env.sends sent

theorem resourceTimeout_rc_of_sent (resource : Resource) (env : Env)
    (sent : ∀ send ∈ env.sends, send = .ok) : (resourceTimeout resource env).rc = .ok := by
  cases resource with
  | timestamp rsrc =>
    simp only [resourceTimeout, replyOfCleaned, resourceTimestampTimeout]
    split
    · rfl
    · split
      · simp only [resourceTimestampWaitings, rsrcWaitings, indexScan_eq_scan]
        exact scan_rc_ok_of_sent _ _ _ _ _ sent
      · rfl
  | simple rsrc | numeric rsrc | set rsrc | hier rsrc | sequence rsrc => rfl

end Flom
