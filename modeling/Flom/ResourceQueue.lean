import Flom.ResourceGrant

set_option autoImplicit false

namespace Flom

open Scan

structure Resource.Serves (before : Resource) (reply : ResourceReply) : Prop where
  told : reply.told ⊆ before.waiting
  waiting : reply.resource.waiting ⊆ before.waiting

theorem replyOfCleaned_serves {Data Wait : Type} {m : Manager Data Wait ConnId} {before : Resource}
    {wrap : Rsrc Data Wait → Resource} {waitings : List Wait} {cleaned : Cleaned Data Wait}
    (queue : ∀ rsrc, (wrap rsrc).waiting = rsrc.waitings.map m.conn)
    (same : before.waiting = waitings.map m.conn)
    (granted : cleaned.granted.map Prod.snd ⊆ waitings)
    (shorter : cleaned.rsrc.waitings ⊆ waitings) :
    before.Serves (replyOfCleaned wrap m.conn cleaned) := by
  constructor
  · intro conn member
    obtain ⟨grant, granted', rfl⟩ := List.mem_map.mp member
    rw [same]
    exact List.mem_map_of_mem (granted (List.mem_map_of_mem granted'))
  · rw [same, replyOfCleaned, queue]
    exact List.map_subset m.conn shorter

theorem rsrcClean_serves {Data Wait : Type} {m : Manager Data Wait ConnId}
    {wrap : Rsrc Data Wait → Resource}
    (queue : ∀ rsrc, (wrap rsrc).waiting = rsrc.waitings.map m.conn) (rsrc : Rsrc Data Wait)
    (conn : ConnId) (sends : List Rc) :
    (wrap rsrc).Serves (replyOfCleaned wrap m.conn (rsrcClean m rsrc conn sends)) :=
  replyOfCleaned_serves queue (queue rsrc)
    (m.clean_granted_subset Rc.ok rsrc.data rsrc.waitings conn sends)
    (m.clean_queue_sublist Rc.ok rsrc.data rsrc.waitings conn sends).subset

theorem resourceClean_serves (resource : Resource) (conn : ConnId) (env : Env) :
    resource.Serves (resourceClean resource conn env) := by
  cases resource with
  | simple rsrc =>
    exact @rsrcClean_serves _ _ simpleManager .simple (fun _ => rfl) rsrc conn env.sends
  | numeric rsrc =>
    exact @rsrcClean_serves _ _ numericManager .numeric (fun _ => rfl) rsrc conn env.sends
  | set rsrc => exact @rsrcClean_serves _ _ setManager .set (fun _ => rfl) rsrc conn env.sends
  | sequence rsrc =>
    exact @rsrcClean_serves _ _ sequenceManager .sequence (fun _ => rfl) rsrc conn env.sends
  | hier rsrc =>
    have cleaned := @rsrcClean_serves _ _ (hierManager rsrc.name) .hier
      (fun _ => rfl) rsrc conn env.sends
    refine ⟨?_, ?_⟩
    · intro other member
      simp only [resourceClean, replyOfCleaned, resourceHierClean, hierCollect_granted] at member
      exact cleaned.told member
    · simp only [resourceClean, replyOfCleaned, resourceHierClean, Resource.waiting,
        hierCollect_waitings]
      exact cleaned.waiting
  | timestamp rsrc =>
    have cleaned := @rsrcClean_serves _ _ timestampManager .timestamp (fun _ => rfl)
      (timestampSetClock rsrc env.clock) conn env.sends
    exact ⟨cleaned.told, cleaned.waiting⟩

theorem resourceTimeout_serves (resource : Resource) (env : Env) :
    resource.Serves (resourceTimeout resource env) := by
  have idle : resource.Serves ⟨.ok, resource, [], none⟩ := ⟨List.nil_subset _, List.Subset.refl _⟩
  cases resource with
  | timestamp rsrc =>
    refine @replyOfCleaned_serves _ _ timestampManager _ .timestamp rsrc.waitings _
      (fun _ => rfl) rfl ?_ ?_
    · unfold resourceTimestampTimeout
      dsimp only
      split_ifs
      · simp
      · simp only [resourceTimestampWaitings, rsrcWaitings, indexScan_eq_scan]
        exact scan_granted_subset timestampManager.toOps Rc.ok _ rsrc.waitings env.sends
      · simp
    · unfold resourceTimestampTimeout
      dsimp only
      split_ifs
      · exact List.Subset.refl _
      · simp only [resourceTimestampWaitings, rsrcWaitings, indexScan_eq_scan]
        exact (scan_queue_sublist timestampManager.toOps Rc.ok _ rsrc.waitings env.sends).subset
      · exact List.Subset.refl _
  | simple rsrc | numeric rsrc | set rsrc | hier rsrc | sequence rsrc => exact idle

theorem unlocking_waiting {resource target : Resource} {conn : ConnId} {msg : Msg}
    (accepted : resource.unlocking conn msg = some target) : target.waiting = resource.waiting := by
  obtain rfl | ⟨_, _, rfl, rfl, _⟩ | ⟨_, _, rfl, rfl, _⟩ := unlocking_cases accepted <;> rfl

theorem rsrcLock_waiting {Data Wait : Type} (m : Manager Data Wait ConnId)
    (request : Request Data Wait) (rsrc : Rsrc Data Wait) (lastStep : Int) (msg : Msg) :
    (rsrcLock m request rsrc lastStep msg).rsrc.waitings.map m.conn ⊆
      m.conn request.waiter :: rsrc.waitings.map m.conn := by
  obtain same | ⟨_, same⟩ | ⟨_, same⟩ := rsrcLock_rsrc m request rsrc lastStep msg
  · rw [same]
    exact List.subset_cons_self _ _
  · rw [same]
    exact List.subset_cons_self _ _
  · rw [same]
    simp

theorem resourceLock_waiting {resource : Resource} {conn : ConnId} {lastStep : Int} {msg : Msg}
    {env : Env} (lock : msg.verb = .lock) :
    (resourceInmsg resource conn lastStep msg env).resource.waiting ⊆ conn :: resource.waiting := by
  cases resource with
  | simple rsrc =>
    simp only [resourceInmsg, resourceSimpleInmsg, lock, answerOfInmsg, Resource.waiting]
    exact rsrcLock_waiting simpleManager _ rsrc lastStep msg
  | numeric rsrc =>
    simp only [resourceInmsg, resourceNumericInmsg, lock, answerOfInmsg, Resource.waiting]
    exact rsrcLock_waiting numericManager _ rsrc lastStep msg
  | set rsrc =>
    simp only [resourceInmsg, resourceSetInmsg, lock, answerOfInmsg, Resource.waiting]
    exact rsrcLock_waiting setManager _ rsrc lastStep msg
  | hier rsrc =>
    cases named : msg.lock8.name with
    | none =>
      simp only [resourceInmsg, resourceHierInmsg, lock, named, answerOfInmsg, inmsgError]
      exact List.subset_cons_self _ _
    | some name =>
      simp only [resourceInmsg, resourceHierInmsg, lock, named, answerOfInmsg, Resource.waiting]
      exact rsrcLock_waiting (hierManager rsrc.name) _ rsrc lastStep msg
  | sequence rsrc =>
    simp only [resourceInmsg, resourceSequenceInmsg, lock, answerOfInmsg, Resource.waiting]
    exact rsrcLock_waiting sequenceManager _ rsrc lastStep msg
  | timestamp rsrc =>
    simp only [resourceInmsg, resourceTimestampInmsg, lock, answerOfInmsg, Resource.waiting]
    exact rsrcLock_waiting timestampManager _ (timestampSetClock rsrc env.clock) lastStep msg

theorem resourceInmsg_serves (resource : Resource) (conn : ConnId) (lastStep : Int) (msg : Msg)
    (env : Env) :
    (resourceInmsg resource conn lastStep msg env).told ⊆ resource.waiting ∧
      (resourceInmsg resource conn lastStep msg env).resource.waiting ⊆ conn ::
        resource.waiting := by
  by_cases lock : msg.verb = .lock
  · exact ⟨by simp [resourceInmsg_lock_told lock], resourceLock_waiting lock⟩
  obtain ⟨target, _, accepted, law⟩ | ⟨rc, _, law⟩ :=
    resourceInmsg_unlocked resource conn lastStep msg env lock
  · have served := resourceClean_serves target conn env
    rw [law, answerOfReply_told, answerOfReply_resource, ← unlocking_waiting accepted]
    exact ⟨served.told, List.Subset.trans served.waiting (List.subset_cons_self _ _)⟩
  · rw [law]
    exact ⟨List.nil_subset _, List.subset_cons_self _ _⟩

theorem resourceInit_waiting {type : RsrcType} {name : Name} {resource : Resource}
    (started : resourceInit type name = .ok resource) : resource.waiting = [] := by
  cases type with
  | null => cases started
  | simple | set =>
    obtain rfl := Except.ok.inj started
    rfl
  | numeric =>
    obtain ⟨_, made, rfl⟩ := except_map_ok started
    obtain ⟨_, _, rfl⟩ := resourceNumericInit_ok made
    rfl
  | hier =>
    obtain ⟨rsrc, made, rfl⟩ := except_map_ok started
    simp [Resource.waiting, (resourceHierInit_ok made).2]
  | sequence =>
    obtain ⟨rsrc, made, rfl⟩ := except_map_ok started
    simp [Resource.waiting, (resourceSequenceInit_ok made).2]
  | timestamp =>
    obtain ⟨rsrc, made, rfl⟩ := except_map_ok started
    simp [Resource.waiting, (resourceTimestampInit_ok made).2]

end Flom
