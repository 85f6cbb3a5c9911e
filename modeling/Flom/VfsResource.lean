import Flom.Disconnect
import Flom.Lib.Run
import Flom.ResourceKept
import Flom.ResourceQueue
import Flom.Vfs

set_option autoImplicit false

namespace Flom

open Scan

section

variable {Data Wait : Type}

def rsrcLockNode (m : Manager Data Wait ConnId) (request : Request Data Wait)
    (rsrc : Rsrc Data Wait) (msg : Msg) : Option Bool :=
  if (msgFree msg).1 = .ok then
    if m.can rsrc.data request.waiter then some true
    else if request.wait then some false
    else none
  else none

def rsrcCleanTold (m : Manager Data Wait ConnId) (rsrc : Rsrc Data Wait) (conn : ConnId)
    (sends : List Rc) : Prop :=
  ∀ freed ∈ m.release rsrc.data conn, EverySent m.toOps Rc.ok freed rsrc.waitings sends

theorem rsrcCleanTold_iff (m : Manager Data Wait ConnId) (rsrc : Rsrc Data Wait) (conn : ConnId)
    (sends : List Rc) :
    rsrcCleanTold m rsrc conn sends ↔ (rsrcClean m rsrc conn sends).failed = none := by
  unfold rsrcCleanTold
  cases released : m.release rsrc.data conn with
  | some freed =>
    rw [rsrcClean, m.clean_of_some Rc.ok rsrc.data freed rsrc.waitings conn sends released]
    simp [everySent_iff]
  | none => simp [rsrcClean, m.clean_of_none Rc.ok rsrc.data rsrc.waitings conn sends released]

end

def Resource.lockNode (resource : Resource) (conn : ConnId) (msg : Msg) (env : Env) : Option Bool :=
  match resource with
  | .simple rsrc =>
    rsrcLockNode simpleManager ⟨⟨conn, msg.lock8.mode⟩, msg.lock8.wait ≠ 0, .lockBusy, fun _ =>
      none⟩ rsrc msg
  | .numeric rsrc => rsrcLockNode numericManager (numericRequest rsrc conn msg) rsrc msg
  | .set rsrc =>
    rsrcLockNode setManager ⟨⟨conn, ()⟩, msg.lock8.wait ≠ 0, .lockBusy, setElementName⟩ rsrc msg
  | .hier rsrc => msg.lock8.name.bind fun name =>
      rsrcLockNode (hierManager rsrc.name)
        ⟨⟨conn, msg.lock8.mode, name⟩, msg.lock8.wait ≠ 0, .lockBusy, fun _ => none⟩ rsrc msg
  | .sequence rsrc =>
    rsrcLockNode sequenceManager
      ⟨⟨conn, ()⟩, msg.lock8.wait ≠ 0, .lockBusy, fun data => some (sequenceElement data)⟩ rsrc msg
  | .timestamp rsrc =>
    rsrcLockNode timestampManager
      ⟨⟨conn, ()⟩, msg.lock8.wait ≠ 0, .lockBusy, fun data =>
        some (timestampElement env.strftime data)⟩
      (timestampSetClock rsrc env.clock) msg

/-- The other managers tell the tree before they build the answer, these after it. -/
def Resource.tellsLate : Resource → Bool → Bool
  | .sequence _, _ => true
  | .timestamp _, holder => holder
  | .simple _, _ | .numeric _, _ | .set _, _ | .hier _, _ => false

def resourceLockCalls (resource : Resource) (locker conn : ConnId) (lastStep : Int) (msg : Msg)
    (env : Env) :
    List VfsCall :=
  match resource.lockNode conn msg env with
  | some holder =>
    if resource.tellsLate holder = true ∧
        (resourceInmsg resource conn lastStep msg env).rc ≠ .ok then []
    else [.addLockerConn locker conn holder]
  | none => []

def ResourceReply.moves (reply : ResourceReply) : List VfsCall := reply.told.map .moveLockerConn

/-- A scan of the queue that fails is an exception, and the node is not deleted. -/
def resourceCleanCalls (resource : Resource) (conn : ConnId) (env : Env) : List VfsCall :=
  let reply := resourceClean resource conn env
  reply.moves ++ if reply.rc = .ok then [.delConn conn false] else []

inductive LockerCall where
  | inmsg (conn : ConnId) (lastStep : Int) (msg : Msg) (env : Env)
  | clean (conn : ConnId) (env : Env)
  | timeout (env : Env)

def resourceCall (resource : Resource) : LockerCall → Resource
  | .inmsg conn lastStep msg env => (resourceInmsg resource conn lastStep msg env).resource
  | .clean conn env => (resourceClean resource conn env).resource
  | .timeout env => (resourceTimeout resource env).resource

def resourceVfsCalls (locker : ConnId) (resource : Resource) : LockerCall → List VfsCall
  | .inmsg conn lastStep msg env =>
    if msg.verb = .lock then resourceLockCalls resource locker conn lastStep msg env
    else if msg.verb = .unlock then
      match resource.unlocking conn msg with
      | some target => resourceCleanCalls target conn env
      | none => []
    else []
  | .clean conn env => resourceCleanCalls resource conn env
  | .timeout env => (resourceTimeout resource env).moves

def Resource.cleanTold (resource : Resource) (conn : ConnId) (env : Env) : Prop :=
  match resource with
  | .simple rsrc => rsrcCleanTold simpleManager rsrc conn env.sends
  | .numeric rsrc => rsrcCleanTold numericManager rsrc conn env.sends
  | .set rsrc => rsrcCleanTold setManager rsrc conn env.sends
  | .hier rsrc => rsrcCleanTold (hierManager rsrc.name) rsrc conn env.sends
  | .sequence rsrc => rsrcCleanTold sequenceManager rsrc conn env.sends
  | .timestamp rsrc =>
    rsrcCleanTold timestampManager (timestampSetClock rsrc env.clock) conn env.sends

def Resource.timeoutTold (resource : Resource) (env : Env) : Prop :=
  match resource with
  | .timestamp rsrc =>
    let started := timestampSetClock rsrc env.clock
    resourceTimestampCanLock started.data = true →
      EverySent timestampManager.toOps Rc.ok
        (timestampManager.skip started.data ⟨0, ()⟩) rsrc.waitings env.sends
  | .simple _ | .numeric _ | .set _ | .hier _ | .sequence _ => True

theorem Resource.cleanTold_iff (resource : Resource) (conn : ConnId) (env : Env) :
    resource.cleanTold conn env ↔ (resourceClean resource conn env).failed = none := by
  cases resource with
  | hier rsrc =>
    simp only [resourceClean, replyOfCleaned, resourceHierClean, hierCollect_failed,
      Option.map_eq_none_iff]
    exact rsrcCleanTold_iff _ rsrc conn env.sends
  | timestamp rsrc =>
    simp only [resourceClean, replyOfCleaned, Option.map_eq_none_iff]
    exact rsrcCleanTold_iff _ (timestampSetClock rsrc env.clock) conn env.sends
  | simple rsrc | numeric rsrc | set rsrc | sequence rsrc =>
    simp only [resourceClean, replyOfCleaned, Option.map_eq_none_iff]
    exact rsrcCleanTold_iff _ rsrc conn env.sends

def stepAnswered (step : Int) : Prop := (msgBuildAnswer msgInit .lock step .ok none).1 = .ok

/-- The tree can follow the call: who is granted a lock from the queue can be told, a connection
that has a record asks for no second one, and a record is looked for where it is. -/
def LockerCall.Followed (resource : Resource) : LockerCall → Prop
  | .inmsg conn lastStep msg env =>
    (msg.verb = .lock → ∀ holder ∈ resource.lockNode conn msg env, resource.records conn = 0 ∧
      (resource.tellsLate holder = true → stepAnswered (lastStep + msgStepIncr))) ∧
    (msg.verb = .unlock → ∀ target ∈ resource.unlocking conn msg,
      target.cleanReaches conn ∧ target.cleanTold conn env)
  | .clean conn env => resource.cleanReaches conn ∧ resource.cleanTold conn env
  | .timeout env => resource.timeoutTold env

instance (resource : Resource) (conn : ConnId) (env : Env) :
    Decidable (resource.cleanTold conn env) :=
  decidable_of_iff _ (resource.cleanTold_iff conn env).symm

instance (resource : Resource) (conn : ConnId) : Decidable (resource.cleanReaches conn) :=
  match resource with
  | .hier _ => inferInstanceAs (Decidable (_ ∈ _ → _ = true))
  | .simple _ | .numeric _ | .set _ | .sequence _ | .timestamp _ => isTrue trivial

instance (resource : Resource) (env : Env) : Decidable (resource.timeoutTold env) :=
  match resource with
  | .timestamp _ => inferInstanceAs (Decidable (_ = true → EverySent _ _ _ _ _))
  | .simple _ | .numeric _ | .set _ | .hier _ | .sequence _ => isTrue trivial

instance (step : Int) : Decidable (stepAnswered step) := inferInstanceAs (Decidable (_ = _))

instance (resource : Resource) (call : LockerCall) : Decidable (call.Followed resource) :=
  match call with
  | .inmsg _ _ _ _ =>
    inferInstanceAs (Decidable ((_ = _ → ∀ _ ∈ _, _ ∧ _) ∧ (_ = _ → ∀ _ ∈ _, _ ∧ _)))
  | .clean _ _ => inferInstanceAs (Decidable (_ ∧ _))
  | .timeout _ => inferInstanceAs (Decidable (Resource.timeoutTold _ _))

inductive Resource.Cleans (before : Resource) (conn : ConnId) (reply : ResourceReply) : Prop
  | held (left : List ConnId) (released : before.holding.Perm (conn :: left))
      (holding : reply.resource.holding.Perm (reply.told ++ left))
      (waiting : before.waiting.Perm (reply.told ++ reply.resource.waiting))
  | queued (free : conn ∉ before.holding) (untold : reply.told = [])
      (holding : reply.resource.holding.Perm before.holding)
      (waiting : reply.resource.waiting = before.waiting.erase conn)

section

variable {Data Wait H : Type} {m : Manager Data Wait ConnId}

theorem map_eraseP_conn (queue : List Wait) (conn : ConnId) :
    (queue.eraseP fun waiter => m.conn waiter = conn).map m.conn =
    (queue.map m.conn).erase conn := by
  induction queue with
  | nil => rfl
  | cons waiter rest ih =>
    by_cases mine : m.conn waiter = conn
    · simp [mine]
    · simp [mine, ih]

theorem scan_waiting (conn : Wait → ConnId) (ops : Ops Data Wait) (data : Data) (queue : List Wait)
    (sends : List Rc) (told : (scan ops Rc.ok data queue sends).failed = none) :
    (queue.map conn).Perm ((scan ops Rc.ok data queue sends).granted.map
      (fun grant => conn grant.2) ++
      (scan ops Rc.ok data queue sends).queue.map conn) := by
  have queued := (scan_queue_perm ops Rc.ok data queue sends).map conn
  simpa [told, Function.comp_def] using queued

theorem rsrcClean_cleans (l : Ledger m H) {wrap : Rsrc Data Wait → Resource}
    (holding : ∀ rsrc, (wrap rsrc).holding = (l.held rsrc.data).map Prod.fst)
    (waiting : ∀ rsrc, (wrap rsrc).waiting = rsrc.waitings.map m.conn) (rsrc : Rsrc Data Wait)
    (conn : ConnId) (sends : List Rc)
    (found : m.release rsrc.data conn = none → conn ∉ (l.held rsrc.data).map Prod.fst)
    (told : rsrcCleanTold m rsrc conn sends) :
    (wrap rsrc).Cleans conn (replyOfCleaned wrap m.conn (rsrcClean m rsrc conn sends)) := by
  rw [rsrcCleanTold_iff] at told
  cases released : m.release rsrc.data conn with
  | some freed =>
    obtain ⟨item, removed⟩ := l.release_held rsrc.data conn freed released
    simp only [rsrcClean, replyOfCleaned, m.clean_of_some Rc.ok rsrc.data freed rsrc.waitings conn
      sends released]
      at told ⊢
    refine .held ((l.held freed).map Prod.fst) ?_ ?_ ?_
    · rw [holding]
      exact removed.map Prod.fst
    · rw [holding]
      exact l.scan_held Rc.ok freed rsrc.waitings sends told
    · rw [waiting, waiting]
      exact scan_waiting m.conn m.toOps freed rsrc.waitings sends told
  | none =>
    simp only [rsrcClean, replyOfCleaned, m.clean_of_none Rc.ok rsrc.data rsrc.waitings conn sends
      released]
    refine .queued ?_ rfl ?_ ?_
    · rw [holding]
      exact found released
    · rw [holding, holding]
    · rw [waiting, waiting]
      exact map_eraseP_conn rsrc.waitings conn

theorem rsrcLock_node (l : Ledger m H) {wrap : Rsrc Data Wait → Resource}
    (holding : ∀ rsrc, (wrap rsrc).holding = (l.held rsrc.data).map Prod.fst)
    (waiting : ∀ rsrc, (wrap rsrc).waiting = rsrc.waitings.map m.conn) (request : Request Data Wait)
    (rsrc : Rsrc Data Wait) (lastStep : Int) (msg : Msg) :
    let node := rsrcLockNode m request rsrc msg
    let after := wrap (rsrcLock m request rsrc lastStep msg).rsrc
    after.holding.Perm
        (if node = some true then m.conn request.waiter ::
          (wrap rsrc).holding else (wrap rsrc).holding) ∧
      after.waiting =
        if node = some false then (wrap rsrc).waiting ++
          [m.conn request.waiter] else (wrap rsrc).waiting := by
  simp only [holding, waiting, rsrcLock_rsrc_eq, rsrcLockNode]
  by_cases freed : (msgFree msg).1 = .ok
  · by_cases can : m.can rsrc.data request.waiter = true
    · simpa [freed, can] using (l.take_held rsrc.data request.waiter can).map Prod.fst
    · by_cases waits : request.wait = true
      · simp [freed, can, waits, l.skip_held]
      · simp [freed, can, waits, l.skip_held]
  · simp [freed, l.skip_held]

theorem rsrcLock_rc {request : Request Data Wait} {rsrc : Rsrc Data Wait} {lastStep : Int}
    {msg : Msg} {holder : Bool} (node : rsrcLockNode m request rsrc msg = some holder)
    (answered : stepAnswered (lastStep + msgStepIncr)) :
    (rsrcLock m request rsrc lastStep msg).rc = .ok := by
  have built : ∀ rc element,
      (msgBuildAnswer msgInit .lock (lastStep + msgStepIncr) rc element).1 = .ok := by
    intro rc element
    rw [msgBuildAnswer_fst_eq _ msgInit _ .lock _ _ .ok _ none]
    exact answered
  unfold rsrcLockNode at node
  unfold rsrcLock
  split_ifs at node with freed can waits
  all_goals
    split
    · simp_all
    · next rc spent unfreed kept =>
      rw [kept] at freed
      exact absurd freed unfreed

end

theorem resourceClean_cleans {resource : Resource} {conn : ConnId} {env : Env}
    (reaches : resource.cleanReaches conn) (told : resource.cleanTold conn env) :
    resource.Cleans conn (resourceClean resource conn env) := by
  cases resource with
  | simple rsrc =>
    refine rsrcClean_cleans simpleLedger simple_holding (fun _ => rfl) rsrc conn env.sends
      (fun missing => ?_) told
    exact (heldPairs_fst rsrc.data.holders).symm ▸ rsrcConnFind_none_notMem missing
  | numeric rsrc =>
    refine rsrcClean_cleans numericLedger numeric_holding (fun _ => rfl) rsrc conn env.sends
      (fun missing => ?_) told
    exact (heldPairs_fst rsrc.data.holders).symm ▸ rsrcConnFind_none_notMem missing
  | set rsrc =>
    refine rsrcClean_cleans setLedger set_holding (fun _ => rfl) rsrc conn env.sends
      (fun missing => ?_) told
    rw [← set_holding]
    have free := List.findIdx?_eq_none_iff.mp (Option.map_eq_none_iff.mp missing)
    simpa [Resource.holding, List.mem_filterMap] using free
  | sequence rsrc =>
    refine rsrcClean_cleans sequenceLedger sequence_holding (fun _ => rfl) rsrc conn env.sends
      (fun missing => ?_) told
    exact (sequenceHeld_fst rsrc.data.holders).symm ▸ rsrcConnFind_none_notMem missing
  | timestamp rsrc =>
    have cleaned := rsrcClean_cleans timestampLedger timestamp_holding (fun _ => rfl)
      (timestampSetClock rsrc env.clock) conn env.sends (fun missing =>
        (heldPairs_fst rsrc.data.holders).symm ▸ rsrcConnFind_none_notMem missing) told
    cases cleaned with
    | held left released holding waiting => exact .held left released holding waiting
    | queued free untold holding waiting => exact .queued free untold holding waiting
  | hier rsrc =>
    have cleaned := rsrcClean_cleans (hierLedger rsrc.name) (hier_holding rsrc.name)
        (fun _ => rfl) rsrc conn env.sends (fun missing held => by
        have holds := reaches (hier_holding rsrc.name rsrc ▸ held)
        rw [hierRelease_eq_none.mp missing] at holds
        cases holds) told
    have entries := hierCollect_held (rsrcClean (hierManager rsrc.name) rsrc conn env.sends)
    have waitings := hierCollect_waitings (rsrcClean (hierManager rsrc.name) rsrc conn env.sends)
    have kept : (resourceClean (.hier rsrc) conn env).resource.holding =
        (Resource.hier (rsrcClean (hierManager rsrc.name) rsrc conn env.sends).rsrc).holding := by
      rw [hier_holding rsrc.name]
      exact (hier_holding rsrc.name _).trans (congrArg (List.map Prod.fst) entries)
    have queue : (resourceClean (.hier rsrc) conn env).resource.waiting =
        (Resource.hier (rsrcClean (hierManager rsrc.name) rsrc conn env.sends).rsrc).waiting :=
      congrArg (List.map HierWait.conn) waitings
    have granted : (resourceClean (.hier rsrc) conn env).told =
        (replyOfCleaned Resource.hier HierWait.conn
          (rsrcClean (hierManager rsrc.name) rsrc conn env.sends)).told := by
      simp only [resourceClean, replyOfCleaned, resourceHierClean, hierCollect_granted]
    cases cleaned with
    | held left released holding waiting =>
      exact .held left released (kept ▸ granted ▸ holding) (queue ▸ granted ▸ waiting)
    | queued free untold holding waiting =>
      exact .queued free (granted.trans untold) (kept ▸ holding) (queue.trans waiting)

theorem resourceTimeout_told_perm {resource : Resource} {env : Env}
    (told : resource.timeoutTold env) :
    let reply := resourceTimeout resource env
    reply.resource.holding.Perm (reply.told ++ resource.holding) ∧
      resource.waiting.Perm (reply.told ++ reply.resource.waiting) := by
  cases resource with
  | timestamp rsrc =>
    simp only [resourceTimeout, replyOfCleaned, resourceTimestampTimeout]
    split_ifs with none can
    · exact ⟨List.Perm.refl _, List.Perm.refl _⟩
    · have told := (everySent_iff _ _ _ _ _).mp (told can)
      simp only [resourceTimestampWaitings, rsrcWaitings, indexScan_eq_scan]
      have held := timestampLedger.scan_held Rc.ok _ rsrc.waitings env.sends told
      rw [timestampLedger.skip_held] at held
      refine ⟨?_, scan_waiting ConnLock.conn timestampManager.toOps _ rsrc.waitings env.sends told⟩
      rw [timestamp_holding, timestamp_holding]
      exact held
    · refine ⟨?_, List.Perm.refl _⟩
      rw [timestamp_holding, timestamp_holding]
      simp only [timestampLedger.skip_held]
      exact List.Perm.refl _
  | simple rsrc | numeric rsrc | set rsrc | hier rsrc | sequence rsrc =>
    exact ⟨List.Perm.refl _, List.Perm.refl _⟩

theorem unlocking_holding {resource target : Resource} {conn : ConnId} {msg : Msg}
    (accepted : resource.unlocking conn msg = some target) : target.holding = resource.holding := by
  obtain rfl | ⟨_, _, rfl, rfl, _⟩ | ⟨rsrc, _, rfl, rfl, _⟩ := unlocking_cases accepted
  · rfl
  · rfl
  · rw [sequence_holding, sequence_holding]
    exact congrArg (List.map Prod.fst) (sequenceHeld_mark _ _ _)

section

variable {resource : Resource} {conn : ConnId} {lastStep : Int} {msg : Msg} {env : Env}

theorem resourceInmsg_node (lock : msg.verb = .lock) :
    let node := resource.lockNode conn msg env
    let after := (resourceInmsg resource conn lastStep msg env).resource
    after.holding.Perm (if node = some true then conn :: resource.holding else resource.holding) ∧
      after.waiting = if node = some false then resource.waiting ++
        [conn] else resource.waiting := by
  cases resource with
  | simple rsrc =>
    simp only [resourceInmsg, resourceSimpleInmsg, lock, answerOfInmsg]
    exact rsrcLock_node simpleLedger simple_holding (fun _ => rfl) _ rsrc lastStep msg
  | numeric rsrc =>
    simp only [resourceInmsg, resourceNumericInmsg, lock, answerOfInmsg]
    exact rsrcLock_node numericLedger numeric_holding (fun _ => rfl)
      (numericRequest rsrc conn msg) rsrc lastStep msg
  | set rsrc =>
    simp only [resourceInmsg, resourceSetInmsg, lock, answerOfInmsg]
    exact rsrcLock_node setLedger set_holding (fun _ => rfl) _ rsrc lastStep msg
  | hier rsrc =>
    cases named : msg.lock8.name with
    | none =>
      simp [resourceInmsg, resourceHierInmsg, lock, answerOfInmsg, Resource.lockNode, named,
        inmsgError]
    | some name =>
      simp only [resourceInmsg, resourceHierInmsg, lock, answerOfInmsg, Resource.lockNode, named,
        Option.bind_some]
      exact rsrcLock_node (hierLedger rsrc.name) (hier_holding rsrc.name)
        (fun _ => rfl) _ rsrc lastStep msg
  | sequence rsrc =>
    simp only [resourceInmsg, resourceSequenceInmsg, lock, answerOfInmsg]
    exact rsrcLock_node sequenceLedger sequence_holding (fun _ => rfl) _ rsrc lastStep msg
  | timestamp rsrc =>
    simp only [resourceInmsg, resourceTimestampInmsg, lock, answerOfInmsg]
    exact rsrcLock_node timestampLedger timestamp_holding (fun _ => rfl) _
      (timestampSetClock rsrc env.clock) lastStep msg

theorem resourceInmsg_rc (lock : msg.verb = .lock) {holder : Bool}
    (node : resource.lockNode conn msg env = some holder)
    (answered : stepAnswered (lastStep + msgStepIncr)) :
    (resourceInmsg resource conn lastStep msg env).rc = .ok := by
  cases resource with
  | simple rsrc | numeric rsrc | set rsrc | sequence rsrc | timestamp rsrc =>
    simp only [resourceInmsg, resourceSimpleInmsg, resourceNumericInmsg, resourceSetInmsg,
      resourceSequenceInmsg,
      resourceTimestampInmsg, lock, answerOfInmsg]
    exact rsrcLock_rc node answered
  | hier rsrc =>
    obtain ⟨name, named, chosen⟩ := Option.bind_eq_some_iff.mp node
    simp only [resourceInmsg, resourceHierInmsg, lock, answerOfInmsg, named]
    exact rsrcLock_rc chosen answered

theorem resourceLockCalls_eq (lock : msg.verb = .lock) (locker : ConnId)
    (answered : ∀ holder ∈ resource.lockNode conn msg env,
      resource.tellsLate holder = true → stepAnswered (lastStep + msgStepIncr)) :
    resourceLockCalls resource locker conn lastStep msg env =
      ((resource.lockNode conn msg env).map fun holder =>
      .addLockerConn locker conn holder).toList := by
  unfold resourceLockCalls
  cases node : resource.lockNode conn msg env with
  | none => rfl
  | some holder =>
    dsimp only
    rw [if_neg]
    · rfl
    · rintro ⟨late, failed⟩
      exact failed (resourceInmsg_rc lock node (answered holder node late))

variable {dir : VfsLocker}

theorem resourceCleanCalls_lists (reaches : resource.cleanReaches conn)
    (told : resource.cleanTold conn env) (lists : dir.Lists resource.holding resource.waiting) :
    (dir.run (resourceCleanCalls resource conn env)).Lists
      (resourceClean resource conn env).resource.holding
        (resourceClean resource conn env).resource.waiting := by
  have ok : (resourceClean resource conn env).rc = .ok :=
    (resourceClean_rc_iff resource conn env).mpr ((resource.cleanTold_iff conn env).mp told)
  rw [resourceCleanCalls, if_pos ok, dir_run_append]
  cases resourceClean_cleans reaches told with
  | held left released holding waiting =>
    have moved := (lists.perm released waiting).moves.perm List.perm_middle (List.Perm.refl _)
    refine moved.del_holder.perm ?_ (List.Perm.refl _)
    exact ((List.reverse_perm _).append_right left).trans holding.symm
  | queued free untold holding waiting =>
    rw [ResourceReply.moves, untold, waiting]
    exact (lists.del_waiting free).perm holding.symm (List.Perm.refl _)

theorem resourceVfsCalls_lists {call : LockerCall} (followed : call.Followed resource)
    (lists : dir.Lists resource.holding resource.waiting) :
    (dir.run (resourceVfsCalls dir.uid resource call)).Lists (resourceCall resource call).holding
      (resourceCall resource call).waiting := by
  cases call with
  | clean conn env => exact resourceCleanCalls_lists followed.1 followed.2 lists
  | timeout env =>
    obtain ⟨holding, waiting⟩ := resourceTimeout_told_perm followed
    refine (lists.perm (List.Perm.refl _) waiting).moves.perm ?_ (List.Perm.refl _)
    exact ((List.reverse_perm _).append_right _).trans holding.symm
  | inmsg conn lastStep msg env =>
    obtain ⟨locking, unlocking⟩ := followed
    unfold resourceVfsCalls resourceCall
    dsimp only
    split_ifs with lock unlock
    · obtain ⟨holding, waiting⟩ := @resourceInmsg_node resource conn lastStep msg env lock
      rw [resourceLockCalls_eq lock dir.uid fun holder node => (locking lock holder node).2,
        waiting]
      cases node : resource.lockNode conn msg env with
      | none =>
        rw [node] at holding
        exact lists.perm holding.symm (List.Perm.refl _)
      | some holder =>
        have absent := Resource.records_eq_zero.mp (locking lock holder node).1
        have added := lists.add (by simpa [not_or] using absent) holder
        rw [node] at holding
        have call : dir.run [.addLockerConn dir.uid conn holder] = dir.addConn conn holder := by
          simp [VfsLocker.run, VfsLocker.call]
        simp only [Option.map_some, Option.toList_some, call]
        cases holder with
        | true => exact added.perm holding.symm (List.Perm.refl _)
        | false => exact added.perm holding.symm (List.Perm.refl _)
    · have law := resourceInmsg_unlock resource conn lastStep msg env unlock
      cases accepted : resource.unlocking conn msg with
      | some target =>
        simp only [accepted] at law
        have fits := unlocking unlock target accepted
        rw [law, answerOfReply_resource]
        apply resourceCleanCalls_lists fits.1 fits.2
        rwa [unlocking_holding accepted, unlocking_waiting accepted]
      | none =>
        simp only [accepted] at law
        obtain ⟨rc, _, same⟩ := law
        rwa [same]
    · rwa [resourceInmsg_other resource conn lastStep msg env lock unlock]

end

def lockerVfsCalls (locker : ConnId) : Resource → List LockerCall → List VfsCall
  | _, [] => []
  | resource, call :: rest =>
    resourceVfsCalls locker resource call ++ lockerVfsCalls locker (resourceCall resource call) rest

theorem lockerVfsCalls_lists {dir : VfsLocker} {resource : Resource} {calls : List LockerCall}
    (followed : Run.Along resourceCall (fun resource call => call.Followed resource) resource calls)
    (lists : dir.Lists resource.holding resource.waiting) :
    (dir.run (lockerVfsCalls dir.uid resource calls)).Lists
      (Run.run resourceCall resource calls).holding
        (Run.run resourceCall resource calls).waiting := by
  induction calls generalizing dir resource with
  | nil => exact lists
  | cons call rest ih =>
    have later := ih followed.2 (resourceVfsCalls_lists followed.1 lists)
    rwa [dir_run_uid, ← dir_run_append] at later

def LockerCall.conns : LockerCall → List ConnId
  | .inmsg conn _ _ _ | .clean conn _ => [conn]
  | .timeout _ => []

theorem resourceCleanCalls_within {resource : Resource} {conn : ConnId} {env : Env}
    {conns : List ConnId} (uid : ConnId) (mine : conn ∈ conns)
    (waiting : resource.waiting ⊆ conns) :
    ∀ call ∈ resourceCleanCalls resource conn env, call.within uid conns := by
  intro call member
  obtain move | del := List.mem_append.mp member
  · obtain ⟨other, told, rfl⟩ := List.mem_map.mp move
    exact waiting ((resourceClean_serves resource conn env).told told)
  · split_ifs at del
    · obtain rfl := List.mem_singleton.mp del
      exact mine
    · cases del

theorem resourceVfsCalls_within {resource : Resource} {call : LockerCall} {conns : List ConnId}
    (uid : ConnId) (mine : call.conns ⊆ conns) (waiting : resource.waiting ⊆ conns) :
    (∀ vfs ∈ resourceVfsCalls uid resource call, vfs.within uid conns) ∧
      (resourceCall resource call).waiting ⊆ conns := by
  cases call with
  | clean conn env =>
    have inside : conn ∈ conns := mine List.mem_cons_self
    exact ⟨resourceCleanCalls_within uid inside waiting,
      List.Subset.trans (resourceClean_serves resource conn env).waiting waiting⟩
  | timeout env =>
    have serves := resourceTimeout_serves resource env
    refine ⟨fun vfs member => ?_, List.Subset.trans serves.waiting waiting⟩
    obtain ⟨other, told, rfl⟩ := List.mem_map.mp member
    exact waiting (serves.told told)
  | inmsg conn lastStep msg env =>
    have inside : conn ∈ conns := mine List.mem_cons_self
    refine ⟨?_, ?_⟩
    · unfold resourceVfsCalls
      dsimp only
      split_ifs
      · intro vfs member
        unfold resourceLockCalls at member
        split at member
        · split_ifs at member
          · cases member
          · obtain rfl := List.mem_singleton.mp member
            exact ⟨rfl, inside⟩
        · cases member
      · split
        · next target accepted =>
          exact resourceCleanCalls_within uid inside (unlocking_waiting accepted ▸ waiting)
        · simp
      · simp
    · have serves := (resourceInmsg_serves resource conn lastStep msg env).2
      exact List.Subset.trans serves (List.cons_subset.mpr ⟨inside, waiting⟩)

theorem lockerVfsCalls_within {resource : Resource} {calls : List LockerCall} {conns : List ConnId}
    (uid : ConnId) (mine : ∀ call ∈ calls, call.conns ⊆ conns)
    (waiting : resource.waiting ⊆ conns) :
    ∀ vfs ∈ lockerVfsCalls uid resource calls, vfs.within uid conns := by
  induction calls generalizing resource with
  | nil => simp [lockerVfsCalls]
  | cons call rest ih =>
    obtain ⟨here, queue⟩ := resourceVfsCalls_within uid (mine call List.mem_cons_self) waiting
    intro vfs member
    obtain first | later := List.mem_append.mp member
    · exact here vfs first
    · exact ih (fun other inside => mine other (List.mem_cons_of_mem call inside)) queue vfs later

end Flom
