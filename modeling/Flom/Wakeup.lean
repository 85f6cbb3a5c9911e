import Flom.Resource

set_option autoImplicit false

namespace Flom

open Scan

def Resource.quiet : Resource → Prop
  | .simple rsrc => ∀ waiter ∈ rsrc.waitings, resourceSimpleCanLock rsrc.data waiter.info = false
  | .numeric rsrc => ∀ waiter ∈ rsrc.waitings, resourceNumericCanLock rsrc.data waiter.info = false
  | .set rsrc => rsrc.waitings = [] ∨ ∀ element ∈ rsrc.data.elements, element.conn ≠ none
  | .hier rsrc => ∀ waiter ∈ rsrc.waitings,
      resourceHierCanLock rsrc.data.root waiter.mode (hierLevels waiter.name) = false
  | .sequence rsrc => ∀ _waiter ∈ rsrc.waitings, resourceSequenceCanLock rsrc.data = false
  | .timestamp _ => True

section

variable {Data Wait : Type}

def rsrcQuiet (m : Manager Data Wait ConnId) (rsrc : Rsrc Data Wait) : Prop :=
  Quiet m.toOps rsrc.data rsrc.waitings

def rsrcCleanSafe (m : Manager Data Wait ConnId) (rsrc : Rsrc Data Wait) (conn : ConnId)
    (sends : List Rc) : Prop :=
  ∀ freed ∈ m.release rsrc.data conn, NoneBehind m.toOps Rc.ok freed rsrc.waitings sends

instance (m : Manager Data Wait ConnId) (rsrc : Rsrc Data Wait) (conn : ConnId) (sends : List Rc) :
    Decidable (rsrcCleanSafe m rsrc conn sends) :=
  inferInstanceAs (Decidable (∀ freed ∈ m.release rsrc.data conn, _))

variable {m : Manager Data Wait ConnId} {inv : Data → Prop} {valid : Wait → Prop}
  (order : Antitone m.toOps inv valid)
include order

theorem rsrcLock_quiet (request : Request Data Wait) (rsrc : Rsrc Data Wait) (lastStep : Int)
    (msg : Msg) (sound : Sound inv valid rsrc) (fits : valid request.waiter)
    (quiet : rsrcQuiet m rsrc) : rsrcQuiet m (rsrcLock m request rsrc lastStep msg).rsrc := by
  have skipped : Quiet m.toOps (m.skip rsrc.data request.waiter) rsrc.waitings := by
    intro waiter member
    rw [order.skip_can]
    exact quiet waiter member
  unfold rsrcQuiet
  obtain same | ⟨can, same⟩ | ⟨cannot, same⟩ := rsrcLock_rsrc m request rsrc lastStep msg
  · rw [same]
    exact skipped
  · rw [same]
    exact order.take_quiet sound.data sound.waitings fits can quiet
  · rw [same]
    refine quiet_push skipped ?_
    rw [order.skip_can]
    exact cannot

theorem rsrcClean_quiet
    (release : ∀ data conn freed, inv data → m.release data conn = some freed → inv freed)
    (rsrc : Rsrc Data Wait) (conn : ConnId) (sends : List Rc) (sound : Sound inv valid rsrc)
    (quiet : rsrcQuiet m rsrc) :
    rsrcQuiet m (rsrcClean m rsrc conn sends).rsrc ↔ rsrcCleanSafe m rsrc conn sends :=
  m.clean_quiet order release Rc.ok rsrc.data rsrc.waitings conn sends sound.data sound.waitings
    quiet

end

theorem sound_trivial {Data Wait : Type} (rsrc : Rsrc Data Wait) :
    Sound (fun _ => True) (fun _ => True) rsrc :=
  ⟨trivial, fun _ _ => trivial⟩

theorem set_quiet_iff (rsrc : SetRsrc) : (Resource.set rsrc).quiet ↔ rsrcQuiet setManager rsrc := by
  have busy : (resourceSetCanLock rsrc.data).isSome = false ↔
      ∀ element ∈ rsrc.data.elements, element.conn ≠ none := by
    rw [← resourceSetCanLock_eq_none]
    simp
  cases waitings : rsrc.waitings with
  | nil => simp [Resource.quiet, rsrcQuiet, Quiet, waitings]
  | cons waiter rest =>
    simp only [Resource.quiet, rsrcQuiet, Quiet, waitings, setManager, busy]
    simpa using fun busy _ _ => busy

theorem hierCollect_quiet (name : Name) (cleaned : Cleaned HierData HierWait) :
    rsrcQuiet (hierManager name) (hierCollect cleaned).rsrc ↔
      rsrcQuiet (hierManager name) cleaned.rsrc := by
  unfold hierCollect
  split
  · simp only [rsrcQuiet, Quiet, hierManager, resourceHierGc_canLock]
  · rfl

/-- What clean may not meet: a failing send in front of somebody who could be granted. For the
hierarchical manager any failing send, since it leaves a freed record linked in the tree. -/
def Resource.cleanSafe (resource : Resource) (conn : ConnId) (sends : List Rc) : Prop :=
  match resource with
  | .simple rsrc => rsrcCleanSafe simpleManager rsrc conn sends
  | .numeric rsrc => rsrcCleanSafe numericManager rsrc conn sends
  | .set rsrc => rsrcCleanSafe setManager rsrc conn sends
  | .hier rsrc => ∀ freed ∈ hierRelease rsrc.name rsrc.data conn,
      AllTold (hierManager rsrc.name).toOps Rc.ok freed rsrc.waitings sends
  | .sequence rsrc => rsrcCleanSafe sequenceManager rsrc conn sends
  | .timestamp _ => True

instance (resource : Resource) (conn : ConnId) (sends : List Rc) :
    Decidable (resource.cleanSafe conn sends) :=
  match resource with
  | .simple rsrc => inferInstanceAs (Decidable (rsrcCleanSafe simpleManager rsrc conn sends))
  | .numeric rsrc => inferInstanceAs (Decidable (rsrcCleanSafe numericManager rsrc conn sends))
  | .set rsrc => inferInstanceAs (Decidable (rsrcCleanSafe setManager rsrc conn sends))
  | .hier rsrc => inferInstanceAs (Decidable (∀ freed ∈ hierRelease rsrc.name rsrc.data conn, _))
  | .sequence rsrc => inferInstanceAs (Decidable (rsrcCleanSafe sequenceManager rsrc conn sends))
  | .timestamp _ => inferInstanceAs (Decidable True)

def Resource.callSafe (resource : Resource) : Call → Prop
  | .inmsg conn _ msg env =>
    msg.verb = .unlock → ∀ target ∈ resource.unlocking conn msg, target.cleanSafe conn env.sends
  | .clean conn env => resource.cleanSafe conn env.sends

instance (resource : Resource) (call : Call) : Decidable (resource.callSafe call) :=
  match call with
  | .inmsg conn _ msg _ =>
    inferInstanceAs (Decidable (msg.verb = .unlock → ∀ target ∈ resource.unlocking conn msg, _))
  | .clean conn env => inferInstanceAs (Decidable (resource.cleanSafe conn env.sends))

/-- A total that wrapped below zero: every request is impossible and nothing is ever recorded. -/
structure NumericDry (rsrc : NumericRsrc) : Prop where
  total : rsrc.data.totalQuantity.toInt < 0
  locked : rsrc.data.lockedQuantity = 0
  holders : rsrc.data.holders = []
  waitings : rsrc.waitings = []

def NumericOrderly (rsrc : NumericRsrc) : Prop :=
  (∃ total, NumericSound total rsrc) ∨ NumericDry rsrc

theorem NumericDry.cannot {rsrc : NumericRsrc} (dry : NumericDry rsrc) (quantity : Int32)
    (nonneg : 0 ≤ quantity.toInt) : resourceNumericCanLock rsrc.data quantity = false := by
  have negative := dry.total
  simp only [resourceNumericCanLock, dry.locked, Int32.sub_zero, decide_eq_false_iff_not,
    Int32.le_iff_toInt_le]
  omega

theorem resourceNumericStep_dry (rsrc : NumericRsrc) (call : Call) (dry : NumericDry rsrc)
    (nonneg : call.quantityNonneg) : resourceNumericStep rsrc call = rsrc := by
  have cleaned : ∀ conn sends, (resourceNumericClean rsrc conn sends).rsrc = rsrc := by
    intro conn sends
    have missing : numericManager.release rsrc.data conn = none := by
      simp [numericManager, rsrcConnFind, dry.holders]
    rw [resourceNumericClean, rsrcClean, Manager.clean_of_none _ _ _ _ _ _ missing]
    simp only [dry.waitings, List.eraseP_nil]
    exact congrArg (Rsrc.mk rsrc.name rsrc.data) dry.waitings.symm
  cases call with
  | inmsg conn lastStep msg env =>
    simp only [resourceNumericStep, resourceNumericInmsg]
    split
    · next locking =>
      have above : rsrc.data.totalQuantity < msg.lock8.quantity :=
        Int32.lt_iff_toInt_lt.mpr (lt_of_lt_of_le dry.total (nonneg locking))
      have cannot := dry.cannot msg.lock8.quantity (nonneg locking)
      unfold rsrcLock
      split
      · simp [numericRequest, numericManager, above, cannot]
      · rfl
    · exact rsrcUnlock_rsrc (motive := (· = rsrc)) msg rfl (cleaned conn env.sends)
    · rfl
  | clean conn env => exact cleaned conn env.sends

theorem resourceNumericStep_orderly (rsrc : NumericRsrc) (call : Call)
    (orderly : NumericOrderly rsrc) (nonneg : call.quantityNonneg) :
    NumericOrderly (resourceNumericStep rsrc call) := by
  obtain ⟨total, sound⟩ | dry := orderly
  · exact .inl ⟨total, resourceNumericStep_sound total rsrc call sound nonneg⟩
  · rw [resourceNumericStep_dry rsrc call dry nonneg]
    exact .inr dry

theorem resourceNumericInit_orderly {name : Name} {rsrc : NumericRsrc}
    (started : resourceNumericInit name = .ok rsrc) : NumericOrderly rsrc := by
  by_cases positive : 0 ≤ rsrc.data.totalQuantity
  · exact .inl ⟨_, resourceNumericInit_sound started positive⟩
  · obtain ⟨total, _, rfl⟩ := resourceNumericInit_ok started
    rw [Int32.le_iff_toInt_le, not_le] at positive
    exact .inr ⟨positive, rfl, rfl, rfl⟩

def Resource.orderly : Resource → Prop
  | .numeric rsrc => NumericOrderly rsrc
  | _ => True

def Resource.admits : Resource → Call → Prop
  | .numeric _, call => call.quantityNonneg
  | _, _ => True

instance (resource : Resource) (call : Call) : Decidable (resource.admits call) :=
  match resource with
  | .numeric _ => inferInstanceAs (Decidable call.quantityNonneg)
  | .simple _ | .set _ | .hier _ | .sequence _ | .timestamp _ => inferInstanceAs (Decidable True)

theorem resourceClean_quiet (resource : Resource) (conn : ConnId) (env : Env)
    (orderly : resource.orderly) (quiet : resource.quiet)
    (safe : resource.cleanSafe conn env.sends) :
    (resourceClean resource conn env).resource.quiet := by
  cases resource with
  | simple rsrc =>
    exact (rsrcClean_quiet simple_antitone (fun _ _ _ _ _ => trivial) rsrc conn env.sends
      (sound_trivial rsrc) quiet).mpr safe
  | numeric rsrc =>
    obtain ⟨total, sound⟩ | dry := orderly
    · exact (rsrcClean_quiet (numeric_antitone total) numeric_conserved_release rsrc conn env.sends
        sound quiet).mpr safe
    · change (Resource.numeric (resourceNumericStep rsrc (.clean conn env))).quiet
      rwa [resourceNumericStep_dry rsrc (.clean conn env) dry trivial]
  | set rsrc =>
    refine (set_quiet_iff _).mpr ((rsrcClean_quiet set_antitone (fun _ _ _ _ _ => trivial) rsrc conn
      env.sends (sound_trivial rsrc) ((set_quiet_iff rsrc).mp quiet)).mpr safe)
  | hier rsrc =>
    refine (hierCollect_quiet rsrc.name _).mpr ((rsrcClean_quiet (hier_antitone rsrc.name)
      (fun _ _ _ _ _ => trivial) rsrc conn env.sends (sound_trivial rsrc) quiet).mpr ?_)
    intro freed released
    exact noneBehind_of_allTold _ _ _ _ _ (safe freed released)
  | sequence rsrc =>
    exact (rsrcClean_quiet sequence_antitone (fun _ _ _ _ _ => trivial) rsrc conn env.sends
      (sound_trivial rsrc) quiet).mpr safe
  | timestamp rsrc => trivial

theorem resourceLock_quiet (resource : Resource) (conn : ConnId) (lastStep : Int) (msg : Msg)
    (env : Env) (lock : msg.verb = .lock) (orderly : resource.orderly) (quiet : resource.quiet)
    (admitted : resource.admits (.inmsg conn lastStep msg env)) :
    (resourceInmsg resource conn lastStep msg env).resource.quiet := by
  cases resource with
  | simple rsrc =>
    simp only [resourceInmsg, resourceSimpleInmsg, lock]
    exact rsrcLock_quiet simple_antitone _ rsrc lastStep msg (sound_trivial rsrc) trivial quiet
  | numeric rsrc =>
    obtain ⟨total, sound⟩ | dry := orderly
    · simp only [resourceInmsg, resourceNumericInmsg, lock]
      exact rsrcLock_quiet (numeric_antitone total) _ rsrc lastStep msg sound (admitted lock) quiet
    · change (Resource.numeric (resourceNumericStep rsrc (.inmsg conn lastStep msg env))).quiet
      rwa [resourceNumericStep_dry rsrc (.inmsg conn lastStep msg env) dry admitted]
  | set rsrc =>
    simp only [resourceInmsg, resourceSetInmsg, lock]
    exact (set_quiet_iff _).mpr
      (rsrcLock_quiet set_antitone _ rsrc lastStep msg (sound_trivial rsrc)
      trivial ((set_quiet_iff rsrc).mp quiet))
  | hier rsrc =>
    simp only [resourceInmsg, resourceHierInmsg, lock]
    split
    · exact rsrcLock_quiet (hier_antitone rsrc.name) _ rsrc lastStep msg
        (sound_trivial rsrc) trivial quiet
    · exact quiet
  | sequence rsrc =>
    simp only [resourceInmsg, resourceSequenceInmsg, lock]
    exact rsrcLock_quiet sequence_antitone _ rsrc lastStep msg (sound_trivial rsrc) trivial quiet
  | timestamp rsrc => trivial

structure Resource.Steady (resource : Resource) : Prop where
  orderly : resource.orderly
  quiet : resource.quiet

theorem unlocking_quiet {resource target : Resource} {conn : ConnId} {msg : Msg}
    (accepted : resource.unlocking conn msg = some target) (orderly : resource.orderly)
    (quiet : resource.quiet) : target.Steady := by
  obtain rfl | ⟨_, _, rfl, rfl, _⟩ | ⟨_, _, rfl, rfl, _⟩ := unlocking_cases accepted
  · exact ⟨orderly, quiet⟩
  · exact ⟨trivial, quiet⟩
  · exact ⟨trivial, quiet⟩

theorem resourceStep_orderly (resource : Resource) (call : Call) (orderly : resource.orderly)
    (admitted : resource.admits call) : (resourceStep resource call).orderly := by
  cases resource with
  | numeric rsrc =>
    have next := resourceNumericStep_orderly rsrc call orderly admitted
    cases call <;> exact next
  | simple rsrc | set rsrc | hier rsrc | sequence rsrc | timestamp rsrc => cases call <;> trivial

theorem resourceStep_quiet (resource : Resource) (call : Call) (orderly : resource.orderly)
    (quiet : resource.quiet) (admitted : resource.admits call) (safe : resource.callSafe call) :
    (resourceStep resource call).quiet := by
  cases call with
  | clean conn env => exact resourceClean_quiet resource conn env orderly quiet safe
  | inmsg conn lastStep msg env =>
    simp only [resourceStep]
    by_cases lock : msg.verb = .lock
    · exact resourceLock_quiet resource conn lastStep msg env lock orderly quiet admitted
    obtain ⟨target, unlock, accepted, law⟩ | ⟨rc, _, law⟩ :=
      resourceInmsg_unlocked resource conn lastStep msg env lock
    · obtain ⟨orderly', quiet'⟩ := unlocking_quiet accepted orderly quiet
      rw [law, answerOfReply_resource]
      exact resourceClean_quiet target conn env orderly' quiet' (safe unlock target accepted)
    · rwa [law]

theorem resourceStep_steady (resource : Resource) (call : Call) (steady : resource.Steady)
    (admitted : resource.admits call) (safe : resource.callSafe call) :
    (resourceStep resource call).Steady :=
  ⟨resourceStep_orderly resource call steady.orderly admitted,
    resourceStep_quiet resource call steady.orderly steady.quiet admitted safe⟩

theorem resourceInit_steady {type : RsrcType} {name : Name} {resource : Resource}
    (started : resourceInit type name = .ok resource) : resource.Steady := by
  cases type with
  | null => cases started
  | simple =>
    obtain rfl := Except.ok.inj started
    exact ⟨trivial, by simp [Resource.quiet, resourceSimpleInit]⟩
  | set =>
    obtain rfl := Except.ok.inj started
    exact ⟨trivial, by simp [Resource.quiet, resourceSetInit]⟩
  | numeric =>
    obtain ⟨rsrc, made, rfl⟩ := except_map_ok started
    refine ⟨resourceNumericInit_orderly made, ?_⟩
    obtain ⟨total, _, rfl⟩ := resourceNumericInit_ok made
    simp [Resource.quiet]
  | hier =>
    obtain ⟨rsrc, made, rfl⟩ := except_map_ok started
    exact ⟨trivial, by simp [Resource.quiet, (resourceHierInit_ok made).2]⟩
  | sequence =>
    obtain ⟨rsrc, made, rfl⟩ := except_map_ok started
    exact ⟨trivial, by simp [Resource.quiet, (resourceSequenceInit_ok made).2]⟩
  | timestamp =>
    obtain ⟨rsrc, made, rfl⟩ := except_map_ok started
    exact ⟨trivial, trivial⟩

theorem cleanSafe_of_sent (resource : Resource) (conn : ConnId) (sends : List Rc)
    (sent : ∀ send ∈ sends, send = .ok) : resource.cleanSafe conn sends := by
  have scanned : ∀ {Data Wait : Type} (m : Manager Data Wait ConnId) (rsrc : Rsrc Data Wait),
      rsrcCleanSafe m rsrc conn sends := by
    intro Data Wait m rsrc freed _
    exact noneBehind_of_allTold _ _ _ _ _
      (allTold_of_sent m.toOps Rc.ok freed rsrc.waitings sends sent)
  cases resource with
  | hier rsrc => exact fun freed _ => allTold_of_sent _ _ _ _ _ sent
  | timestamp rsrc => trivial
  | simple rsrc | numeric rsrc | set rsrc | sequence rsrc => exact scanned _ rsrc

theorem callSafe_of_sent (resource : Resource) (call : Call) (sent : call.sent) :
    resource.callSafe call := by
  cases call with
  | inmsg conn lastStep msg env =>
    intro _ target _
    exact cleanSafe_of_sent target conn env.sends sent
  | clean conn env => exact cleanSafe_of_sent resource conn env.sends sent

theorem admits_of_nonneg (resource : Resource) (call : Call) (nonneg : call.quantityNonneg) :
    resource.admits call := by
  cases resource with
  | numeric rsrc => exact nonneg
  | simple rsrc | set rsrc | hier rsrc | sequence rsrc | timestamp rsrc => trivial

theorem no_lost_wakeup (type : RsrcType) (name : Name) (resource : Resource)
    (started : resourceInit type name = .ok resource) (calls : List Call)
    (nonneg : ∀ call ∈ calls, call.quantityNonneg) (sent : ∀ call ∈ calls, call.sent) :
    (Run.run resourceStep resource calls).quiet := by
  have steady : (Run.run resourceStep resource calls).Steady := by
    apply Run.along_invariant resourceStep fun _ call => call.quantityNonneg ∧ call.sent
    · intro reached call steady ⟨nonneg, sent⟩
      exact resourceStep_steady reached call steady (admits_of_nonneg reached call nonneg)
        (callSafe_of_sent reached call sent)
    · exact resourceInit_steady started
    · exact Run.along_of_forall resourceStep _ resource calls
        fun call member _ => ⟨nonneg call member, sent call member⟩
  exact steady.quiet

def wakeupCalls : List Call :=
  [.inmsg 1 8 (msgLock numericExampleName .ex 1 3 1) Env.fine,
    .inmsg 2 8 (msgLock numericExampleName .ex 1 4 1) Env.fine,
    .inmsg 3 8 (msgLock numericExampleName .ex 1 2 1) Env.fine,
    .inmsg 4 8 (msgLock numericExampleName .ex 1 1 1) Env.fine,
    .clean 1 Env.fine]

theorem no_lost_wakeup_numeric :
    let resource := Resource.numeric ⟨numericExampleName, ⟨5, 0, []⟩, []⟩
    let reached := Run.run resourceStep resource wakeupCalls
    reached.holding = [4, 3] ∧ reached.waiting = [2] ∧ reached.quiet := by
  intro resource reached
  refine ⟨by decide, by decide,
    no_lost_wakeup .numeric numericExampleName resource rfl wakeupCalls ?_ ?_⟩
  · decide
  · intro call member
    simp only [wakeupCalls, List.mem_cons, List.not_mem_nil, or_false] at member
    obtain rfl | rfl | rfl | rfl | rfl := member <;> exact fun _ sending => by cases sending

theorem quiet_despite_failures (type : RsrcType) (name : Name) (resource : Resource)
    (started : resourceInit type name = .ok resource) (calls : List Call)
    (along : Run.Along resourceStep (fun reached call => reached.admits call ∧
      reached.callSafe call)
        resource calls) :
    (Run.run resourceStep resource calls).quiet := by
  have steady : (Run.run resourceStep resource calls).Steady := by
    apply Run.along_invariant resourceStep
      fun reached call => reached.admits call ∧ reached.callSafe call
    · intro reached call steady ⟨admitted, safe⟩
      exact resourceStep_steady reached call steady admitted safe
    · exact resourceInit_steady started
    · exact along
  exact steady.quiet

def deadSocket (conn : ConnId) (name : Name) : Call :=
  .inmsg conn 8 (msgUnlock name 0) { Env.fine with sends := [.sendError] }

def stuckCalls : List Call :=
  [.inmsg 1 8 (msgLock ['x'] .ex 1 0 1) Env.fine,
    .inmsg 2 8 (msgLock ['x'] .ex 1 0 1) Env.fine,
    .inmsg 3 8 (msgLock ['x'] .ex 1 0 1) Env.fine,
    deadSocket 1 ['x'],
    .clean 1 Env.fine,
    .clean 2 Env.fine]

theorem quiet_despite_failures_last :
    let resource := Resource.simple (resourceSimpleInit ['x'])
    let calls := (stuckCalls.take 2) ++ (stuckCalls.drop 3)
    (Run.run resourceStep resource calls).quiet := by
  intro resource calls
  exact quiet_despite_failures .simple ['x'] resource rfl calls (by decide)

theorem dead_socket_blocks_waiter :
    let resource := Resource.simple (resourceSimpleInit ['x'])
    let reached := Run.run resourceStep resource stuckCalls
    resourceInit .simple ['x'] = .ok resource ∧
      (resourceInmsg (Run.run resourceStep resource (stuckCalls.take 3)) 1 8 (msgUnlock ['x'] 0)
        { Env.fine with sends := [.sendError] }).failed = some 2 ∧
      reached.holding = [] ∧ reached.waiting = [3] ∧ ¬reached.quiet := by
  refine ⟨rfl, by decide, by decide, by decide, ?_⟩
  intro quiet
  exact absurd (quiet ⟨3, .ex⟩ (by decide)) (by decide)

end Flom
