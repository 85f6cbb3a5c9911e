import Flom.Lib.Fair
import Flom.ResourceGrant
import Flom.Wakeup

set_option autoImplicit false

namespace Flom

open Scan

def Call.conn : Call → ConnId
  | .inmsg conn _ _ _ => conn
  | .clean conn _ => conn

def resourceGrants (resource : Resource) : Call → List ConnId
  | .inmsg conn lastStep msg env =>
    let answer := resourceInmsg resource conn lastStep msg env
    if msg.verb = .lock ∧ answer.rc = .ok ∧ (msgAnswer answer.msg).rc = .ok then [conn]
    else answer.told
  | .clean conn env => (resourceClean resource conn env).told

def grantsAlong (resource : Resource) : List Call → List ConnId
  | [] => []
  | call :: rest => resourceGrants resource call ++ grantsAlong (resourceStep resource call) rest

def Resource.awaits (resource : Resource) (conn : ConnId) (msg : Msg) : Prop :=
  match resource with
  | .simple rsrc => ⟨conn, msg.lock8.mode⟩ ∈ rsrc.waitings
  | .numeric rsrc => ⟨conn, msg.lock8.quantity⟩ ∈ rsrc.waitings
  | .set rsrc => ⟨conn, ()⟩ ∈ rsrc.waitings
  | .hier rsrc => ∃ waiter ∈ rsrc.waitings, waiter.conn = conn ∧ waiter.mode = msg.lock8.mode ∧
      msg.lock8.name.map hierLevels = some (hierLevels waiter.name)
  | .sequence rsrc => ⟨conn, ()⟩ ∈ rsrc.waitings
  | .timestamp _ => False

instance (resource : Resource) (conn : ConnId) (msg : Msg) : Decidable (resource.awaits conn msg) :=
  match resource with
  | .simple _ | .numeric _ | .set _ | .sequence _ => inferInstanceAs (Decidable (_ ∈ _))
  | .hier _ => inferInstanceAs (Decidable (∃ waiter ∈ _, _ ∧ _ ∧ _))
  | .timestamp _ => isFalse id

def Resource.ahead (first second : ConnId) : Resource → Prop
  | .simple rsrc => Ahead simpleManager.toOps ConnLock.conn first second rsrc.waitings
  | .numeric rsrc => Ahead numericManager.toOps ConnLock.conn first second rsrc.waitings
  | .set rsrc => Ahead setManager.toOps ConnLock.conn first second rsrc.waitings
  | .hier rsrc => Ahead (hierManager rsrc.name).toOps HierWait.conn first second rsrc.waitings
  | .sequence rsrc => Ahead sequenceManager.toOps ConnLock.conn first second rsrc.waitings
  | .timestamp _ => False

section

variable {Data Wait : Type} {m : Manager Data Wait ConnId} {first second : ConnId}

theorem rsrcLock_ahead {request : Request Data Wait} {rsrc : Rsrc Data Wait} (lastStep : Int)
    (msg : Msg) (ahead : Ahead m.toOps m.conn first second rsrc.waitings)
    (other : m.conn request.waiter ≠ second) :
    Ahead m.toOps m.conn first second (rsrcLock m request rsrc lastStep msg).rsrc.waitings := by
  obtain same | ⟨_, same⟩ | ⟨_, same⟩ := rsrcLock_rsrc m request rsrc lastStep msg
  · rw [same]
    exact ahead
  · rw [same]
    exact ahead
  · rw [same]
    exact ahead.push_other other

theorem rsrcLock_arrival {request : Request Data Wait} {rsrc : Rsrc Data Wait} (lastStep : Int)
    (msg : Msg) {waiter : Wait} (mine : m.conn waiter = first) (member : waiter ∈ rsrc.waitings)
    (none : second ∉ rsrc.waitings.map m.conn) (alike : Alike m.toOps waiter request.waiter)
    (quiet : rsrcQuiet m rsrc) (refuses : request.refusal ≠ .ok) :
    let result := rsrcLock m request rsrc lastStep msg
    Ahead m.toOps m.conn first second result.rsrc.waitings ∧
    ¬(result.rc = .ok ∧ (msgAnswer result.msg).rc = .ok) := by
  have cannot : m.can rsrc.data request.waiter = false := by
    rw [← alike rsrc.data]
    exact quiet waiter member
  constructor
  · obtain same | ⟨can, _⟩ | ⟨_, same⟩ := rsrcLock_rsrc m request rsrc lastStep msg
    · rw [same]
      exact ahead_of_mem mine member none
    · rw [cannot] at can
      cases can
    · rw [same]
      exact ahead_push mine member none alike
  · rintro ⟨done, ok⟩
    obtain ⟨_, ⟨_, can, _⟩ | enqueued | ⟨refused, _⟩⟩ := rsrcLock_answer done
    · rw [cannot] at can
      cases can
    · rw [ok] at enqueued
      cases enqueued
    · exact refuses (refused.symm.trans ok)

variable {inv : Data → Prop} {valid : Wait → Prop}

theorem rsrcClean_ahead (order : Antitone m.toOps inv valid)
    (release : ∀ data conn freed, inv data → m.release data conn = some freed → inv freed)
    {rsrc : Rsrc Data Wait} {conn : ConnId} {sends : List Rc} (sound : Sound inv valid rsrc)
    (sent : ∀ send ∈ sends, send = .ok) (other : conn ≠ first)
    (ahead : Ahead m.toOps m.conn first second rsrc.waitings) :
    let cleaned := rsrcClean m rsrc conn sends
    Precedes first second (cleaned.granted.map fun grant => m.conn grant.2) ∧
      (first ∈ (cleaned.granted.map fun grant => m.conn grant.2) ∨
        Ahead m.toOps m.conn first second cleaned.rsrc.waitings) :=
  m.clean_ahead order release Rc.ok rsrc.data rsrc.waitings sends sound.data sound.waitings sent
    other ahead

end

section

variable {first second : ConnId}

theorem Resource.ahead_waiting {resource : Resource} (ahead : resource.ahead first second) :
    first ∈ resource.waiting := by
  cases resource with
  | timestamp rsrc => cases ahead
  | simple rsrc => exact Ahead.mem ahead
  | numeric rsrc => exact Ahead.mem ahead
  | set rsrc => exact Ahead.mem ahead
  | hier rsrc => exact Ahead.mem ahead
  | sequence rsrc => exact Ahead.mem ahead

theorem Resource.awaits_waiting {resource : Resource} {msg : Msg}
    (awaits : resource.awaits first msg) :
    first ∈ resource.waiting := by
  cases resource with
  | timestamp rsrc => cases awaits
  | hier rsrc =>
    obtain ⟨waiter, member, mine, _⟩ := awaits
    exact List.mem_map.mpr ⟨waiter, member, mine⟩
  | simple rsrc => exact List.mem_map.mpr ⟨⟨first, msg.lock8.mode⟩, awaits, rfl⟩
  | numeric rsrc => exact List.mem_map.mpr ⟨⟨first, msg.lock8.quantity⟩, awaits, rfl⟩
  | set rsrc => exact List.mem_map.mpr ⟨⟨first, ()⟩, awaits, rfl⟩
  | sequence rsrc => exact List.mem_map.mpr ⟨⟨first, ()⟩, awaits, rfl⟩

theorem resourceClean_ahead {resource : Resource} {conn : ConnId} {env : Env}
    (orderly : resource.orderly) (sent : ∀ send ∈ env.sends, send = .ok) (other : conn ≠ first)
    (ahead : resource.ahead first second) :
    let reply := resourceClean resource conn env
    Precedes first second reply.told ∧
    (first ∈ reply.told ∨ reply.resource.ahead first second) := by
  cases resource with
  | timestamp rsrc => cases ahead
  | simple rsrc =>
    exact rsrcClean_ahead simple_antitone (fun _ _ _ _ _ => trivial)
      (sound_trivial rsrc) sent other ahead
  | numeric rsrc =>
    obtain ⟨total, sound⟩ | dry := orderly
    · exact rsrcClean_ahead (numeric_antitone total) numeric_conserved_release sound sent other
        ahead
    · simp only [Resource.ahead, dry.waitings] at ahead
      cases ahead
  | set rsrc =>
    exact rsrcClean_ahead set_antitone (fun _ _ _ _ _ => trivial)
      (sound_trivial rsrc) sent other ahead
  | hier rsrc =>
    have cleaned := rsrcClean_ahead (hier_antitone rsrc.name) (fun _ _ _ _ _ => trivial)
      (sound_trivial rsrc) sent other ahead
    simp only [resourceClean, replyOfCleaned, resourceHierClean, hierCollect_granted,
      Resource.ahead,
      hierCollect_waitings]
    exact cleaned
  | sequence rsrc =>
    exact rsrcClean_ahead sequence_antitone (fun _ _ _ _ _ => trivial)
      (sound_trivial rsrc) sent other ahead

theorem unlocking_ahead {resource target : Resource} {conn : ConnId} {msg : Msg}
    (accepted : resource.unlocking conn msg = some target) (ahead : resource.ahead first second) :
    target.ahead first second := by
  obtain rfl | ⟨_, _, rfl, rfl, _⟩ | ⟨_, _, rfl, rfl, _⟩ := unlocking_cases accepted <;> exact ahead

theorem resourceLock_ahead {resource : Resource} {conn : ConnId} {msg : Msg} (lastStep : Int)
    (env : Env) (lock : msg.verb = .lock) (other : conn ≠ second)
    (ahead : resource.ahead first second) :
    (resourceInmsg resource conn lastStep msg env).resource.ahead first second := by
  cases resource with
  | timestamp rsrc => cases ahead
  | simple rsrc =>
    simp only [resourceInmsg, resourceSimpleInmsg, lock]
    exact rsrcLock_ahead lastStep msg ahead other
  | numeric rsrc =>
    simp only [resourceInmsg, resourceNumericInmsg, lock]
    exact rsrcLock_ahead lastStep msg ahead other
  | set rsrc =>
    simp only [resourceInmsg, resourceSetInmsg, lock]
    exact rsrcLock_ahead lastStep msg ahead other
  | hier rsrc =>
    simp only [resourceInmsg, resourceHierInmsg, lock]
    split
    · exact rsrcLock_ahead (m := hierManager rsrc.name) lastStep msg ahead other
    · exact ahead
  | sequence rsrc =>
    simp only [resourceInmsg, resourceSequenceInmsg, lock]
    exact rsrcLock_ahead lastStep msg ahead other

theorem resourceLock_arrival {resource : Resource} {msg : Msg} (lastStep : Int) (env : Env)
    (lock : msg.verb = .lock) (quiet : resource.quiet) (awaits : resource.awaits first msg)
    (single : second ∉ resource.waiting) :
    let answer := resourceInmsg resource second lastStep msg env
    answer.resource.ahead first second ∧ ¬(answer.rc = .ok ∧ (msgAnswer answer.msg).rc = .ok) := by
  cases resource with
  | timestamp rsrc => cases awaits
  | simple rsrc =>
    simp only [resourceInmsg, resourceSimpleInmsg, lock]
    exact rsrcLock_arrival (m := simpleManager) lastStep msg rfl awaits single (fun _ => rfl) quiet
      (by simp)
  | numeric rsrc =>
    simp only [resourceInmsg, resourceNumericInmsg, lock]
    have refuses : (numericRequest rsrc second msg).refusal ≠ .ok := by
      unfold numericRequest
      dsimp only
      split <;> simp
    exact rsrcLock_arrival (m := numericManager) lastStep msg rfl awaits single
      (fun _ => rfl) quiet refuses
  | set rsrc =>
    simp only [resourceInmsg, resourceSetInmsg, lock]
    exact rsrcLock_arrival (m := setManager) lastStep msg rfl awaits single (fun _ => rfl)
      ((set_quiet_iff rsrc).mp quiet) (by simp)
  | hier rsrc =>
    obtain ⟨waiter, member, mine, mode, path⟩ := awaits
    cases named : msg.lock8.name with
    | none => simp [named] at path
    | some name =>
      simp only [named, Option.map_some, Option.some.injEq] at path
      simp only [resourceInmsg, resourceHierInmsg, lock, named]
      refine rsrcLock_arrival (m := hierManager rsrc.name) lastStep msg mine member single
        (fun data => ?_) quiet (by simp)
      simp only [hierManager, mode, path]
  | sequence rsrc =>
    simp only [resourceInmsg, resourceSequenceInmsg, lock]
    exact rsrcLock_arrival (m := sequenceManager) lastStep msg rfl awaits single
      (fun _ => rfl) quiet (by simp)

theorem resourceStep_ahead {resource : Resource} {call : Call} (steady : resource.Steady)
    (sent : call.sent) (stays : call.conn ≠ first) (own : call.conn ≠ second)
    (ahead : resource.ahead first second) :
    Precedes first second (resourceGrants resource call) ∧
      (first ∈ resourceGrants resource call ∨ (resourceStep resource call).ahead first second) := by
  cases call with
  | clean conn env => exact resourceClean_ahead steady.orderly sent stays ahead
  | inmsg conn lastStep msg env =>
    simp only [resourceGrants, resourceStep]
    by_cases lock : msg.verb = .lock
    · refine ⟨?_, .inr (resourceLock_ahead lastStep env lock own ahead)⟩
      split_ifs
      · exact .inr ⟨own, trivial⟩
      · rw [resourceInmsg_lock_told lock]
        trivial
    · rw [if_neg fun granted => lock granted.1]
      obtain ⟨target, _, accepted, law⟩ | ⟨rc, _, law⟩ :=
        resourceInmsg_unlocked resource conn lastStep msg env lock
      · have orderly := (unlocking_quiet accepted steady.orderly steady.quiet).orderly
        rw [law, answerOfReply_told, answerOfReply_resource]
        exact resourceClean_ahead orderly sent stays (unlocking_ahead accepted ahead)
      · rw [law]
        exact ⟨trivial, .inr ahead⟩

theorem resourceStep_steady_of_sent {resource : Resource} {call : Call} (steady : resource.Steady)
    (admits : resource.admits call) (sent : call.sent) : (resourceStep resource call).Steady :=
  resourceStep_steady resource call steady admits (callSafe_of_sent resource call sent)

theorem grantsAlong_ahead {resource : Resource} {calls : List Call} (steady : resource.Steady)
    (ahead : resource.ahead first second)
    (admits : Run.Along resourceStep Resource.admits resource calls)
    (sent : ∀ call ∈ calls, call.sent) (own : ∀ call ∈ calls, call.conn ≠ second)
    (stays : Run.Along resourceStep (fun reached call => first ∈ reached.waiting →
      call.conn ≠ first) resource calls) :
    Precedes first second (grantsAlong resource calls) := by
  induction calls generalizing resource with
  | nil => trivial
  | cons call rest ih =>
    obtain ⟨here, later⟩ := stays
    have call_sent := sent call List.mem_cons_self
    obtain ⟨precedes, told | still⟩ := resourceStep_ahead steady call_sent
      (here (Resource.ahead_waiting ahead)) (own call List.mem_cons_self) ahead
    · exact precedes_append_of_mem _ precedes told
    · apply precedes_append precedes
      exact ih (resourceStep_steady_of_sent steady admits.1 call_sent) still admits.2
        (fun next member => sent next (List.mem_cons_of_mem _ member))
        (fun next member => own next (List.mem_cons_of_mem _ member)) later

end

theorem no_overtaking (type : RsrcType) (name : Name) (resource : Resource)
    (started : resourceInit type name = .ok resource) (first second : ConnId) (lastStep : Int)
    (msg : Msg) (env : Env) (before after : List Call)
    (admits : Run.Along resourceStep Resource.admits resource
      (before ++ .inmsg second lastStep msg env :: after))
    (sent : ∀ call ∈ before ++ .inmsg second lastStep msg env :: after, call.sent)
    (lock : msg.verb = .lock) (single : second ∉ (Run.run resourceStep resource before).waiting)
    (queued : (Run.run resourceStep resource before).awaits first msg)
    (stays : Run.Along resourceStep (fun reached call => first ∈ reached.waiting →
      call.conn ≠ first)
        (Run.run resourceStep resource before) (.inmsg second lastStep msg env :: after))
    (own : ∀ call ∈ after, call.conn ≠ second) (front rest : List ConnId)
    (granted : grantsAlong (Run.run resourceStep resource before)
      (.inmsg second lastStep msg env :: after) =
      front ++ second :: rest) : first ∈ front := by
  obtain ⟨admits_before, admits_arrival, admits_after⟩ := Run.along_append.mp admits
  have steady : (Run.run resourceStep resource before).Steady := by
    apply Run.along_invariant resourceStep fun reached call => reached.admits call ∧ call.sent
    · exact fun reached call steady fine => resourceStep_steady_of_sent steady fine.1 fine.2
    · exact resourceInit_steady started
    · exact Run.along_and.mpr ⟨admits_before, Run.along_of_forall resourceStep _ resource before
        fun call member _ => sent call (List.mem_append_left _ member)⟩
  have different : first ≠ second := by
    rintro rfl
    exact single (Resource.awaits_waiting queued)
  have arrival_sent := sent (.inmsg second lastStep msg env)
    (List.mem_append_right _ List.mem_cons_self)
  obtain ⟨ahead, refused⟩ := resourceLock_arrival lastStep env lock steady.quiet queued single
  refine (precedes_iff different).mp ?_ front rest granted
  rw [grantsAlong]
  apply precedes_append
  · rw [resourceGrants, if_neg fun told => refused told.2, resourceInmsg_lock_told lock]
    trivial
  · exact grantsAlong_ahead (resourceStep_steady_of_sent steady admits_arrival arrival_sent) ahead
      admits_after (fun call member => sent call
      (List.mem_append_right _ (List.mem_cons_of_mem _ member))) own stays.2

def patientCalls : List Call :=
  [.inmsg 1 8 (msgLock ['x'] .ex 1 1 1) Env.fine, .inmsg 2 8 (msgLock ['x'] .ex 1 1 1) Env.fine]

def leavingCalls : List Call := [.inmsg 1 8 (msgUnlock ['x'] 0) Env.fine, .clean 2 Env.fine]

theorem no_overtaking_patient :
    let resource := Resource.simple (resourceSimpleInit ['x'])
    let arrival := Call.inmsg 3 8 (msgLock ['x'] .ex 1 1 1) Env.fine
    grantsAlong (Run.run resourceStep resource patientCalls) (arrival :: leavingCalls) = [2] ++ 3 ::
    [] ∧
      2 ∈ [2] := by
  refine ⟨by decide, ?_⟩
  refine no_overtaking .simple ['x'] (.simple (resourceSimpleInit ['x'])) rfl 2 3 8
    (msgLock ['x'] .ex 1 1 1) Env.fine patientCalls leavingCalls (by decide) ?_ rfl (by decide)
    (by decide) (by decide) (by decide) [2] [] (by decide)
  intro call member
  simp only [patientCalls, leavingCalls, List.cons_append, List.nil_append, List.mem_cons,
    List.not_mem_nil,
    or_false] at member
  obtain rfl | rfl | rfl | rfl | rfl := member <;> exact fun _ sending => by cases sending

def minusFiveCalls : List Call :=
  [.inmsg 1 8 (msgLock numericExampleName .ex 1 4 1) Env.fine,
    .inmsg 2 8 (msgLock numericExampleName .ex 1 3 1) Env.fine,
    .inmsg 3 8 (msgLock numericExampleName .ex 1 (-5) 1) Env.fine]

-- A negative request makes room, and nobody looks at the queue.
theorem minus_five_lets_overtake :
    let resource := Resource.numeric ⟨numericExampleName, ⟨5, 0, []⟩, []⟩
    let reached := Run.run resourceStep resource minusFiveCalls
    let arrival := Call.inmsg 4 8 (msgLock numericExampleName .ex 1 3 1) Env.fine
    resourceInit .numeric numericExampleName = .ok resource ∧
    (minusFiveCalls.map Call.conn = [1, 2, 3]) ∧
      (minusFiveCalls ++ [arrival]).all (fun call => call.sends.all (· = .ok)) = true ∧
      reached.awaits 2 (msgLock numericExampleName .ex 1 3 1) ∧ 4 ∉ reached.waiting ∧
      grantsAlong reached [arrival] = [4] ∧ 2 ∈ (resourceStep reached arrival).waiting := by
  refine ⟨rfl, ?_⟩
  decide

end Flom
