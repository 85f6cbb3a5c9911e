import Flom.Daemon

set_option autoImplicit false

namespace Flom

structure ClientConfig where
  peerid : Option Name
  resourceName : Name
  lockMode : LockMode
  resourceTimeout : Int
  resourceQuantity : Int32
  resourceCreate : Int
  resourceIdleLifespan : Int32
  tlsCheckPeerId : Bool

inductive Delivery where
  | timeout
  | failed (rc : Rc) (error : rc ≠ .ok)
  | empty
  | answer (rc : Rc) (msg : Msg)

/-- The network around one call; `uninitialized` is the code that stands in the answer of
flom_client_wait_lock before any message was decoded. -/
structure ClientNet where
  serialize : Rc
  send : Rc
  tls : Option Tls
  peerName : Bool
  uninitialized : Rc
  deliveries : List Delivery

structure ClientLocked where
  rc : Rc
  element : Option Name
  used : Nat
deriving DecidableEq, Repr

structure ClientWaited extends ClientLocked where
  lastStep : Int

def ClientConfig.lock8 (config : ClientConfig) : Lock8 where
  peerid := config.peerid
  name := some config.resourceName
  mode := config.lockMode
  wait := if config.resourceTimeout = 0 then 0 else 1
  quantity := config.resourceQuantity
  create := config.resourceCreate
  lifespan := config.resourceIdleLifespan

def clientRequest (config : ClientConfig) : Msg where
  state := .initialized
  level := msgLevel
  verb := .lock
  step := msgStepIncr
  body := config.lock8.body .heap

@[simp] theorem clientRequest_verb (config : ClientConfig) : (clientRequest config).verb = .lock :=
  rfl

@[simp] theorem clientRequest_step (config : ClientConfig) :
    (clientRequest config).step = msgStepIncr := rfl

@[simp] theorem clientRequest_lock8 (config : ClientConfig) :
    (clientRequest config).lock8 = config.lock8 :=
  lock8_body _ _ _ _ _ _

/-- Whether an answer ends the wait; the code of the last LOCK answer is looked at even when the
message is none. Only the last step is checked for success. -/
inductive WaitStep where
  | fails (rc : Rc)
  | loops
  | leaves

def clientWaitStep (rc : Rc) (msg : Msg) : Rc × WaitStep :=
  let decide (rc : Rc) : Rc × WaitStep := (rc, if rc = .lockEnqueued then .loops else .leaves)
  if msg.verb = .lock then
    if msg.step = 2 * msgStepIncr then decide msg.lock16.rc
    else if msg.step = 3 * msgStepIncr then decide msg.lock24.rc
    else if msg.step = 4 * msgStepIncr then
      if msg.lock32.rc = .ok then decide msg.lock32.rc else (msg.lock32.rc, .fails .lockCantLock)
    else (rc, .fails .protocolError)
  else decide rc

def Delivery.read : Delivery → Except Rc Msg
  | .timeout => .error .networkTimeout
  | .failed rc _ => .error rc
  | .empty => .ok msgInit
  | .answer rc msg => if rc = .ok then .ok msg else .error rc

/-- No result: the call is still waiting. -/
def clientWaitLock (rc : Rc) : List Delivery → Option ClientWaited
  | [] => none
  | delivery :: later =>
    match delivery.read with
    | .error rc => some ⟨⟨rc, none, 1⟩, 0⟩
    | .ok msg =>
      match clientWaitStep rc msg with
      | (_, .fails rc) => some ⟨⟨rc, none, 1⟩, msg.step⟩
      | (_, .leaves) => some ⟨⟨.ok, (msgAnswer msg).element, 1⟩, msg.step⟩
      | (rc, .loops) =>
        (clientWaitLock rc later).map fun waited => { waited with used := waited.used + 1 }

def clientLockWait (net : ClientNet) (later : List Delivery) : Option ClientLocked :=
  (clientWaitLock net.uninitialized later).map fun waited =>
    let used := waited.used + 1
    if waited.rc = .ok then
      if waited.lastStep = 3 * msgStepIncr ∨ waited.lastStep = 4 * msgStepIncr then
        ⟨.ok, waited.element, used⟩
      else ⟨.internalError, none, used⟩
    else ⟨waited.rc, none, used⟩

def clientLockAnswer (net : ClientNet) (msg : Msg) (later : List Delivery) : Option ClientLocked :=
  match msg.lock16.rc with
  | .ok => some ⟨.ok, msg.lock16.element, 1⟩
  | .lockEnqueued | .lockWaitResource => clientLockWait net later
  | .lockBusy => some ⟨.lockBusy, none, 1⟩
  | .lockImpossible => some ⟨.lockImpossible, none, 1⟩
  | .lockCantWait => some ⟨.lockCantWait, none, 1⟩
  | _ => some ⟨.protocolError, none, 1⟩

def clientLockReply (config : ClientConfig) (net : ClientNet) (msg : Msg) (later : List Delivery) :
    Option ClientLocked :=
  if msg.state ≠ .ready then
    some ⟨if msg.level = msgLevel then .msgDeserializeError else .protocolLevelMismatch, none, 1⟩
  else if msg.verb ≠ .lock ∨ msg.step ≠ 2 * msgStepIncr then some ⟨.protocolError, none, 1⟩
  else if config.tlsCheckPeerId then
    match checkPeer net.tls (msgGetPeerid msg) net.peerName with
    | .passed => clientLockAnswer net msg later
    | .refused rc | .failed rc => some ⟨rc, none, 1⟩
  else clientLockAnswer net msg later

def clientLock (config : ClientConfig) (net : ClientNet) : Option ClientLocked :=
  if config.peerid = none then some ⟨.nullObject, none, 0⟩
  else if net.serialize ≠ .ok then some ⟨net.serialize, none, 0⟩
  else if net.send ≠ .ok then some ⟨net.send, none, 0⟩
  else
    match net.deliveries with
    | [] => none
    | .timeout :: _ => some ⟨.networkTimeout, none, 1⟩
    | .failed rc _ :: _ => some ⟨rc, none, 1⟩
    | .empty :: _ => some ⟨.connectionClosedByServer, none, 1⟩
    | .answer rc msg :: later =>
      if rc = .ok then clientLockReply config net msg later
      else some ⟨.msgDeserializeError, none, 1⟩

theorem read_error {delivery : Delivery} {rc : Rc} (failed : delivery.read = .error rc) :
    rc ≠ .ok := by
  cases delivery with
  | timeout =>
    obtain rfl := Except.error.inj failed
    simp
  | failed code error =>
    obtain rfl := Except.error.inj failed
    exact error
  | empty => cases failed
  | answer code msg =>
    simp only [Delivery.read] at failed
    split_ifs at failed with parsed
    obtain rfl := Except.error.inj failed
    exact parsed

def Rc.defers (rc : Rc) : Prop := rc = .lockEnqueued ∨ rc = .lockWaitResource

theorem clientWaitStep_leaves {rc : Rc} {msg : Msg} (lock : msg.verb = .lock)
    (leaves : (clientWaitStep rc msg).2 = .leaves) :
    (msgAnswer msg).rc ≠ .lockEnqueued ∧
    (msg.step = 4 * msgStepIncr → (msgAnswer msg).rc = .ok) := by
  unfold clientWaitStep at leaves
  simp only [lock, if_true] at leaves
  unfold msgAnswer
  by_cases second : msg.step = 2 * msgStepIncr
  · simp only [second, if_true] at leaves ⊢
    refine ⟨?_, fun last => by simp [msgStepIncr] at last⟩
    intro enqueued
    simp [enqueued] at leaves
  · by_cases third : msg.step = 3 * msgStepIncr
    · rw [if_neg second, if_pos third] at leaves ⊢
      refine ⟨?_, fun last => by simp [third, msgStepIncr] at last⟩
      intro enqueued
      simp [enqueued] at leaves
    · simp only [second, third, if_false] at leaves ⊢
      split_ifs at leaves with fourth success
      · exact ⟨by simp [success], fun _ => success⟩

theorem clientWaitStep_loops {rc : Rc} {msg : Msg} (lock : msg.verb = .lock)
    (loops : (clientWaitStep rc msg).2 = .loops) : (msgAnswer msg).rc.defers := by
  unfold clientWaitStep at loops
  simp only [lock, if_true] at loops
  unfold msgAnswer
  by_cases second : msg.step = 2 * msgStepIncr
  · simp only [second, if_true] at loops ⊢
    split_ifs at loops with enqueued
    exact .inl enqueued
  · by_cases third : msg.step = 3 * msgStepIncr
    · rw [if_neg second, if_pos third] at loops ⊢
      dsimp only at loops
      split_ifs at loops with enqueued
      exact .inl enqueued
    · simp only [second, third, if_false] at loops ⊢
      split_ifs at loops with fourth success enqueued
      exact .inl enqueued

theorem clientWaitStep_fails {rc failure : Rc} {msg : Msg}
    (fails : (clientWaitStep rc msg).2 = .fails failure) : failure ≠ .ok := by
  unfold clientWaitStep at fails
  dsimp only at fails
  split_ifs at fails <;> cases fails <;> simp

def Delivery.defers : Delivery → Prop
  | .timeout | .failed _ _ => False
  | .empty => True
  | .answer rc msg => rc = .ok ∧ (msg.verb = .lock → (msgAnswer msg).rc.defers)

theorem defers_of_read {delivery : Delivery} {msg : Msg} (read : delivery.read = .ok msg)
    (loops : msg.verb = .lock → (msgAnswer msg).rc.defers) : delivery.defers := by
  cases delivery with
  | timeout | failed => cases read
  | empty => trivial
  | answer rc answer =>
    simp only [Delivery.read] at read
    split_ifs at read with parsed
    obtain rfl := Except.ok.inj read
    exact ⟨parsed, loops⟩

theorem clientWaitLock_ok {rc : Rc} {deliveries : List Delivery} {waited : ClientWaited}
    (result : clientWaitLock rc deliveries = some waited) (ok : waited.rc = .ok) :
    ∃ earlier delivery later msg, deliveries = earlier ++ delivery :: later ∧
      waited.used = earlier.length + 1 ∧ (∀ other ∈ earlier, other.defers) ∧
      delivery.read = .ok msg ∧ waited.lastStep = msg.step ∧
      (msg.verb = .lock → (msgAnswer msg).rc ≠ .lockEnqueued ∧
        (msg.step = 4 * msgStepIncr → (msgAnswer msg).rc = .ok)) := by
  induction deliveries generalizing rc waited with
  | nil => cases result
  | cons delivery later ih =>
    rw [clientWaitLock] at result
    cases read : delivery.read with
    | error code =>
      simp only [read, Option.some.injEq] at result
      subst result
      exact absurd ok (read_error read)
    | ok msg =>
      simp only [read] at result
      have left := fun lock => @clientWaitStep_leaves rc msg lock
      have looped := fun lock => @clientWaitStep_loops rc msg lock
      have error := fun failure => @clientWaitStep_fails rc failure msg
      generalize clientWaitStep rc msg = step at result left looped error
      obtain ⟨code, flow⟩ := step
      cases flow with
      | fails failure =>
        simp only [Option.some.injEq] at result
        subst result
        exact absurd ok (error failure rfl)
      | leaves =>
        simp only [Option.some.injEq] at result
        subst result
        exact ⟨[], delivery, later, msg, rfl, rfl, by simp, read, rfl, fun lock => left lock rfl⟩
      | loops =>
        obtain ⟨inner, found, rfl⟩ := Option.map_eq_some_iff.mp result
        obtain ⟨earlier, last, rest, final, rfl, used, deferring, present⟩ := ih found ok
        refine ⟨delivery :: earlier, last, rest, final, rfl, by simp [used], ?_, present⟩
        exact List.forall_mem_cons.mpr ⟨defers_of_read read fun lock => looped lock rfl, deferring⟩

theorem checkPeer_refused {tls : Option Tls} {peerid : Option Name} {peerName : Bool} {rc : Rc}
    (refused : checkPeer tls peerid peerName = .refused rc) : rc ≠ .ok := by
  unfold checkPeer at refused
  split at refused
  · cases refused
  · split_ifs at refused with named passed
    obtain rfl := PeerCheck.refused.inj refused
    exact passed

theorem checkPeer_failed {tls : Option Tls} {peerid : Option Name} {peerName : Bool} {rc : Rc}
    (failed : checkPeer tls peerid peerName = .failed rc) : rc ≠ .ok := by
  unfold checkPeer at failed
  split at failed
  · obtain rfl := PeerCheck.failed.inj failed
    simp
  · split_ifs at failed
    obtain rfl := PeerCheck.failed.inj failed
    simp

structure Accepted (deliveries : List Delivery) (locked : ClientLocked) (earlier : List Delivery)
    (msg : Msg) : Prop where
  consumed : ∃ later, deliveries = earlier ++ .answer .ok msg :: later
  used : locked.used = earlier.length + 1
  deferred : ∀ delivery ∈ earlier, delivery.defers
  answer : msg.verb = .lock →
    (msg.step ≠ 3 * msgStepIncr ∧ (msgAnswer msg).rc = .ok) ∨
      (msg.step = 3 * msgStepIncr ∧ (msgAnswer msg).rc ≠ .lockEnqueued ∧
        ∃ first, .answer .ok first ∈ earlier)

theorem answer_of_read {delivery : Delivery} {msg : Msg} (read : delivery.read = .ok msg)
    (stepped : msg.step ≠ 0) : delivery = .answer .ok msg := by
  cases delivery with
  | timeout | failed => cases read
  | empty =>
    obtain rfl := Except.ok.inj read
    exact absurd rfl stepped
  | answer rc answer =>
    simp only [Delivery.read] at read
    split_ifs at read with parsed
    obtain rfl := Except.ok.inj read
    rw [parsed]

theorem clientLockWait_ok {net : ClientNet} {msg : Msg} {later : List Delivery}
    {locked : ClientLocked} (deferred : (msgAnswer msg).rc.defers)
    (result : clientLockWait net later = some locked) (ok : locked.rc = .ok) : ∃ earlier last,
    Accepted (.answer .ok msg :: later) locked earlier last := by
  obtain ⟨waited, found, rfl⟩ := Option.map_eq_some_iff.mp result
  by_cases done : waited.rc = .ok
  · obtain ⟨earlier, delivery, rest, last, rfl, used, deferring, read, lastStep, final⟩ :=
      clientWaitLock_ok found done
    simp only [done, if_true] at ok ⊢
    split_ifs at ok ⊢ with stepped
    rw [lastStep] at stepped
    have answered : delivery = .answer .ok last := by
      apply answer_of_read read
      obtain third | fourth := stepped <;> simp [*, msgStepIncr]
    refine ⟨.answer .ok msg :: earlier, last,
      ⟨rest, by rw [answered]; rfl⟩, by simp [used], ?_, fun lock => ?_⟩
    · exact List.forall_mem_cons.mpr ⟨⟨rfl, fun _ => deferred⟩, deferring⟩
    · obtain third | fourth := stepped
      · exact .inr ⟨third, (final lock).1, msg, List.mem_cons_self⟩
      · exact .inl ⟨by simp [fourth, msgStepIncr], (final lock).2 fourth⟩
  · simp only [done, if_false] at ok

theorem clientLockAnswer_ok {net : ClientNet} {msg : Msg} {later : List Delivery}
    {locked : ClientLocked} (step : msg.step = 2 * msgStepIncr)
    (result : clientLockAnswer net msg later = some locked) (ok : locked.rc = .ok) : ∃ earlier last,
    Accepted (.answer .ok msg :: later) locked earlier last := by
  have first : msgAnswer msg = msg.lock16 := by simp [msgAnswer, step]
  unfold clientLockAnswer at result
  split at result
  · next granted =>
    obtain rfl := Option.some.inj result
    refine ⟨[], msg, ⟨later, rfl⟩, rfl, by simp, fun _ => .inl ⟨?_, by rw [first, granted]⟩⟩
    simp [step, msgStepIncr]
  · next enqueued => exact clientLockWait_ok (by rw [first]; exact .inl enqueued) result ok
  · next incubated => exact clientLockWait_ok (by rw [first]; exact .inr incubated) result ok
  all_goals
    obtain rfl := Option.some.inj result
    cases ok

theorem clientLockReply_ok {config : ClientConfig} {net : ClientNet} {msg : Msg}
    {later : List Delivery} {locked : ClientLocked}
    (result : clientLockReply config net msg later = some locked) (ok : locked.rc = .ok) :
    ∃ earlier last, Accepted (.answer .ok msg :: later) locked earlier last := by
  unfold clientLockReply at result
  by_cases unready : msg.state ≠ .ready
  · rw [if_pos unready] at result
    obtain rfl := Option.some.inj result
    dsimp only at ok
    split at ok <;> cases ok
  rw [if_neg unready] at result
  by_cases foreign : msg.verb ≠ .lock ∨ msg.step ≠ 2 * msgStepIncr
  · rw [if_pos foreign] at result
    obtain rfl := Option.some.inj result
    cases ok
  rw [if_neg foreign] at result
  have step : msg.step = 2 * msgStepIncr := by
    by_contra other
    exact foreign (.inr other)
  by_cases checked : config.tlsCheckPeerId = true
  · rw [if_pos checked] at result
    split at result
    · exact clientLockAnswer_ok step result ok
    · next rc refused =>
      obtain rfl := Option.some.inj result
      exact absurd ok (checkPeer_refused refused)
    · next rc failed =>
      obtain rfl := Option.some.inj result
      exact absurd ok (checkPeer_failed failed)
  · rw [if_neg checked] at result
    exact clientLockAnswer_ok step result ok

theorem clientLock_ok {config : ClientConfig} {net : ClientNet} {locked : ClientLocked}
    (result : clientLock config net = some locked) (ok : locked.rc = .ok) :
    ∃ earlier last, Accepted net.deliveries locked earlier last := by
  unfold clientLock at result
  split_ifs at result with anonymous serialized sent
  · obtain rfl := Option.some.inj result
    cases ok
  · obtain rfl := Option.some.inj result
    exact absurd ok serialized
  · obtain rfl := Option.some.inj result
    exact absurd ok sent
  · split at result
    · cases result
    · obtain rfl := Option.some.inj result
      cases ok
    · next rc error _ _ =>
      obtain rfl := Option.some.inj result
      exact absurd ok error
    · obtain rfl := Option.some.inj result
      cases ok
    · next rc msg later arrived =>
      rw [arrived]
      split_ifs at result with parsed
      · rw [parsed]
        exact clientLockReply_ok result ok
      · obtain rfl := Option.some.inj result
        cases ok

end Flom
