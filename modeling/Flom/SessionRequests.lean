import Flom.Talk

set_option autoImplicit false

namespace Flom

def Msg.Asks (request : Msg) : Prop :=
  request.level = msgLevel ∧ request.verb = .lock ∧ request.step = msgStepIncr ∧
    0 < request.lock8.quantity ∧
    ∃ name, request.lock8.name = some name ∧ rsrcGetType name ≠ .null

def Msg.GivesBack (request : Msg) : Prop :=
  request.level = msgLevel ∧ request.verb = .unlock ∧ request.step = msgStepIncr ∧
    ∃ name, request.unlock8.name = some name ∧ rsrcGetType name ≠ .null ∧
      (request.unlock8.rollback ≠ 0 → rsrcGetTransactional name = true)

def ClientEvent.Proper : ClientEvent → Prop
  | .lock _ request => request.Asks
  | .unlock _ request => request.GivesBack
  | _ => True

structure Session.Proper (session : Session) : Prop where
  quantity : 0 < session.settings.resourceQuantity
  name : ∃ name, session.handle.config.resourceName = some name ∧ rsrcGetType name ≠ .null

def ApiCall.bounded : ApiCall → Bool
  | .tune (.resourceQuantity value) => value ≠ Int32.minValue
  | _ => true

structure Called.Proper (called : Called) : Prop where
  session : called.session.Proper
  events : ∀ event ∈ called.events, event.Proper

section

variable {session : Session}

theorem configMagnitude_pos {old value : Int32} (positive : 0 < old)
    (bounded : value ≠ Int32.minValue) :
    0 < configMagnitude old value := by
  unfold configMagnitude configTurned
  split_ifs with negative zero zero
  · exact positive
  · refine Int32.not_le.mp fun below => ?_
    obtain least | above := (Int32.neg_nonpos_iff value).mp below
    · exact bounded least
    · exact Int32.not_le.mpr negative above
  · exact positive
  · exact Int32.lt_of_le_of_ne (Int32.not_lt.mp negative) (Ne.symm zero)

theorem proper_still (proper : session.Proper) (rc : Rc) : Called.Proper ⟨rc, session, []⟩ :=
  ⟨proper, by simp⟩

theorem Connected.Establishes.proper {connected : Connected} {config : Config}
    {options : ConnectOptions} {conn : ClientConn} {startDaemon : Bool}
    (established : connected.Establishes config options conn startDaemon) :
    ∀ event ∈ connected.events, event.Proper := by
  intro event member
  obtain quiet | ⟨fd, rfl⟩ := established.quiet member
  · cases event <;> trivial
  · trivial

theorem asks_request (proper : session.Proper) {name : Name}
    (named : session.handle.config.resourceName = some name) :
    (clientRequest (session.request name)).Asks := by
  obtain ⟨own, same, typed⟩ := proper.name
  obtain rfl := Option.some.inj (named.symm.trans same)
  exact ⟨rfl, rfl, rfl, proper.quantity, name, rfl, typed⟩

theorem handleAsk_proper (proper : session.Proper) (net : ClientNet) :
    (handleAsk session net).Proper where
  session := by
    obtain ⟨config, settings, _, _⟩ := @handleAsk_keeps session net
    exact ⟨by rw [settings]; exact proper.quantity, by rw [config]; exact proper.name⟩
  events event member := by
    obtain ⟨name, named, rfl⟩ | ⟨rc, rfl⟩ := handleAsk_events net event member
    · exact asks_request proper named
    · trivial

theorem handleSeek_proper (proper : session.Proper) (net : ConnectNet) (asks : ClientNet) :
    (handleSeek session net asks).Proper := by
  have established := @clientConnect_establishes session.handle.config session.options session.conn
    true net
  have reached (state : HandleState) :
      (session.connected (clientConnect session.handle.config session.options session.conn true net)
      state).Proper := by
    obtain ⟨name, named, typed⟩ := proper.name
    exact ⟨proper.quantity, name, established.name.trans named, typed⟩
  unfold handleSeek
  dsimp only
  split_ifs
  · have asked := handleAsk_proper (reached .connected) asks
    refine ⟨asked.session, fun event member => ?_⟩
    exact (List.mem_append.mp member).elim (established.proper event) (asked.events event)
  · exact ⟨reached _, established.proper⟩

theorem handleDisconnect_proper (proper : session.Proper) (net : UnlockNet) :
    (handleDisconnect session net).Proper where
  session := by
    unfold handleDisconnect
    dsimp only
    split_ifs <;> exact ⟨proper.quantity, proper.name⟩
  events event member := by
    obtain ⟨fd, rfl⟩ | ⟨fd, closed, rfl⟩ := handleDisconnect_ends net event member <;> trivial

theorem proper_blind (called : Called) (rc : Rc) (proper : called.Proper) :
    Called.Proper { called with rc := rc } :=
  ⟨proper.session, proper.events⟩

theorem handleGiveBack_proper (proper : session.Proper) (rollback : Bool) (net : UnlockNet)
    (transactional : rollback = true →
      session.handle.config.resourceName.any rsrcGetTransactional = true) :
    (handleGiveBack session rollback net).Proper := by
  refine handleGiveBack_rule Called.Proper (proper_still proper)
    (fun _ => handleDisconnect_proper proper net) (fun name _ named => ?_)
  obtain ⟨own, same, typed⟩ := proper.name
  obtain rfl := Option.some.inj (named.symm.trans same)
  rw [named] at transactional
  have ended := @handleDisconnect_proper
    { session with handle := { session.handle with state := .connected } }
    ⟨proper.quantity, name, named, typed⟩ net
  refine ⟨ended.session, List.forall_mem_cons.mpr
    ⟨⟨rfl, rfl, rfl, name, rfl, typed, fun undone => ?_⟩, ended.events⟩⟩
  cases rollback with
  | false => exact absurd rfl undone
  | true => simpa using transactional rfl

theorem handleUnlockInternal_proper (proper : session.Proper) (rollback : Bool) (net : UnlockNet) :
    (handleUnlockInternal session rollback net).Proper :=
  handleUnlockInternal_rule Called.Proper proper_blind
    (handleGiveBack_proper proper _ net fun undoes => (Bool.and_eq_true_iff.mp undoes).2)

theorem handleClean_proper (proper : session.Proper) (net : UnlockNet) :
    (handleClean session net).Proper :=
  handleClean_rule Called.Proper proper_blind (proper_still proper _)
    (handleUnlockInternal_proper proper false net) fun _ cleaned _ =>
    ⟨⟨cleaned.session.quantity, cleaned.session.name⟩, cleaned.events⟩

theorem handleTune_proper {allowed : HandleState → Bool} {change : Session → Rc × Session}
    (keeps : ∀ session : Session, session.Proper → (change session).2.Proper)
    (proper : session.Proper) :
    (handleTune allowed change session).2.Proper := by
  unfold handleTune
  split_ifs
  · exact keeps session proper
  · exact proper

theorem sessionTune_proper (proper : session.Proper) (tuning : Tuning)
    (bounded : (ApiCall.tune tuning).bounded = true) :
    (sessionTune session tuning).2.Proper := by
  cases tuning with
  | resourceQuantity value =>
    exact handleTune_proper
      (fun session proper => ⟨configMagnitude_pos proper.quantity (of_decide_eq_true bounded),
        proper.name⟩) proper
  | tlsCertificate resolved | tlsPrivateKey resolved | tlsCaCertificate resolved =>
    exact handleTune_proper
      (fun session proper => by cases resolved <;> exact ⟨proper.quantity, proper.name⟩) proper
  | networkInterface value scope =>
    exact handleTune_proper
      (fun session proper => by cases scope <;> exact ⟨proper.quantity, proper.name⟩) proper
  | _ => exact handleTune_proper (fun session proper => ⟨proper.quantity, proper.name⟩) proper

theorem handleSet_proper {handle : Handle} {call : Setting × Text} {answer : Rc × Handle}
    (named : ∃ name, handle.config.resourceName = some name ∧ rsrcGetType name ≠ .null)
    (sets : handleSet handle call = some answer) :
    ∃ name, answer.2.config.resourceName = some name ∧ rsrcGetType name ≠ .null := by
  obtain ⟨_, kept⟩ | ⟨_, _, typed⟩ := handleSet_name sets
  · exact kept ▸ named
  · exact typed

theorem apiCall_proper (proper : session.Proper) (call : ApiCall) (bounded : call.bounded = true) :
    (apiCall session call).Proper := by
  cases call with
  | lock net asks =>
    exact handleLock_rule Called.Proper (proper_still proper)
      (fun _ => handleAsk_proper proper asks) (fun _ => handleSeek_proper proper net asks)
  | unlock net | unlockRollback net => exact handleUnlockInternal_proper proper _ net
  | clean net => exact handleClean_proper proper net
  | delete net =>
    have cleaned := handleClean_proper proper net
    exact ⟨⟨cleaned.session.quantity, cleaned.session.name⟩, cleaned.events⟩
  | set setting value =>
    simp only [apiCall]
    cases sets : handleSet session.handle (setting, value) with
    | none => exact ⟨⟨proper.quantity, proper.name⟩, by simp⟩
    | some set => exact ⟨⟨proper.quantity, handleSet_proper proper.name sets⟩, by simp⟩
  | tune tuning => exact ⟨sessionTune_proper proper tuning bounded, by simp [apiCall]⟩

theorem sessionStep_proper (proper : session.Proper) (call : ApiCall)
    (bounded : call.bounded = true) :
    (sessionStep session call).1.Proper ∧ ∀ event ∈ (sessionStep session call).2, event.Proper := by
  unfold sessionStep
  split_ifs
  · exact ⟨proper, by simp⟩
  · have called := apiCall_proper proper call bounded
    exact ⟨called.session, called.events⟩

end

theorem session_requests (config : Config) (settings : ClientConfig) (options : ConnectOptions)
    (calls : List ApiCall) (named : ∃ name, config.resourceName = some name ∧
      rsrcGetType name ≠ .null) (positive : 0 < settings.resourceQuantity)
    (bounded : ∀ call ∈ calls, call.bounded = true) :
    ∀ event ∈ Monitor.emitted sessionStep (handleInit config settings options) calls,
    event.Proper :=
  Monitor.emitted_all Session.Proper ClientEvent.Proper
    (fun _ proper call member => sessionStep_proper proper call (bounded call member))
      ⟨positive, named⟩

theorem session_requests_local :
    let calls : List ApiCall :=
      [.tune (.resourceQuantity (-3)), .lock (localNet 3) grantedNet,
        .unlock ⟨.ok, .ok, true, true⟩]
    (∃ name, (localConfig ['r']).resourceName = some name ∧ rsrcGetType name ≠ .null) ∧
      0 < localSettings.resourceQuantity ∧ (∀ call ∈ calls, call.bounded = true) ∧
        ∀ event ∈ Monitor.emitted sessionStep
          (handleInit (localConfig ['r']) localSettings localOptions) calls,
          event.Proper := by
  intro calls
  have named : ∃ name, (localConfig ['r']).resourceName = some name ∧ rsrcGetType name ≠ .null :=
    ⟨['r'], rfl, by decide⟩
  have positive : 0 < localSettings.resourceQuantity := by decide
  have bounded : ∀ call ∈ calls, call.bounded = true := by simp [calls, ApiCall.bounded]
  exact ⟨named, positive, bounded,
    session_requests (localConfig ['r']) localSettings localOptions calls named positive bounded⟩

end Flom
