import Flom.Lib.Run
import Flom.RsrcName

set_option autoImplicit false

namespace Flom

inductive HandleState where
  | init | connected | locked | disconnected | cleaned
deriving DecidableEq, Repr

structure Config where
  resourceName : Option Name
  resourceTransactional : Bool
  socketName : Option Name
  unicastAddress : Option Name
  multicastAddress : Option Name
deriving DecidableEq, Repr

structure Handle where
  state : HandleState
  config : Config
deriving DecidableEq, Repr

inductive Setting where
  | resourceName | socketName | unicastAddress | multicastAddress
deriving DecidableEq, Repr

def Config.get (config : Config) : Setting → Option Name
  | .resourceName => config.resourceName
  | .socketName => config.socketName
  | .unicastAddress => config.unicastAddress
  | .multicastAddress => config.multicastAddress

def Config.put (config : Config) (value : Option Name) : Setting → Config
  | .resourceName => { config with resourceName := value }
  | .socketName => { config with socketName := value }
  | .unicastAddress => { config with unicastAddress := value }
  | .multicastAddress => { config with multicastAddress := value }

/-- What is handed to a setter: a string of the caller, or the pointer that a getter of the handle
has given. -/
inductive Text where
  | own (value : Name)
  | lent (setting : Setting)
deriving DecidableEq, Repr

def Text.read (config : Config) : Text → Option Name
  | .own value => some value
  | .lent setting => config.get setting

/-- g_free of the old string, then g_strdup of the argument; `none` is a read of freed memory. -/
def Config.renew (config : Config) (setting : Setting) : Option Text → Option Config
  | none => some (config.put none setting)
  | some text =>
    (text.read (config.put none setting)).map fun value => config.put (some value) setting

def localSocketSize : Nat := 108

def configSetSocketName (config : Config) (socketName : Option Text) : Option (Rc × Config) :=
  match socketName with
  | none => (config.renew .socketName none).map (.ok, ·)
  | some text =>
    (text.read config).bind fun value =>
      if localSocketSize ≤ value.length then some (.bufferOverflow, config)
      else (config.renew .socketName (some text)).map (.ok, ·)

def configSetUnicastAddress (config : Config) (address : Option Text) : Option Config :=
  config.renew .unicastAddress address

def configSetMulticastAddress (config : Config) (address : Option Text) : Option Config :=
  config.renew .multicastAddress address

def configSetResourceName (config : Config) (resourceName : Text) : Option (Rc × Config) :=
  (resourceName.read config).bind fun value =>
    let set : Option (Rc × Config) :=
      if value = defaultResourceName then some (.invalidResourceName, config)
      else if rsrcGetType value = .null then some (.invalidResourceName, config)
      else (config.renew .resourceName (some resourceName)).map (.ok, ·)
    set.bind fun set =>
      (resourceName.read set.2).map fun value =>
        (set.1, { set.2 with resourceTransactional := rsrcGetTransactional value })

def HandleState.idle : HandleState → Bool
  | .init | .disconnected => true
  | .connected | .locked | .cleaned => false

def handleResetSocketName (handle : Handle) : Option Handle :=
  if handle.state.idle then
    (configSetSocketName handle.config none).map fun set => { handle with config := set.2 }
  else some handle

def handleResetUnicastAddress (handle : Handle) : Option Handle :=
  if handle.state.idle then
    (configSetUnicastAddress handle.config none).map fun config => { handle with config := config }
  else some handle

def handleResetMulticastAddress (handle : Handle) : Option Handle :=
  if handle.state.idle then
    (configSetMulticastAddress handle.config none).map fun config =>
      { handle with config := config }
  else some handle

def handleSetResourceName (handle : Handle) (value : Text) : Option (Rc × Handle) :=
  match handle.state with
  | .init | .disconnected | .connected =>
    (configSetResourceName handle.config value).map fun set =>
      (.ok, { handle with config := set.2 })
  | .locked | .cleaned => some (.apiImmutableHandle, handle)

def handleSetSocketName (handle : Handle) (value : Text) : Option (Rc × Handle) :=
  if handle.state.idle then do
    let reset ← handleResetUnicastAddress handle
    let reset ← handleResetMulticastAddress reset
    let set ← configSetSocketName reset.config (some value)
    some (set.1, { reset with config := set.2 })
  else some (.apiImmutableHandle, handle)

def handleSetUnicastAddress (handle : Handle) (value : Text) : Option (Rc × Handle) :=
  if handle.state.idle then do
    let config ← configSetUnicastAddress handle.config (some value)
    let reset ← handleResetSocketName { handle with config := config }
    let reset ← handleResetMulticastAddress reset
    some (.ok, reset)
  else some (.apiImmutableHandle, handle)

def handleSetMulticastAddress (handle : Handle) (value : Text) : Option (Rc × Handle) :=
  if handle.state.idle then do
    let config ← configSetMulticastAddress handle.config (some value)
    let reset ← handleResetSocketName { handle with config := config }
    let reset ← handleResetUnicastAddress reset
    some (.ok, reset)
  else some (.apiImmutableHandle, handle)

def handleSet (handle : Handle) : Setting × Text → Option (Rc × Handle)
  | (.resourceName, value) => handleSetResourceName handle value
  | (.socketName, value) => handleSetSocketName handle value
  | (.unicastAddress, value) => handleSetUnicastAddress handle value
  | (.multicastAddress, value) => handleSetMulticastAddress handle value

def handleGet (handle : Handle) (setting : Setting) : Option Name := handle.config.get setting

inductive Endpoint where
  | local (socketName : Name)
  | tcp (address : Name)
  | discovered (address : Name)
deriving DecidableEq, Repr

/-- How flom_client_connect chooses; the last branch is the one it calls impossible. -/
def clientConnectChoice (config : Config) : Except Rc Endpoint :=
  match config.socketName, config.unicastAddress, config.multicastAddress with
  | some socketName, _, _ => .ok (.local socketName)
  | none, some address, _ => .ok (.tcp address)
  | none, none, some address => .ok (.discovered address)
  | none, none, none => .error .internalError

def Config.endpoints (config : Config) : Nat :=
  config.socketName.toList.length + config.unicastAddress.toList.length +
    config.multicastAddress.toList.length

def Config.OneEndpoint (config : Config) : Prop := config.endpoints = 1

instance (config : Config) : Decidable config.OneEndpoint := inferInstanceAs (Decidable (_ = _))

structure Handle.Answered (handle : Handle) (call : Setting × Text) (answer : Rc × Handle) :
    Prop where
  set : answer.1 = .ok → handleGet answer.2 call.1 = call.2.read handle.config
  kept : answer.1 ≠ .ok → answer.2.config = handle.config
  endpoint : answer.2.config.OneEndpoint
  connects : clientConnectChoice answer.2.config ≠ .error .internalError

def Handle.Faithful (handle : Handle) (call : Setting × Text) : Prop :=
  ∃ answer, handleSet handle call = some answer ∧ handle.Answered call answer

def Handle.Passes (handle : Handle) (call : Setting × Text) : Prop :=
  (call.2.read handle.config).isSome

instance (handle : Handle) (call : Setting × Text) : Decidable (handle.Passes call) :=
  inferInstanceAs (Decidable (_ = true))

def configAcceptsName (name : Name) : Prop := name ≠ defaultResourceName ∧ rsrcGetType name ≠ .null

instance (name : Name) : Decidable (configAcceptsName name) := inferInstanceAs (Decidable (_ ∧ _))

/-- What is copied is not what has just been freed, and what is not copied changes nothing. -/
def Handle.Harmless (handle : Handle) : Setting × Text → Prop
  | (.resourceName, text) => handle.state = .locked ∨ handle.state = .cleaned ∨
      if ∃ value ∈ text.read handle.config, configAcceptsName value then text ≠ .lent .resourceName
      else text.read handle.config = handle.config.resourceName
  | (.socketName, text) => handle.state.idle = false ∨
      if ∃ value ∈ text.read handle.config, value.length < localSocketSize then
        text ∉ [Text.lent .socketName, .lent .unicastAddress, .lent .multicastAddress]
      else handle.config.socketName.isSome
  | (.unicastAddress, text) => handle.state.idle = false ∨ text ≠ .lent .unicastAddress
  | (.multicastAddress, text) => handle.state.idle = false ∨ text ≠ .lent .multicastAddress

instance (handle : Handle) (call : Setting × Text) : Decidable (handle.Harmless call) :=
  match call with
  | (.resourceName, _) => inferInstanceAs (Decidable (_ ∨ _ ∨ ite _ _ _))
  | (.socketName, _) => inferInstanceAs (Decidable (_ ∨ ite _ _ _))
  | (.unicastAddress, _) | (.multicastAddress, _) => inferInstanceAs (Decidable (_ ∨ _))

theorem read_put {config : Config} {setting : Setting} {text : Text} {value : Option Name}
    (apart : text ≠ .lent setting) : text.read (config.put value setting) = text.read config := by
  cases text with
  | own value => rfl
  | lent other =>
    cases setting <;> cases other <;> first | rfl | exact absurd rfl apart

theorem renew_some {config : Config} {setting : Setting} {text : Text} {value : Name}
    (apart : text ≠ .lent setting) (read : text.read config = some value) :
    config.renew setting (some text) = some (config.put (some value) setting) := by
  rw [Config.renew, read_put apart, read, Option.map_some]

theorem renew_lent {config : Config} {setting : Setting} :
    config.renew setting (some (.lent setting)) = none := by
  cases setting <;> rfl

theorem connects_of_oneEndpoint {config : Config} (one : config.OneEndpoint) :
    clientConnectChoice config ≠ .error .internalError := by
  unfold clientConnectChoice
  split
  · exact fun same => by cases same
  · exact fun same => by cases same
  · exact fun same => by cases same
  · next socket unicast multicast =>
    simp [Config.OneEndpoint, Config.endpoints, socket, unicast, multicast] at one

theorem socket_only {config : Config} (one : config.OneEndpoint)
    (socket : config.socketName.isSome) :
    config.unicastAddress = none ∧ config.multicastAddress = none := by
  obtain ⟨name, named⟩ := Option.isSome_iff_exists.mp socket
  simp only [Config.OneEndpoint, Config.endpoints, named, Option.toList_some, List.length_singleton]
    at one
  constructor
  · rw [← Option.toList_eq_nil_iff, ← List.length_eq_zero_iff]
    omega
  · rw [← Option.toList_eq_nil_iff, ← List.length_eq_zero_iff]
    omega

theorem faithful_of_refused {handle : Handle} {call : Setting × Text}
    (one : handle.config.OneEndpoint)
    (refused : handleSet handle call = some (.apiImmutableHandle, handle)) : handle.Faithful call :=
  ⟨_, refused, fun done => (by cases done), fun _ => rfl, one, connects_of_oneEndpoint one⟩

theorem faithful_of_set {handle reached : Handle} {call : Setting × Text}
    (sets : handleSet handle call = some (.ok, reached))
    (got : handleGet reached call.1 = call.2.read handle.config)
    (one : reached.config.OneEndpoint) :
    handle.Faithful call :=
  ⟨_, sets, fun _ => got, fun failed => absurd rfl failed, one, connects_of_oneEndpoint one⟩

theorem not_faithful_of_freed {handle : Handle} {call : Setting × Text}
    (freed : handleSet handle call = none) :
    ¬handle.Faithful call := by
  rintro ⟨answer, answers, _⟩
  rw [freed] at answers
  cases answers

theorem configSetResourceName_accepts {config : Config} {text : Text} {value : Name}
    (read : text.read config = some value) (accepts : configAcceptsName value)
    (apart : text ≠ .lent .resourceName) :
    configSetResourceName config text = some (.ok, { config with
      resourceName := some value, resourceTransactional := rsrcGetTransactional value }) := by
  have again : text.read (config.put (some value) .resourceName) = some value :=
    (read_put apart).trans read
  rw [configSetResourceName, read, Option.bind_some, if_neg accepts.1, if_neg accepts.2,
    renew_some apart read,
    Option.map_some, Option.bind_some, again]
  rfl

theorem configSetResourceName_freed {config : Config} {value : Name}
    (read : config.resourceName = some value) (accepts : configAcceptsName value) :
    configSetResourceName config (.lent .resourceName) = none := by
  have there : (Text.lent .resourceName).read config = some value := read
  rw [configSetResourceName, there, Option.bind_some, if_neg accepts.1, if_neg accepts.2,
    renew_lent]
  rfl

theorem configSetResourceName_refuses {config : Config} {text : Text} {value : Name}
    (read : text.read config = some value) (refuses : ¬configAcceptsName value) :
    configSetResourceName config text = some (.invalidResourceName, { config with
      resourceTransactional := rsrcGetTransactional value }) := by
  have refused : (if value = defaultResourceName then some (Rc.invalidResourceName, config)
      else if rsrcGetType value = .null then some (.invalidResourceName, config)
      else (config.renew .resourceName (some text)).map (.ok, ·)) = some
          (.invalidResourceName, config) := by
    unfold configAcceptsName at refuses
    split_ifs with reserved null
    · rfl
    · rfl
    · exact absurd ⟨reserved, null⟩ refuses
  rw [configSetResourceName, read, Option.bind_some]
  dsimp only
  rw [refused, Option.bind_some, read, Option.map_some]

theorem setResourceName_faithful {handle : Handle} {text : Text} (one : handle.config.OneEndpoint)
    (passes : handle.Passes (.resourceName, text)) :
    handle.Faithful (.resourceName, text) ↔ handle.Harmless (.resourceName, text) := by
  obtain ⟨value, read⟩ := Option.isSome_iff_exists.mp passes
  have accepts : (∃ value ∈ text.read handle.config, configAcceptsName value) ↔
      configAcceptsName value := by
    simp [read]
  -- INIT, DISCONNECTED and CONNECTED set the name and say so whether or not it was accepted.
  have changes (sets : handleSet handle (.resourceName, text) =
      (configSetResourceName handle.config text).map fun set =>
      (.ok, { handle with config := set.2 })) :
      handle.Faithful (.resourceName, text) ↔
        if ∃ value ∈ text.read handle.config,
        configAcceptsName value then text ≠ .lent .resourceName
        else text.read handle.config = handle.config.resourceName := by
    split_ifs with taken
    · rw [accepts] at taken
      constructor
      · rintro faithful rfl
        refine not_faithful_of_freed ?_ faithful
        rw [sets, configSetResourceName_freed read taken, Option.map_none]
      · intro apart
        rw [configSetResourceName_accepts read taken apart] at sets
        exact faithful_of_set sets read.symm one
    · rw [accepts] at taken
      rw [configSetResourceName_refuses read taken] at sets
      constructor
      · rintro ⟨answer, answers, faithful⟩
        obtain rfl := Option.some.inj (sets.symm.trans answers)
        exact (faithful.set rfl).symm
      · intro same
        exact faithful_of_set sets same.symm one
  cases state : handle.state with
  | locked =>
    have refused : handleSet handle (.resourceName, text) = some (.apiImmutableHandle, handle) := by
      simp [handleSet, handleSetResourceName, state]
    exact ⟨fun _ => .inl state, fun _ => faithful_of_refused one refused⟩
  | cleaned =>
    have refused : handleSet handle (.resourceName, text) = some (.apiImmutableHandle, handle) := by
      simp [handleSet, handleSetResourceName, state]
    exact ⟨fun _ => .inr (.inl state), fun _ => faithful_of_refused one refused⟩
  | init | disconnected | connected =>
    rw [changes (by simp [handleSet, handleSetResourceName, state])]
    simp [Handle.Harmless, state]

theorem configSetSocketName_fits {config : Config} {text : Text} {value : Name}
    (read : text.read config = some value) (short : value.length < localSocketSize) :
    configSetSocketName config (some text) = (config.renew .socketName (some text)).map
      (.ok, ·) := by
  rw [configSetSocketName, read]
  exact if_neg (Nat.not_le.mpr short)

theorem configSetSocketName_long {config : Config} {text : Text} {value : Name}
    (read : text.read config = some value) (long : ¬value.length < localSocketSize) :
    configSetSocketName config (some text) = some (.bufferOverflow, config) := by
  rw [configSetSocketName, read]
  exact if_pos (Nat.not_lt.mp long)

section

variable {state : HandleState} {config : Config}

theorem handleResetSocketName_idle (idle : state.idle = true) :
    handleResetSocketName ⟨state, config⟩ = some ⟨state, config.put none .socketName⟩ := if_pos idle

theorem handleResetUnicastAddress_idle (idle : state.idle = true) :
    handleResetUnicastAddress ⟨state, config⟩ = some ⟨state, config.put none .unicastAddress⟩ :=
  if_pos idle

theorem handleResetMulticastAddress_idle (idle : state.idle = true) :
    handleResetMulticastAddress ⟨state, config⟩ = some ⟨state, config.put none .multicastAddress⟩ :=
  if_pos idle

end

theorem handleSetSocketName_idle {handle : Handle} {text : Text} (idle : handle.state.idle = true) :
    handleSet handle (.socketName, text) =
      (configSetSocketName { handle.config with unicastAddress := none, multicastAddress := none }
        (some text)).map
        fun set => (set.1, { handle with config := set.2 }) := by
  obtain ⟨state, config⟩ := handle
  simp only [handleSet, handleSetSocketName, idle, if_true, handleResetUnicastAddress_idle idle,
    handleResetMulticastAddress_idle idle, Option.bind_eq_bind, Option.bind_some, Config.put]
  cases configSetSocketName { config with unicastAddress := none, multicastAddress := none }
    (some text) <;> rfl

theorem setSocketName_faithful {handle : Handle} {text : Text} (one : handle.config.OneEndpoint)
    (passes : handle.Passes (.socketName, text)) :
    handle.Faithful (.socketName, text) ↔ handle.Harmless (.socketName, text) := by
  obtain ⟨value, read⟩ := Option.isSome_iff_exists.mp passes
  cases idle : handle.state.idle with
  | false =>
    have refused : handleSet handle (.socketName, text) = some (.apiImmutableHandle, handle) := by
      simp [handleSet, handleSetSocketName, idle]
    exact ⟨fun _ => .inl idle, fun _ => faithful_of_refused one refused⟩
  | true =>
    have sets := @handleSetSocketName_idle handle text idle
    let bare : Config := { handle.config with unicastAddress := none, multicastAddress := none }
    have harmless : handle.Harmless (.socketName, text) ↔ if value.length < localSocketSize then
        text ∉ [Text.lent .socketName, .lent .unicastAddress, .lent .multicastAddress]
        else handle.config.socketName.isSome := by
      simp [Handle.Harmless, idle, read]
    rw [harmless]
    by_cases gone : text = .lent .unicastAddress ∨ text = .lent .multicastAddress
    · -- The address that was handed over has been reset.
      have dangling : text.read bare = none := by obtain rfl | rfl := gone <;> rfl
      have freed : handleSet handle (.socketName, text) = none := by
        rw [sets, configSetSocketName, dangling]
        rfl
      refine iff_of_false (not_faithful_of_freed freed) ?_
      split_ifs with short
      · obtain rfl | rfl := gone <;> simp
      · intro socket
        obtain ⟨unicast, multicast⟩ := socket_only one socket
        obtain rfl | rfl := gone
        · exact absurd (unicast.symm.trans read) (by simp)
        · exact absurd (multicast.symm.trans read) (by simp)
    · rw [not_or] at gone
      have there : text.read bare = some value := by
        have first := @read_put (handle.config.put none .unicastAddress) .multicastAddress text none
          gone.2
        exact first.trans ((read_put gone.1).trans read)
      by_cases short : value.length < localSocketSize
      · rw [if_pos short]
        rw [configSetSocketName_fits there short] at sets
        by_cases own : text = .lent .socketName
        · subst own
          refine iff_of_false (not_faithful_of_freed ?_) (by simp)
          rw [sets, renew_lent]
          rfl
        · rw [renew_some own there] at sets
          exact iff_of_true (faithful_of_set sets read.symm rfl) (by simp [own, gone.1, gone.2])
      · rw [if_neg short]
        rw [configSetSocketName_long there short] at sets
        constructor
        · rintro ⟨answer, answers, faithful⟩
          obtain rfl := Option.some.inj (sets.symm.trans answers)
          have ends : handle.config.socketName.toList.length + 0 + 0 = 1 := faithful.endpoint
          cases socket : handle.config.socketName with
          | some name => rfl
          | none =>
            rw [socket] at ends
            cases ends
        · intro socket
          obtain ⟨unicast, multicast⟩ := socket_only one socket
          have same : bare = handle.config := by
            obtain ⟨state, config⟩ := handle
            obtain ⟨_, _, _, _, _⟩ := config
            obtain rfl : _ = none := unicast
            obtain rfl : _ = none := multicast
            rfl
          refine ⟨_, sets, fun done => (by cases done), fun _ => same, ?_, ?_⟩
          · exact same ▸ one
          · exact connects_of_oneEndpoint (same ▸ one)

theorem setUnicastAddress_faithful {handle : Handle} {text : Text} (one : handle.config.OneEndpoint)
    (passes : handle.Passes (.unicastAddress, text)) :
    handle.Faithful (.unicastAddress, text) ↔ handle.Harmless (.unicastAddress, text) := by
  obtain ⟨value, read⟩ := Option.isSome_iff_exists.mp passes
  cases idle : handle.state.idle with
  | false =>
    have refused : handleSet handle (.unicastAddress, text) = some
        (.apiImmutableHandle, handle) := by
      simp [handleSet, handleSetUnicastAddress, idle]
    exact ⟨fun _ => .inl idle, fun _ => faithful_of_refused one refused⟩
  | true =>
    simp only [Handle.Harmless, idle, Bool.true_eq_false, false_or]
    constructor
    · rintro faithful rfl
      refine not_faithful_of_freed ?_ faithful
      simp only [handleSet, handleSetUnicastAddress, idle, if_true, configSetUnicastAddress,
        renew_lent]
      rfl
    · intro apart
      have sets : handleSet handle (.unicastAddress, text) = some
          (.ok, { handle with config := { handle.config with
          socketName := none, unicastAddress := some value, multicastAddress := none } }) := by
        simp only [handleSet, handleSetUnicastAddress, idle, if_true, configSetUnicastAddress,
          renew_some apart read,
          handleResetSocketName_idle idle, handleResetMulticastAddress_idle idle,
          Option.bind_eq_bind,
          Option.bind_some, Config.put]
      exact faithful_of_set sets read.symm rfl

theorem setMulticastAddress_faithful {handle : Handle} {text : Text}
    (one : handle.config.OneEndpoint) (passes : handle.Passes (.multicastAddress, text)) :
    handle.Faithful (.multicastAddress, text) ↔ handle.Harmless (.multicastAddress, text) := by
  obtain ⟨value, read⟩ := Option.isSome_iff_exists.mp passes
  cases idle : handle.state.idle with
  | false =>
    have refused : handleSet handle (.multicastAddress, text) = some
        (.apiImmutableHandle, handle) := by
      simp [handleSet, handleSetMulticastAddress, idle]
    exact ⟨fun _ => .inl idle, fun _ => faithful_of_refused one refused⟩
  | true =>
    simp only [Handle.Harmless, idle, Bool.true_eq_false, false_or]
    constructor
    · rintro faithful rfl
      refine not_faithful_of_freed ?_ faithful
      simp only [handleSet, handleSetMulticastAddress, idle, if_true, configSetMulticastAddress,
        renew_lent]
      rfl
    · intro apart
      have sets : handleSet handle (.multicastAddress, text) = some
          (.ok, { handle with config := { handle.config with
          socketName := none, unicastAddress := none, multicastAddress := some value } }) := by
        simp only [handleSet, handleSetMulticastAddress, idle, if_true, configSetMulticastAddress,
          renew_some apart read, handleResetSocketName_idle idle,
          handleResetUnicastAddress_idle idle,
          Option.bind_eq_bind, Option.bind_some, Config.put]
      exact faithful_of_set sets read.symm rfl

section

variable {handle reached : Handle} {config renewed : Config} {setting : Setting}

theorem renew_name (other : setting ≠ .resourceName) {text : Option Text}
    (renews : config.renew setting text = some renewed) :
    renewed.resourceName = config.resourceName := by
  have put (value : Option Name) :
      (config.put value setting).resourceName = config.resourceName := by
    cases setting <;> first | rfl | exact absurd rfl other
  cases text with
  | none =>
    obtain rfl := Option.some.inj renews
    exact put none
  | some text =>
    obtain ⟨value, _, rfl⟩ := Option.map_eq_some_iff.mp renews
    exact put (some value)

theorem configSetSocketName_name {text : Option Text} {set : Rc × Config}
    (sets : configSetSocketName config text = some set) :
    set.2.resourceName = config.resourceName := by
  cases text with
  | none =>
    obtain rfl := Option.some.inj sets
    rfl
  | some text =>
    obtain ⟨value, _, stored⟩ := Option.bind_eq_some_iff.mp sets
    split_ifs at stored with long
    · obtain rfl := Option.some.inj stored
      rfl
    · obtain ⟨renewed, renews, rfl⟩ := Option.map_eq_some_iff.mp stored
      exact renew_name (by decide) renews

theorem configSetResourceName_name {text : Text} {set : Rc × Config}
    (sets : configSetResourceName config text = some set) :
    set.2.resourceName = config.resourceName ∨
      ∃ name, set.2.resourceName = some name ∧ rsrcGetType name ≠ .null := by
  obtain ⟨value, read, stored⟩ := Option.bind_eq_some_iff.mp sets
  by_cases accepts : configAcceptsName value
  · by_cases apart : text = .lent .resourceName
    · subst apart
      rw [configSetResourceName_freed read accepts] at sets
      cases sets
    · rw [configSetResourceName_accepts read accepts apart] at sets
      obtain rfl := Option.some.inj sets
      exact .inr ⟨value, rfl, accepts.2⟩
  · rw [configSetResourceName_refuses read accepts] at sets
    obtain rfl := Option.some.inj sets
    exact .inl rfl

def Handle.Apart (handle reached : Handle) : Prop :=
  reached.state = handle.state ∧ reached.config.resourceName = handle.config.resourceName

theorem Handle.Apart.trans {first second third : Handle} (before : first.Apart second)
    (after : second.Apart third) :
    first.Apart third := ⟨after.1.trans before.1, after.2.trans before.2⟩

theorem handleResetSocketName_apart (resets : handleResetSocketName handle = some reached) :
    handle.Apart reached := by
  unfold handleResetSocketName at resets
  split_ifs at resets with idle
  · obtain ⟨set, sets, rfl⟩ := Option.map_eq_some_iff.mp resets
    exact ⟨rfl, configSetSocketName_name sets⟩
  · obtain rfl := Option.some.inj resets
    exact ⟨rfl, rfl⟩

theorem handleResetUnicastAddress_apart (resets : handleResetUnicastAddress handle = some reached) :
    handle.Apart reached := by
  unfold handleResetUnicastAddress at resets
  split_ifs at resets with idle
  · obtain ⟨renewed, renews, rfl⟩ := Option.map_eq_some_iff.mp resets
    exact ⟨rfl, renew_name (by decide) renews⟩
  · obtain rfl := Option.some.inj resets
    exact ⟨rfl, rfl⟩

theorem handleResetMulticastAddress_apart
    (resets : handleResetMulticastAddress handle = some reached) :
    handle.Apart reached := by
  unfold handleResetMulticastAddress at resets
  split_ifs at resets with idle
  · obtain ⟨renewed, renews, rfl⟩ := Option.map_eq_some_iff.mp resets
    exact ⟨rfl, renew_name (by decide) renews⟩
  · obtain rfl := Option.some.inj resets
    exact ⟨rfl, rfl⟩

theorem handleSet_name {call : Setting × Text} {answer : Rc × Handle}
    (sets : handleSet handle call = some answer) :
    handle.Apart answer.2 ∨ answer.2.state = handle.state ∧ handle.state ≠ .locked ∧
      ∃ name, answer.2.config.resourceName = some name ∧ rsrcGetType name ≠ .null := by
  obtain ⟨setting, text⟩ := call
  cases setting with
  | resourceName =>
    have refused (same : some (.apiImmutableHandle, handle) = some answer) :
        handle.Apart answer.2 := by
      obtain rfl := Option.some.inj same
      exact ⟨rfl, rfl⟩
    have changed (unlocked : handle.state ≠ .locked)
        (same : (configSetResourceName handle.config text).map
      (fun set => (Rc.ok, { handle with config := set.2 })) = some answer) :
        handle.Apart answer.2 ∨ answer.2.state = handle.state ∧ handle.state ≠ .locked ∧
          ∃ name, answer.2.config.resourceName = some name ∧ rsrcGetType name ≠ .null := by
      obtain ⟨set, stored, rfl⟩ := Option.map_eq_some_iff.mp same
      obtain kept | typed := configSetResourceName_name stored
      · exact .inl ⟨rfl, kept⟩
      · exact .inr ⟨rfl, unlocked, typed⟩
    obtain ⟨state, config⟩ := handle
    cases state with
    | locked | cleaned => exact .inl (refused sets)
    | init | disconnected | connected => exact changed (by simp) sets
  | socketName =>
    simp only [handleSet, handleSetSocketName] at sets
    split_ifs at sets with idle
    · obtain ⟨first, unicast, rest⟩ := Option.bind_eq_some_iff.mp sets
      obtain ⟨second, multicast, rest⟩ := Option.bind_eq_some_iff.mp rest
      obtain ⟨set, stored, same⟩ := Option.bind_eq_some_iff.mp rest
      obtain rfl := Option.some.inj same
      refine .inl ((handleResetUnicastAddress_apart unicast).trans
        ((handleResetMulticastAddress_apart multicast).trans
          ⟨rfl, configSetSocketName_name stored⟩))
    · obtain rfl := Option.some.inj sets
      exact .inl ⟨rfl, rfl⟩
  | unicastAddress =>
    simp only [handleSet, handleSetUnicastAddress] at sets
    split_ifs at sets with idle
    · obtain ⟨renewed, renews, rest⟩ := Option.bind_eq_some_iff.mp sets
      obtain ⟨first, socket, rest⟩ := Option.bind_eq_some_iff.mp rest
      obtain ⟨second, multicast, same⟩ := Option.bind_eq_some_iff.mp rest
      obtain rfl := Option.some.inj same
      have named : handle.Apart { handle with config := renewed } :=
        ⟨rfl, renew_name (by decide) renews⟩
      exact .inl (named.trans ((handleResetSocketName_apart socket).trans
        (handleResetMulticastAddress_apart multicast)))
    · obtain rfl := Option.some.inj sets
      exact .inl ⟨rfl, rfl⟩
  | multicastAddress =>
    simp only [handleSet, handleSetMulticastAddress] at sets
    split_ifs at sets with idle
    · obtain ⟨renewed, renews, rest⟩ := Option.bind_eq_some_iff.mp sets
      obtain ⟨first, socket, rest⟩ := Option.bind_eq_some_iff.mp rest
      obtain ⟨second, unicast, same⟩ := Option.bind_eq_some_iff.mp rest
      obtain rfl := Option.some.inj same
      have named : handle.Apart { handle with config := renewed } :=
        ⟨rfl, renew_name (by decide) renews⟩
      exact .inl (named.trans ((handleResetSocketName_apart socket).trans
        (handleResetUnicastAddress_apart unicast)))
    · obtain rfl := Option.some.inj sets
      exact .inl ⟨rfl, rfl⟩

end

theorem handleSet_faithful {handle : Handle} {call : Setting × Text}
    (one : handle.config.OneEndpoint) (passes : handle.Passes call) : handle.Faithful call ↔
    handle.Harmless call := by
  obtain ⟨setting, text⟩ := call
  cases setting with
  | resourceName => exact setResourceName_faithful one passes
  | socketName => exact setSocketName_faithful one passes
  | unicastAddress => exact setUnicastAddress_faithful one passes
  | multicastAddress => exact setMulticastAddress_faithful one passes

def handleStep (handle : Handle) (call : Setting × Text) : Handle :=
  ((handleSet handle call).map Prod.snd).getD handle

theorem Handle.Faithful.endpoint {handle : Handle} {call : Setting × Text}
    (faithful : handle.Faithful call) :
    (handleStep handle call).config.OneEndpoint := by
  obtain ⟨answer, answers, answered⟩ := faithful
  rw [handleStep, answers]
  exact answered.endpoint

theorem setters_faithful_iff (handle : Handle) (one : handle.config.OneEndpoint)
    (calls : List (Setting × Text)) (passed : Run.Along handleStep Handle.Passes handle calls) :
    Run.Along handleStep Handle.Faithful handle calls ↔
    Run.Along handleStep Handle.Harmless handle calls := by
  constructor
  · intro along
    exact Run.along_with (fun reached => reached.config.OneEndpoint)
      (fun reached call _ fine => fine.1.endpoint)
      (fun reached call one fine => (handleSet_faithful one fine.2).mp fine.1) one
      (Run.along_and.mpr ⟨along, passed⟩)
  · intro along
    exact Run.along_with (fun reached => reached.config.OneEndpoint)
      (fun reached call one fine => ((handleSet_faithful one fine.2).mpr fine.1).endpoint)
      (fun reached call one fine => (handleSet_faithful one fine.2).mpr fine.1) one
        (Run.along_and.mpr ⟨along, passed⟩)

def unicastHandle : Handle := ⟨.init, ⟨some defaultResourceName, false, none, some ['h'], none⟩⟩

def lendingCalls : List (Setting × Text) :=
  [(.socketName, .own ['s']), (.resourceName, .own ['x']), (.multicastAddress, .lent .socketName),
    (.socketName, .lent .resourceName)]

theorem setters_faithful_iff_unicast : Run.Along handleStep Handle.Faithful unicastHandle
    lendingCalls :=
  (setters_faithful_iff unicastHandle (by decide) lendingCalls (by decide)).mpr (by decide)

def longSocketName : Name := List.replicate 108 's'

-- A name that is no resource name is not set, though the answer is OK; a socket name that is too
-- long is not set either, and takes the address along. Nor can an address be set to what the
-- getter gives.
theorem setters_unfaithful :
    (handleSet unicastHandle (.resourceName, .own ['a', ' ', 'b'])).map Prod.fst = some .ok ∧
      (handleSet unicastHandle (.resourceName, .own ['a', ' ', 'b'])).map (fun answer =>
        handleGet answer.2 .resourceName) = some (some defaultResourceName) ∧
      ¬unicastHandle.Faithful (.resourceName, .own ['a', ' ', 'b']) ∧
      (handleSet unicastHandle (.socketName, .own longSocketName)).map (fun answer =>
        (answer.1, answer.2.config.endpoints, clientConnectChoice answer.2.config)) =
          some (.bufferOverflow, 0, .error .internalError) ∧
      ¬unicastHandle.Faithful (.socketName, .own longSocketName) ∧
      handleSet unicastHandle (.unicastAddress, .lent .unicastAddress) = none ∧
      ¬unicastHandle.Faithful (.unicastAddress, .lent .unicastAddress) := by
  refine ⟨by decide, by decide, ?_, by decide, ?_, by decide, ?_⟩
  · exact fun faithful => absurd ((handleSet_faithful (by decide) (by decide)).mp faithful)
      (by decide)
  · exact fun faithful => absurd ((handleSet_faithful (by decide) (by decide)).mp faithful)
      (by decide)
  · exact fun faithful => absurd ((handleSet_faithful (by decide) (by decide)).mp faithful)
      (by decide)

end Flom
