import Flom.ClientConnect
import Flom.MsgSizes

set_option autoImplicit false

namespace Flom

abbrev Rc.realpathError : Rc := .other (-125)

structure Session where
  handle : Handle
  settings : ClientConfig
  options : ConnectOptions
  conn : ClientConn
  lockedElement : Option Name
  stopped : Bool

/-- The memory of the connection is zeroed, which is a descriptor and not the null descriptor. -/
def connZeroed : ClientConn := ⟨.daemon, some 0, false⟩

def handleInit (config : Config) (settings : ClientConfig) (options : ConnectOptions) :
    Session where
  handle := ⟨.init, config⟩
  settings := settings
  options := { options with lifespan := 0 }
  conn := connZeroed
  lockedElement := none
  stopped := false

structure Called where
  rc : Rc
  session : Session
  events : List ClientEvent

def Session.request (session : Session) (name : Name) : ClientConfig :=
  { session.settings with resourceName := name }

def clientLockSent (config : ClientConfig) (net : ClientNet) : Bool :=
  config.peerid.isSome && net.serialize = .ok && net.send = .ok

def handleAsk (session : Session) (net : ClientNet) : Called :=
  match session.handle.config.resourceName with
  | none =>
    let rc := if session.settings.peerid = none then .nullObject else .gStrdupError
    ⟨rc, session, [.answer session.conn.sockfd rc]⟩
  | some name =>
    let config := session.request name
    let sent : List ClientEvent :=
      if clientLockSent config net then [.lock session.conn.sockfd (clientRequest config)] else []
    match clientLock config net with
    | none => ⟨.blocked, { session with stopped := true }, sent⟩
    | some locked =>
      let told := sent ++ [.answer session.conn.sockfd locked.rc]
      if locked.rc = .ok then
        let handle := { session.handle with state := .locked }
        ⟨.ok, { session with handle := handle, lockedElement := locked.element }, told⟩
      else ⟨locked.rc, session, told⟩

def Session.connected (session : Session) (connected : Connected) (state : HandleState) : Session :=
  { session with
    handle := ⟨state, connected.config⟩
    options := connected.options
    conn := connected.conn
    stopped := connected.rc = .crash }

def handleSeek (session : Session) (net : ConnectNet) (talk : ClientNet) : Called :=
  let connected := clientConnect session.handle.config session.options session.conn true net
  if connected.rc = .ok then
    let asked := handleAsk (session.connected connected .connected) talk
    { asked with events := connected.events ++ asked.events }
  else ⟨connected.rc, session.connected connected session.handle.state, connected.events⟩

def handleLock (session : Session) (net : ConnectNet) (talk : ClientNet) : Called :=
  match session.handle.state with
  | .locked | .cleaned => ⟨.apiInvalidSequence, session, []⟩
  | .connected => handleAsk session talk
  | .init | .disconnected => handleSeek session net talk

structure UnlockNet where
  serialize : Rc
  send : Rc
  heard : Bool
  closed : Bool

/-- flom_conn_terminate; a connection that has been terminated before is left as it is. -/
def clientTerminate (conn : ClientConn) (closed : Bool) : Rc × ClientConn × List ClientEvent :=
  if conn.state = .remove then (.ok, conn, [])
  else
    match conn.sockfd with
    | none => (.ok, { conn with state := .remove }, [])
    | some fd =>
      if closed then (.ok, { conn with state := .remove, sockfd := none }, [.release fd true])
      else (.closeError, { conn with state := .remove }, [.release fd false])

def handleDisconnect (session : Session) (net : UnlockNet) : Called :=
  let shut := ClientEvent.shutdown session.conn.sockfd
  if net.heard = false then ⟨.blocked, { session with stopped := true }, [shut]⟩
  else
    let ended := clientTerminate session.conn net.closed
    if ended.1 = .ok then
      let handle := { session.handle with state := .disconnected }
      ⟨.ok, { session with handle := handle, conn := ended.2.1, lockedElement := none },
        shut :: ended.2.2⟩
    else ⟨ended.1, { session with conn := ended.2.1 }, shut :: ended.2.2⟩

def Session.release (session : Session) (name : Name) (rollback : Bool) : Msg :=
  clientUnlockRequest (session.request name) (if rollback then 1 else 0)

def handleGiveBack (session : Session) (rollback : Bool) (net : UnlockNet) : Called :=
  match session.handle.state with
  | .init | .disconnected | .cleaned => ⟨.apiInvalidSequence, session, []⟩
  | .connected => handleDisconnect session net
  | .locked =>
    match session.handle.config.resourceName with
    | none => ⟨.gStrdupError, session, []⟩
    | some name =>
      if net.serialize ≠ .ok then ⟨net.serialize, session, []⟩
      else if net.send ≠ .ok then ⟨net.send, session, []⟩
      else
        let said := ClientEvent.unlock session.conn.sockfd (session.release name rollback)
        let ended := handleDisconnect
          { session with handle := { session.handle with state := .connected } } net
        { ended with events := said :: ended.events }

/-- flom_handle_unlock_internal: only a transactional resource is rolled back, and another one is
given back all the same. -/
def handleUnlockInternal (session : Session) (rollback : Bool) (net : UnlockNet) : Called :=
  let undoes := rollback && session.handle.config.resourceName.any rsrcGetTransactional
  let called := handleGiveBack session undoes net
  if called.rc = .ok ∧ rollback ≠ undoes then { called with rc := .resourceIsNotTransactional }
    else called

def handleUnlock (session : Session) (net : UnlockNet) : Called :=
  handleUnlockInternal session false net

def handleUnlockRollback (session : Session) (net : UnlockNet) : Called :=
  handleUnlockInternal session true net

/-- A lock is given back first; a connection without a lock is an error, and stays. -/
def handleClean (session : Session) (net : UnlockNet) : Called :=
  let unlocked :=
    if session.handle.state = .locked then handleUnlock session net else ⟨.ok, session, []⟩
  if unlocked.rc ≠ .ok then unlocked
  else if unlocked.session.handle.state.idle then
    let handle := { unlocked.session.handle with state := .cleaned }
    ⟨.ok, { unlocked.session with handle := handle, lockedElement := none }, unlocked.events⟩
  else { unlocked with rc := .apiInvalidSequence }

def handleDelete (session : Session) (net : UnlockNet) : Called :=
  let cleaned := handleClean session net
  { cleaned with rc := .ok, session := { cleaned.session with stopped := true } }

def HandleState.open : HandleState → Bool
  | .init | .disconnected | .connected => true
  | .locked | .cleaned => false

def handleTune (allowed : HandleState → Bool) (change : Session → Rc × Session)
    (session : Session) : Rc × Session :=
  if allowed session.handle.state then change session else (.apiImmutableHandle, session)

/-- Negative values are turned round; the least of them stays negative. -/
def configTurned (value : Int32) : Int32 := if value < 0 then -value else value

def configMagnitude (old value : Int32) : Int32 :=
  if configTurned value = 0 then old else configTurned value

def Session.settle (change : ClientConfig → ClientConfig) (session : Session) : Rc × Session :=
  (.ok, { session with settings := change session.settings })

def Session.opt (change : ConnectOptions → ConnectOptions) (session : Session) : Rc × Session :=
  (.ok, { session with options := change session.options })

def handleSetLockMode (session : Session) (value : LockMode) : Rc × Session :=
  handleTune HandleState.open (Session.settle fun settings => { settings with lockMode := value })
    session

def handleSetResourceQuantity (session : Session) (value : Int32) : Rc × Session :=
  handleTune HandleState.open (Session.settle fun settings =>
    { settings with resourceQuantity := configMagnitude settings.resourceQuantity value }) session

def handleSetResourceTimeout (session : Session) (value : Int) : Rc × Session :=
  handleTune HandleState.open (Session.settle fun settings =>
    { settings with resourceTimeout := value }) session

def handleSetResourceIdleLifespan (session : Session) (value : Int32) : Rc × Session :=
  handleTune HandleState.open (Session.settle fun settings =>
    { settings with resourceIdleLifespan := configMagnitude settings.resourceIdleLifespan value })
      session

def handleSetResourceCreate (session : Session) (value : Int) : Rc × Session :=
  handleTune HandleState.idle (Session.settle fun settings =>
    { settings with resourceCreate := value }) session

def handleSetTlsCheckPeerId (session : Session) (value : Bool) : Rc × Session :=
  handleTune HandleState.idle (Session.settle fun settings =>
    { settings with tlsCheckPeerId := value }) session

def handleSetDiscoveryAttempts (session : Session) (value : Int32) : Rc × Session :=
  handleTune HandleState.idle (Session.opt fun options =>
    { options with discoveryAttempts := configMagnitude 1 value }) session

def handleSetUnicastPort (session : Session) (value : Int32) : Rc × Session :=
  handleTune HandleState.idle (Session.opt fun options =>
    { options with unicastPort := configTurned value }) session

def handleSetTlsFile (set : Name → ConnectOptions → ConnectOptions) (session : Session)
    (resolved : Option Name) :
    Rc × Session :=
  handleTune HandleState.idle (fun session =>
    match resolved with
    | none => (.realpathError, session)
    | some path => session.opt (set path)) session

def handleSetTlsCertificate : Session → Option Name → Rc × Session :=
  handleSetTlsFile fun path options => { options with tlsCertificate := some path }

def handleSetTlsPrivateKey : Session → Option Name → Rc × Session :=
  handleSetTlsFile fun path options => { options with tlsPrivateKey := some path }

def handleSetTlsCaCertificate : Session → Option Name → Rc × Session :=
  handleSetTlsFile fun path options => { options with tlsCaCertificate := some path }

def handleSetNetworkInterface (session : Session) (value : Name) (scope : Except Failure Nat) :
    Rc × Session :=
  handleTune HandleState.idle (fun session =>
    match scope with
    | .error failure => (failure.val, session)
    | .ok scope =>
      session.opt fun options =>
      { options with networkInterface := some value, sin6ScopeId := scope }) session

inductive Tuning where
  | lockMode (value : LockMode)
  | resourceQuantity (value : Int32)
  | resourceTimeout (value : Int)
  | resourceIdleLifespan (value : Int32)
  | resourceCreate (value : Int)
  | tlsCheckPeerId (value : Bool)
  | discoveryAttempts (value : Int32)
  | unicastPort (value : Int32)
  | tlsCertificate (resolved : Option Name)
  | tlsPrivateKey (resolved : Option Name)
  | tlsCaCertificate (resolved : Option Name)
  | networkInterface (value : Name) (scope : Except Failure Nat)

def sessionTune (session : Session) : Tuning → Rc × Session
  | .lockMode value => handleSetLockMode session value
  | .resourceQuantity value => handleSetResourceQuantity session value
  | .resourceTimeout value => handleSetResourceTimeout session value
  | .resourceIdleLifespan value => handleSetResourceIdleLifespan session value
  | .resourceCreate value => handleSetResourceCreate session value
  | .tlsCheckPeerId value => handleSetTlsCheckPeerId session value
  | .discoveryAttempts value => handleSetDiscoveryAttempts session value
  | .unicastPort value => handleSetUnicastPort session value
  | .tlsCertificate resolved => handleSetTlsCertificate session resolved
  | .tlsPrivateKey resolved => handleSetTlsPrivateKey session resolved
  | .tlsCaCertificate resolved => handleSetTlsCaCertificate session resolved
  | .networkInterface value scope => handleSetNetworkInterface session value scope

inductive ApiCall where
  | lock (net : ConnectNet) (talk : ClientNet)
  | unlock (net : UnlockNet)
  | unlockRollback (net : UnlockNet)
  | clean (net : UnlockNet)
  | delete (net : UnlockNet)
  | set (setting : Setting) (value : Text)
  | tune (tuning : Tuning)

def apiCall (session : Session) : ApiCall → Called
  | .lock net talk => handleLock session net talk
  | .unlock net => handleUnlock session net
  | .unlockRollback net => handleUnlockRollback session net
  | .clean net => handleClean session net
  | .delete net => handleDelete session net
  | .set setting value =>
    match handleSet session.handle (setting, value) with
    -- What comes of a read of freed memory is not followed.
    | none => ⟨.crash, { session with stopped := true }, []⟩
    | some set => ⟨set.1, { session with handle := set.2 }, []⟩
  | .tune tuning =>
    let tuned := sessionTune session tuning
    ⟨tuned.1, tuned.2, []⟩

/-- A process that waits for ever, has crashed or has deleted the handle calls nothing more. -/
def sessionStep (session : Session) (call : ApiCall) : Session × List ClientEvent :=
  if session.stopped then (session, [])
  else
    let called := apiCall session call
    (called.session, called.events)

section

variable {session : Session} (good : Called → Prop)

-- The rules of the calls: what holds of every way through a call holds of the call. No rule looks
-- at the code that is returned where the call itself does not.
theorem handleLock_rule {net : ConnectNet} {talk : ClientNet} (still : ∀ rc, good ⟨rc, session, []⟩)
    (asks : session.handle.state = .connected → good (handleAsk session talk))
    (seeks : session.handle.state.idle = true → good (handleSeek session net talk)) :
    good (handleLock session net talk) := by
  unfold handleLock
  cases state : session.handle.state with
  | locked | cleaned => exact still _
  | connected => exact asks state
  | init | disconnected => exact seeks (by rw [state]; rfl)

theorem handleGiveBack_rule {rollback : Bool} {net : UnlockNet}
    (still : ∀ rc, good ⟨rc, session, []⟩)
    (disconnects : session.handle.state = .connected → good (handleDisconnect session net))
    (speaks : ∀ name, session.handle.state = .locked →
      session.handle.config.resourceName = some name →
      let ended := handleDisconnect
        { session with handle := { session.handle with state := .connected } } net
      good { ended with events := .unlock session.conn.sockfd (session.release name
        rollback) :: ended.events }) :
    good (handleGiveBack session rollback net) := by
  unfold handleGiveBack
  cases state : session.handle.state with
  | init | disconnected | cleaned => exact still _
  | connected => exact disconnects state
  | locked =>
    cases named : session.handle.config.resourceName with
    | none => exact still _
    | some name =>
      dsimp only
      split_ifs
      · exact still _
      · exact still _
      · exact speaks name state named

theorem handleUnlockInternal_rule {rollback : Bool} {net : UnlockNet}
    (blind : ∀ called rc, good called → good { called with rc := rc })
    (gives : good (handleGiveBack session
      (rollback && session.handle.config.resourceName.any rsrcGetTransactional) net)) :
    good (handleUnlockInternal session rollback net) := by
  unfold handleUnlockInternal
  dsimp only
  split_ifs
  · exact blind _ _ gives
  · exact gives

theorem handleClean_rule {net : UnlockNet}
    (blind : ∀ called rc, good called → good { called with rc := rc })
    (still : good ⟨.ok, session, []⟩) (unlocks : good (handleUnlock session net))
    (cleans : ∀ called : Called, good called → called.session.handle.state.idle = true →
      good ⟨.ok, { called.session with
        handle := { called.session.handle with state := .cleaned }, lockedElement :=
  none }, called.events⟩) :
    good (handleClean session net) := by
  have first : good
      (if session.handle.state = .locked then handleUnlock session net
      else ⟨.ok, session, []⟩) := by
    split_ifs
    · exact unlocks
    · exact still
  unfold handleClean
  dsimp only
  generalize (if session.handle.state = .locked then handleUnlock session net
    else ⟨.ok, session, []⟩) = called at first ⊢
  split_ifs with failed idle
  · exact first
  · exact cleans called first idle
  · exact blind called _ first

end

end Flom
