import Flom.Locker
import Flom.MsgDeserialize

set_option autoImplicit false

namespace Flom

structure Token where
  sequence : Int
  conn : Conn

/-- struct flom_locker_s as the daemon shares it with the thread; the two flags tell whether the
descriptors are set. -/
structure LockerSlot where
  thread : Locker
  writePipe : Bool
  readPipe : Bool
  writeSequence : Int
  readSequence : Int
  pipe : List Token

/-- The first connection is the one that listens for new clients. `transfers` are the connections
flom_accept_loop_transfer_conn has been called with; nothing in the source reads it. -/
structure Daemon where
  conns : List Conn
  lockers : List LockerSlot
  tlsCheckPeerId : Bool
  running : Bool
  mail : List Mail
  transfers : List Conn

/-- What flom_conn_recv delivers: `empty` is a datagram without bytes, `stalled` a client that
stays connected and never completes its message. -/
inductive Arrival where
  | failed (rc : Rc)
  | empty
  | stalled
  | bytes (feed : Feed)

/-- Everything the outside answers while one connection is served. `accepted` and `tls` belong to
a new client, `accepted` being none when accept(2) or the set-up of the socket fails, `started` to
pipe(2) and g_thread_new, `writes` to the pipe of a locker: one result for each write, every
further one succeeding. -/
structure Accept where
  accepted : Option ConnId
  tls : Except Rc (Option Tls)
  arrival : Arrival
  peerName : Bool
  nameinfo : Bool
  sendto : Bool
  send : Rc
  closed : Bool
  started : Rc
  control : ConnId
  writes : List Bool

def Accept.idle : Accept :=
  ⟨none, .ok none, .empty, true, true, true, .ok, true, .ok, 0, []⟩

def Accept.of (arrival : Arrival) : Accept := { Accept.idle with arrival := arrival }

def Daemon.setConn (daemon : Daemon) (id : Nat) (conn : Conn) : Daemon :=
  { daemon with conns := daemon.conns.set id conn }

def daemonClose (daemon : Daemon) (id : Nat) (closed : Bool) : Rc × Daemon :=
  let closing := connsCloseFd daemon.conns id closed
  (closing.1, { daemon with conns := closing.2 })

inductive PeerCheck where
  | passed
  | refused (rc : Rc)
  | failed (rc : Rc)
deriving DecidableEq, Repr

def tlsCertCheck (tls : Tls) (peerid : Option Name) : Rc :=
  match tls.commonName, peerid with
  | some commonName, some peerid => if commonName = peerid then .ok else .uniqueIdDoesNotMatch
  | _, _ => .nullObject

def checkPeer (tls : Option Tls) (peerid : Option Name) (peerName : Bool) : PeerCheck :=
  match tls with
  | none => .failed .noTlsConnection
  | some tls =>
    if peerName then
      if tlsCertCheck tls peerid = .ok then .passed else .refused (tlsCertCheck tls peerid)
    else .failed .nullObject

def acceptLoopReply (daemon : Daemon) (id : Nat) (conn : Conn) (rc : Rc) (accept : Accept) :
    Rc × Daemon :=
  if accept.send = .ok then
    (.ok, { daemon.setConn id { conn with lastStep := 2 * msgStepIncr } with
      mail := daemon.mail ++ [⟨conn.id, 2 * msgStepIncr, rc, []⟩] })
  else (accept.send, daemon)

def acceptDiscoverReply (accept : Accept) : Rc := if accept.sendto then .ok else .sendtoError

def daemonMngmnt (msg : Msg) : Rc :=
  match msg.mngmnt8.shutdown with
  | some immediate => if immediate = 0 then .ok else .exit
  | none => .invalidOption

structure Transferred where
  rc : Rc
  daemon : Daemon
  writes : List Bool

/-- The sequence number is spent even when the token cannot be written. -/
def acceptLoopTransferConn (daemon : Daemon) (id locker : Nat) (conn : Conn) (writes : List Bool) :
    Transferred :=
  let counted := { daemon with
    lockers := daemon.lockers.modify locker fun slot =>
      { slot with writeSequence := slot.writeSequence + 1 }
    transfers := daemon.transfers ++ [conn] }
  if writes.headD true then
    let moving := connsTrnsFd counted.conns id
    if moving.1 = .ok then
      let moved := { counted with conns := moving.2 }
      if writes.tail.headD true then
        ⟨.ok, { moved with
          lockers := moved.lockers.modify locker fun slot =>
            { slot with
              pipe := slot.pipe ++ [⟨slot.writeSequence, { conn with state := .locker }⟩] } },
          writes.tail.tail⟩
      else ⟨.writeError, moved, writes.tail.tail⟩
    else ⟨moving.1, counted, writes.tail⟩
  else ⟨.writeError, counted, writes.tail⟩

/-- A hierarchical resource that failed to start has no root, and releasing it follows the
pointer. -/
def acceptLoopStartLocker (daemon : Daemon) (type : RsrcType) (name : Name) (accept : Accept) :
    Rc × Daemon :=
  match resourceInit type name with
  | .error rc => (if type = .hier ∨ rc = .crash then .crash else .resourceInitError, daemon)
  | .ok resource =>
    if accept.started = .ok then
      (.ok, { daemon with
        lockers := daemon.lockers ++
          [⟨lockerStart accept.control resource, true, true, 0, 0, []⟩] })
    else (accept.started, daemon)

def Conn.waitsFor (conn : Conn) (resource : Resource) : Bool :=
  conn.wait && conn.msg.lock8.name.any (resourceCompareName resource)

/-- A transferred connection leaves its place to another one, so the index stays where it is.
Every turn drops a connection or moves to the next one. -/
def acceptLoopIncubator (locker : Nat) (resource : Resource) :
    Nat → Nat → Daemon → List Bool → Rc × Daemon
  | 0, _, daemon, _ => (.ok, daemon)
  | fuel + 1, id, daemon, writes =>
    match daemon.conns[id]? with
    | none => (.ok, daemon)
    | some conn =>
      if conn.waitsFor resource then
        let transferred := acceptLoopTransferConn daemon id locker conn writes
        if transferred.rc = .ok then
          acceptLoopIncubator locker resource fuel id transferred.daemon transferred.writes
        else (transferred.rc, transferred.daemon)
      else acceptLoopIncubator locker resource fuel (id + 1) daemon writes

def acceptLoopNewLocker (daemon : Daemon) (id : Nat) (conn : Conn) (type : RsrcType) (name : Name)
    (accept : Accept) : Rc × Daemon :=
  let started := acceptLoopStartLocker daemon type name accept
  if started.1 = .resourceInitError then (.ok, started.2)
  else if started.1 = .ok then
    let locker := daemon.lockers.length
    let transferred := acceptLoopTransferConn started.2 id locker conn accept.writes
    match transferred.daemon.lockers[locker]? with
    | some slot =>
      if transferred.rc = .ok then
        acceptLoopIncubator locker slot.thread.resource transferred.daemon.conns.length 1
          transferred.daemon transferred.writes
      else (transferred.rc, transferred.daemon)
    | none => (.nullObject, transferred.daemon)
  else started

def LockerSlot.manages (name : Name) (slot : LockerSlot) : Bool :=
  slot.writePipe && slot.readPipe && resourceCompareName slot.thread.resource name

def acceptLoopMissing (daemon : Daemon) (id : Nat) (conn : Conn) (type : RsrcType) (name : Name)
    (accept : Accept) : Rc × Daemon :=
  if conn.msg.lock8.create = 0 then
    if conn.msg.lock8.wait = 0 then acceptLoopReply daemon id conn .lockCantWait accept
    else
      let replied := acceptLoopReply daemon id conn .lockWaitResource accept
      if replied.1 = .ok then
        (.ok, replied.2.setConn id { conn with lastStep := 2 * msgStepIncr, wait := true })
      else replied
  else acceptLoopNewLocker daemon id conn type name accept

def acceptLoopTransfer (daemon : Daemon) (id : Nat) (conn : Conn) (accept : Accept) : Rc × Daemon :=
  if conn.msg.verb = .lock ∧ conn.msg.step = msgStepIncr then
    match conn.msg.lock8.name with
    | none => (.crash, daemon)
    | some name =>
      let type := rsrcGetType name
      if type = .null then acceptLoopReply daemon id conn .invalidResourceName accept
      else
        match daemon.lockers.findIdx? (LockerSlot.manages name) with
        | some locker =>
          let transferred := acceptLoopTransferConn daemon id locker conn accept.writes
          (transferred.rc, transferred.daemon)
        | none => acceptLoopMissing daemon id conn type name accept
  else (.protocolError, daemon)

structure AcceptPolled where
  rc : Rc
  daemon : Daemon
  moved : Bool

def acceptLoopDispatch (daemon : Daemon) (id : Nat) (conn : Conn) (accept : Accept) :
    AcceptPolled :=
  if conn.msg.verb = .discover then
    ⟨if accept.nameinfo then acceptDiscoverReply accept else .getnameinfoError, daemon, false⟩
  else if conn.msg.verb = .mngmnt then ⟨daemonMngmnt conn.msg, daemon, false⟩
  else
    let transferred := acceptLoopTransfer daemon id conn accept
    ⟨transferred.1, transferred.2, transferred.1 = .ok⟩

/-- The id goes to syslog(3) first, whether it is checked or not. -/
def Daemon.identify (daemon : Daemon) (conn : Conn) (accept : Accept) : PeerCheck :=
  if conn.msg.peeridStray then .failed .crash
  else if conn.msg.verb ≠ .discover ∧ daemon.tlsCheckPeerId = true then
    checkPeer conn.tls (msgGetPeerid conn.msg) accept.peerName
  else .passed

def acceptLoopReady (daemon : Daemon) (id : Nat) (conn : Conn) (accept : Accept) : AcceptPolled :=
  if msgCheckProtocol conn.msg true then
    match daemon.identify conn accept with
    | .passed => acceptLoopDispatch daemon id conn accept
    | .failed rc => ⟨rc, daemon, false⟩
    | .refused _ =>
      let closing := daemonClose daemon id accept.closed
      ⟨if closing.1 = .ok then .connectionClosed else closing.1, closing.2, false⟩
  else ⟨.protocolError, daemon, false⟩

def Conn.fed (decode : Name → Name) (feed : Feed) (conn : Conn) : Conn :=
  let msg := (msgDeserialize decode feed conn.msg).2
  { conn with lastStep := msg.step, msg := msg }

def acceptLoopData (decode : Name → Name) (daemon : Daemon) (id : Nat) (conn : Conn) (feed : Feed)
    (accept : Accept) : AcceptPolled :=
  let parsed := msgDeserialize decode feed conn.msg
  if parsed.1 = .ok then
    let stepped := { conn with lastStep := parsed.2.step, msg := parsed.2 }
    let daemon := daemon.setConn id stepped
    match parsed.2.state with
    | .invalid =>
      let closing := daemonClose daemon id accept.closed
      ⟨closing.1, closing.2, false⟩
    | .ready => acceptLoopReady daemon id stepped accept
    | .initialized | .parsing => ⟨.ok, daemon, false⟩
  else ⟨parsed.1, daemon.setConn id { conn with msg := parsed.2 }, false⟩

/-- A client whose TLS negotiation fails is terminated and added all the same. -/
def acceptLoopNewConn (daemon : Daemon) (accept : Accept) : AcceptPolled :=
  match accept.accepted with
  | none => ⟨.acceptError, daemon, false⟩
  | some id =>
    let conn := connInit id false true
    match accept.tls with
    | .ok tls => ⟨.ok, { daemon with conns := daemon.conns ++ [{ conn with tls := tls }] }, false⟩
    | .error _ =>
      let terminated := connTerminate conn accept.closed
      if terminated.1 = .ok then ⟨.ok, { daemon with conns := daemon.conns ++ [terminated.2] },
        false⟩
      else ⟨terminated.1, daemon, false⟩

def acceptLoopPollin (decode : Name → Name) (daemon : Daemon) (id : Nat) (accept : Accept) :
    AcceptPolled :=
  match daemon.conns[id]? with
  | none => ⟨.nullObject, daemon, false⟩
  | some conn =>
    if id = 0 then acceptLoopNewConn daemon accept
    else
      match accept.arrival with
      | .failed _ | .empty => ⟨.connectionClosed, daemon, false⟩
      | .stalled => ⟨.blocked, daemon, false⟩
      | .bytes feed => acceptLoopData decode daemon id conn feed accept

structure Revents where
  hup : Bool
  err : Bool
  pollin : Bool
  accept : Accept

def Accept.ready (accept : Accept) : Revents := ⟨false, false, true, accept⟩

structure AcceptServed where
  flow : Flow
  daemon : Daemon

def daemonDisconnect (daemon : Daemon) (id : Nat) (closed : Bool) : AcceptServed :=
  let closing := daemonClose daemon id closed
  ⟨if closing.1 = .ok then .next else .leave, closing.2⟩

def acceptLoopServe (decode : Name → Name) (daemon : Daemon) (id : Nat) (revents : Revents) :
    AcceptServed :=
  let failing := revents.err || revents.hup
  if revents.hup = true ∧ id ≠ 0 then daemonDisconnect daemon id revents.accept.closed
  else if revents.pollin then
    let polled := acceptLoopPollin decode daemon id revents.accept
    if polled.rc = .connectionClosed then daemonDisconnect polled.daemon id revents.accept.closed
    else if polled.rc = .ok then
      ⟨if polled.moved then .again else if failing then .leave else .next, polled.daemon⟩
    else ⟨.leave, polled.daemon⟩
  else ⟨if failing then .leave else .next, daemon⟩

def acceptLoopScan (decode : Name → Name) (daemon : Daemon) : Nat → List Revents → Daemon
  | _, [] => daemon
  | id, revents :: rest =>
    match acceptLoopServe decode daemon id revents with
    | ⟨.next, daemon⟩ => acceptLoopScan decode daemon (id + 1) rest
    | ⟨.again, daemon⟩ => daemon
    | ⟨.leave, daemon⟩ => { daemon with running := false }

def lockerMaxIdlePeriods : Nat := 1

def acceptLoopChklockers : List LockerSlot → List Bool → Rc × List LockerSlot
  | [], _ => (.ok, [])
  | slot :: rest, closed =>
    if slot.writeSequence = slot.readSequence ∧ lockerMaxIdlePeriods < slot.thread.idlePeriods then
      if slot.writePipe then
        if closed.headD true then
          let later := acceptLoopChklockers rest closed.tail
          (later.1, { slot with writePipe := false } :: later.2)
        else (.closeError, slot :: rest)
      else if slot.readPipe then
        let later := acceptLoopChklockers rest closed
        (later.1, slot :: later.2)
      else (.ok, rest)
    else
      let later := acceptLoopChklockers rest closed
      (later.1, slot :: later.2)

def daemonChklockers (daemon : Daemon) (closed : List Bool) : Daemon :=
  let checked := acceptLoopChklockers daemon.lockers closed
  { daemon with lockers := checked.2, running := daemon.running && checked.1 = .ok }

end Flom
