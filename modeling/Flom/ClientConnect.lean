import Flom.Client
import Flom.Handle

set_option autoImplicit false

namespace Flom

abbrev Rc.connectionRefused : Rc := .other 7
abbrev Rc.resourceIsNotTransactional : Rc := .other 12
abbrev Rc.daemonNotStarted : Rc := .other (-2)
abbrev Rc.apiInvalidSequence : Rc := .other (-17)
abbrev Rc.invalidAiFamilyError : Rc := .other (-18)
abbrev Rc.bindError : Rc := .other (-101)
abbrev Rc.connectError : Rc := .other (-105)
abbrev Rc.fcntlError : Rc := .other (-107)
abbrev Rc.flockError : Rc := .other (-108)
abbrev Rc.getaddrinfoError : Rc := .other (-110)
abbrev Rc.recvfromError : Rc := .other (-127)
abbrev Rc.setsockoptError : Rc := .other (-133)
abbrev Rc.socketError : Rc := .other (-139)
abbrev Rc.gStrdupError : Rc := .other (-212)

inductive Family where
  | inet | inet6 | other
deriving DecidableEq, Repr

structure AddrInfo where
  family : Family
  address : Name
  port : Nat
  scope : Nat
deriving DecidableEq, Repr

inductive Peer where
  | path (name : Name)
  | inet (entry : AddrInfo)
deriving DecidableEq, Repr

/-- What a client process does with descriptors, says and hears, in the order it does it. A
descriptor that is none is FLOM_NULL_FD; `release` is the close of flom_tcp_close. -/
inductive ClientEvent where
  | socket (fd : Nat)
  | close (fd : Option Nat)
  | connect (fd : Nat) (peer : Peer)
  | sendto (fd : Nat) (entry : AddrInfo)
  | daemon
  | connected (fd : Option Nat)
  | lock (fd : Option Nat) (request : Msg)
  | answer (fd : Option Nat) (rc : Rc)
  | exec (element : Option Name)
  | unlock (fd : Option Nat) (request : Msg)
  | shutdown (fd : Option Nat)
  | release (fd : Nat) (closed : Bool)
deriving DecidableEq, Repr

structure ClientConn where
  state : ConnState
  sockfd : Option Nat
  tls : Bool
deriving DecidableEq, Repr

structure ConnectOptions where
  lifespan : Int
  unicastPort : Int32
  networkInterface : Option Name
  sin6ScopeId : Nat
  discoveryAttempts : Int32
  tlsCertificate : Option Name
  tlsPrivateKey : Option Name
  tlsCaCertificate : Option Name
deriving DecidableEq, Repr

structure Connected where
  rc : Rc
  config : Config
  options : ConnectOptions
  conn : ClientConn
  events : List ClientEvent

/-- How connect(2) went on a local socket: `absent` is ENOENT or ECONNREFUSED. -/
inductive LocalConnect where
  | connected | absent | failed
deriving DecidableEq, Repr

structure LocalNet where
  socket : Option Nat
  connect : LocalConnect
  daemon : Rc
  again : Bool

def clientConnectLocal (config : Config) (options : ConnectOptions) (conn : ClientConn)
    (startDaemon : Bool) (name : Name) (net : LocalNet) : Connected :=
  match net.socket with
  | none => ⟨.socketError, config, options, { conn with sockfd := none }, []⟩
  | some fd =>
    let opened := { conn with sockfd := some fd }
    match net.connect with
    | .connected => ⟨.ok, config, options, opened, [.socket fd, .connect fd (.path name)]⟩
    | .failed => ⟨.connectError, config, options, opened, [.socket fd]⟩
    | .absent =>
      if startDaemon = false then ⟨.daemonNotStarted, config, options, opened, [.socket fd]⟩
      else if options.lifespan = 0 then ⟨.connectError, config, options, opened, [.socket fd]⟩
      -- Another daemon may be starting.
      else if net.daemon ≠ .ok ∧ net.daemon ≠ .flockError then
        ⟨net.daemon, config, options, opened, [.socket fd, .daemon]⟩
      else if net.again then ⟨.ok, config, options, opened,
        [.socket fd, .daemon, .connect fd (.path name)]⟩
      else ⟨.daemonNotStarted, config, options, opened, [.socket fd, .daemon]⟩

structure AddrTry where
  entry : AddrInfo
  socket : Option Nat
  connects : Bool

def AddrInfo.scoped (entry : AddrInfo) (options : ConnectOptions) : AddrInfo :=
  if entry.family = .inet6 ∧ options.networkInterface.isSome then
    { entry with scope := options.sin6ScopeId }
  else entry

def tcpTryConnect (options : ConnectOptions) : List AddrTry → Option Nat × List ClientEvent
  | [] => (none, [])
  | this :: rest =>
    match this.socket with
    | none => tcpTryConnect options rest
    | some fd =>
      if this.connects then (some fd, [.socket fd, .connect fd (.inet (this.entry.scoped options))])
      else
        let later := tcpTryConnect options rest
        (later.1, .socket fd :: .close fd :: later.2)

structure TcpNet where
  resolve : Name → Int32 → Option (List AddrTry)
  nodelay : Bool

/-- The answer of getaddrinfo has an entry; the family of the first one is read in any case. -/
def tcpConnect (options : ConnectOptions) (address : Name) (conn : ClientConn) (net : TcpNet) :
    Rc × ClientConn × List ClientEvent :=
  match net.resolve address options.unicastPort with
  | none => (.getaddrinfoError, conn, [])
  | some [] => (.crash, conn, [])
  | some tries =>
    match tcpTryConnect options tries with
    | (none, events) => (.connectionRefused, conn, events)
    | (some fd, events) => (.ok, { conn with sockfd := some fd }, events)

def clientConnectTcpWith (config : Config) (options : ConnectOptions) (address : Name)
    (net : TcpNet) (restart : Option (ClientConn → Connected)) (conn : ClientConn) : Connected :=
  -- flom_tcp_init leaves zero where the descriptor stands.
  let connected := tcpConnect options address { conn with sockfd := some 0 } net
  let conn := connected.2.1
  let events := connected.2.2
  if connected.1 = .ok then
    if net.nodelay then ⟨.ok, config, options, conn, events⟩
      else ⟨.setsockoptError, config, options, conn, events⟩
  else if connected.1 = .connectionRefused then
    match restart with
    | none => ⟨.daemonNotStarted, config, options, conn, events⟩
    | some restart =>
      if options.lifespan = 0 then ⟨.connectError, config, options, conn, events⟩
      else
        let again := restart conn
        { again with events := events ++ .daemon :: again.events }
  else ⟨connected.1, config, options, conn, events⟩

structure TcpNets where
  first : TcpNet
  daemon : Rc
  second : TcpNet

def clientConnectTcpAgain (config : Config) (options : ConnectOptions) (address : Name)
    (nets : TcpNets) (conn : ClientConn) : Connected :=
  if nets.daemon ≠ .ok ∧ nets.daemon ≠ .bindError then ⟨nets.daemon, config, options, conn, []⟩
  else
    let again := clientConnectTcpWith config options address nets.second none conn
    if again.rc = .ok then again else { again with rc := .daemonNotStarted }

def clientConnectTcp (config : Config) (options : ConnectOptions) (conn : ClientConn)
    (startDaemon : Bool) (address : Name) (nets : TcpNets) : Connected :=
  clientConnectTcpWith config options address nets.first
    (if startDaemon then some (clientConnectTcpAgain config options address nets) else none) conn

structure DiscoverTry where
  entry : AddrInfo
  socket : Option Nat
  reuseaddr : Bool
  interface : Bool
  ttl : Bool
  bind : Bool

def DiscoverTry.usable (this : DiscoverTry) : Bool :=
  this.reuseaddr && this.interface && this.ttl && this.bind

inductive DiscoverSearch where
  | found (entry : AddrInfo) (fd : Nat)
  | missed
  | foreign
  | crash
deriving DecidableEq, Repr

/-- Without a socket the loop has moved on to the next entry when it sets the interface, which
fails there because there is no descriptor; behind the last entry there is nothing to look at. -/
def discoverSearch : List DiscoverTry → DiscoverSearch × List ClientEvent
  | [] => (.missed, [])
  | this :: rest =>
    if this.entry.family = .other then (.foreign, [])
    else
      match this.socket, rest with
      | none, [] => (.crash, [])
      | none, _ :: later =>
        let search := discoverSearch later
        (search.1, .close none :: search.2)
      | some fd, rest =>
        if this.usable then (.found this.entry fd, [.socket fd])
        else
          let search := discoverSearch rest
          (search.1, .socket fd :: .close (some fd) :: search.2)

inductive Attempt where
  | unsent | timeout | failed | reply
deriving DecidableEq, Repr

def discoverAttempts (fd : Nat) (entry : AddrInfo) : Nat → List Attempt → Rc × List ClientEvent
  | 0, _ => (.connectionRefused, [])
  | left + 1, attempts =>
    match attempts.head?.getD .timeout with
    | .unsent => (.sendtoError, [])
    | .failed => (.recvfromError, [.sendto fd entry])
    | .reply => (.ok, [.sendto fd entry])
    | .timeout =>
      let later := discoverAttempts fd entry left attempts.tail
      (later.1, .sendto fd entry :: later.2)

structure DirectNet where
  socket : Option Nat
  connect : Bool
  nodelay : Bool

def clientDiscoverUdpConnect (config : Config) (options : ConnectOptions) (conn : ClientConn)
    (peer : AddrInfo) (net : DirectNet) : Connected :=
  match net.socket with
  | none => ⟨.socketError, config, options, conn, []⟩
  | some fd =>
    if net.connect = false then ⟨.connectError, config, options, conn,
      [.socket fd, .close (some fd)]⟩
    else if net.nodelay = false then
      ⟨.setsockoptError, config, options, conn,
        [.socket fd, .connect fd (.inet peer), .close (some fd)]⟩
    else ⟨.ok, config, options, { conn with sockfd := some fd },
      [.socket fd, .connect fd (.inet peer)]⟩

def Failure : Type := { rc : Rc // rc ≠ .ok }

structure DiscoverNet where
  resolve : Name → Option (List DiscoverTry)
  serialize : Rc
  rcvtimeo : Bool
  attempts : List Attempt
  sender : AddrInfo
  reply : Except Failure Discover16
  interface : Except Failure Name
  tcp : TcpNets
  direct : DirectNet

def clientDiscoverReply (config : Config) (options : ConnectOptions) (conn : ClientConn)
    (startDaemon : Bool) (family : Family) (reply : Discover16) (net : DiscoverNet) : Connected :=
  match reply.address with
  | none => ⟨.crash, config, options, conn, []⟩
  | some [] =>
    let peer := { net.sender with family := family, port := reply.port }
    clientDiscoverUdpConnect config options conn peer net.direct
  | some address =>
    match configSetUnicastAddress config (some (.own address)) with
    | none => ⟨.crash, config, options, conn, []⟩
    | some config =>
      let options := { options with unicastPort := Int32.ofNat reply.port }
      if family = .inet6 then
        match net.interface with
        | .error failure => ⟨failure.val, config, options, conn, []⟩
        | .ok name =>
          let options :=
            { options with networkInterface := some name, sin6ScopeId := net.sender.scope }
          clientConnectTcp config options conn startDaemon address net.tcp
      else clientConnectTcp config options conn startDaemon address net.tcp

def clientDiscoverUdp (config : Config) (options : ConnectOptions) (conn : ClientConn)
    (startDaemon : Bool) (address : Name) (net : DiscoverNet) : Connected :=
  match net.resolve address with
  | none => ⟨.getaddrinfoError, config, options, conn, []⟩
  | some tries =>
    let search := discoverSearch tries
    let opened := search.2
    match search.1 with
    | .missed => ⟨.connectError, config, options, conn, opened⟩
    | .foreign => ⟨.invalidAiFamilyError, config, options, conn, opened⟩
    | .crash => ⟨.crash, config, options, conn, opened⟩
    | .found entry fd =>
      if net.serialize ≠ .ok then ⟨net.serialize, config, options, conn,
        opened ++ [.close (some fd)]⟩
      else if net.rcvtimeo = false then ⟨.setsockoptError, config, options, conn,
        opened ++ [.close (some fd)]⟩
      else
        let asked := discoverAttempts fd entry options.discoveryAttempts.toNatClampNeg net.attempts
        let closed := opened ++ asked.2 ++ [.close (some fd)]
        if asked.1 ≠ .ok then ⟨asked.1, config, options, conn, closed⟩
        else
          match net.reply with
          | .error failure => ⟨failure.val, config, options, conn, closed⟩
          | .ok reply =>
            let connected := clientDiscoverReply config options conn startDaemon entry.family reply
              net
            { connected with events := closed ++ connected.events }

structure ConnectNet where
  socket : LocalNet
  tcp : TcpNets
  discover : DiscoverNet
  daemon : Rc
  rediscover : DiscoverNet
  cloexec : Bool
  tlsContext : Rc
  tlsSetCert : Rc
  tlsConnect : Rc

def clientDiscover (config : Config) (options : ConnectOptions) (conn : ClientConn)
    (startDaemon : Bool) (address : Name) (net : ConnectNet) : Connected :=
  let found := clientDiscoverUdp config options conn startDaemon address net.discover
  if found.rc = .connectionRefused then
    if startDaemon = false then { found with rc := .daemonNotStarted }
    else if options.lifespan = 0 then { found with rc := .connectError }
    else if net.daemon ≠ .ok then { found with
      rc := net.daemon, events := found.events ++ [.daemon] }
    else
      let again := clientDiscoverUdp found.config found.options found.conn startDaemon address
        net.rediscover
      { again with events := found.events ++ .daemon :: again.events }
  else found

def ConnectOptions.secure (options : ConnectOptions) : Bool :=
  options.tlsCertificate.isSome && options.tlsPrivateKey.isSome && options.tlsCaCertificate.isSome

def clientConnectSecure (connected : Connected) (net : ConnectNet) : Connected :=
  let done := { connected with events := connected.events ++ [.connected connected.conn.sockfd] }
  if net.cloexec = false then { connected with rc := .fcntlError }
  else if connected.options.secure then
    let conn := { connected.conn with tls := true }
    if net.tlsContext ≠ .ok then { connected with rc := net.tlsContext, conn := conn }
    else if net.tlsSetCert ≠ .ok then { connected with rc := net.tlsSetCert, conn := conn }
    else if net.tlsConnect ≠ .ok then { connected with rc := net.tlsConnect, conn := conn }
    else { done with conn := conn }
  else done

def clientConnect (config : Config) (options : ConnectOptions) (conn : ClientConn)
    (startDaemon : Bool) (net : ConnectNet) : Connected :=
  let connected :=
    match clientConnectChoice config with
    | .ok (.local name) => clientConnectLocal config options conn startDaemon name net.socket
    | .ok (.tcp address) => clientConnectTcp config options conn startDaemon address net.tcp
    | .ok (.discovered address) => clientDiscover config options conn startDaemon address net
    | .error rc => ⟨rc, config, options, conn, []⟩
  if connected.rc = .ok then clientConnectSecure connected net else connected

end Flom
