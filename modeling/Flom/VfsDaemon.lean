import Flom.DaemonMoves
import Flom.LockerCalls

set_option autoImplicit false

namespace Flom

def acceptLoopIncubatorCalls (locker : Nat) (resource : Resource) : Nat → Nat → Daemon → List Bool →
    List VfsCall
  | 0, _, _, _ => []
  | fuel + 1, id, daemon, writes =>
    match daemon.conns[id]? with
    | none => []
    | some conn =>
      if conn.waitsFor resource then
        let transferred := acceptLoopTransferConn daemon id locker conn writes
        if transferred.rc = .ok then
          .delConn conn.id true ::
            acceptLoopIncubatorCalls locker resource fuel id transferred.daemon transferred.writes
        else []
      else acceptLoopIncubatorCalls locker resource fuel (id + 1) daemon writes

/-- flom_locker_array_add tells of the new locker before a connection is handed to it. -/
def acceptLoopNewLockerCalls (daemon : Daemon) (id : Nat) (conn : Conn) (type : RsrcType)
    (name : Name) (accept : Accept) : List VfsCall :=
  let started := acceptLoopStartLocker daemon type name accept
  if started.1 = .ok then
    let locker := daemon.lockers.length
    let transferred := acceptLoopTransferConn started.2 id locker conn accept.writes
    .addLocker accept.control ::
      match transferred.daemon.lockers[locker]? with
      | some slot =>
        if transferred.rc = .ok then
          acceptLoopIncubatorCalls locker slot.thread.resource transferred.daemon.conns.length 1
            transferred.daemon transferred.writes
        else []
      | none => []
  else []

def acceptLoopMissingCalls (daemon : Daemon) (id : Nat) (conn : Conn) (type : RsrcType)
    (name : Name) (accept : Accept) : List VfsCall :=
  if conn.msg.lock8.create = 0 then
    if conn.msg.lock8.wait = 0 then []
    else if (acceptLoopReply daemon id conn .lockWaitResource accept).1 = .ok then
      [.addIncubatorConn conn.id]
    else []
  else acceptLoopNewLockerCalls daemon id conn type name accept

def acceptLoopTransferCalls (daemon : Daemon) (id : Nat) (conn : Conn) (accept : Accept) :
    List VfsCall :=
  if conn.msg.verb = .lock ∧ conn.msg.step = msgStepIncr then
    match conn.msg.lock8.name with
    | none => []
    | some name =>
      let type := rsrcGetType name
      if type = .null then []
      else
        match daemon.lockers.findIdx? (LockerSlot.manages name) with
        | some _ => []
        | none => acceptLoopMissingCalls daemon id conn type name accept
  else []

def acceptLoopReadyCalls (daemon : Daemon) (id : Nat) (conn : Conn) (accept : Accept) :
    List VfsCall :=
  if msgCheckProtocol conn.msg true then
    match daemon.identify conn accept with
    | .passed =>
      if conn.msg.verb = .discover ∨ conn.msg.verb = .mngmnt then []
      else acceptLoopTransferCalls daemon id conn accept
    | .failed _ | .refused _ => []
  else []

def acceptLoopDataCalls (decode : Name → Name) (daemon : Daemon) (id : Nat) (conn : Conn)
    (feed : Feed) (accept : Accept) : List VfsCall :=
  let parsed := msgDeserialize decode feed conn.msg
  if parsed.1 = .ok then
    let stepped := { conn with lastStep := parsed.2.step, msg := parsed.2 }
    match parsed.2.state with
    | .ready => acceptLoopReadyCalls (daemon.setConn id stepped) id stepped accept
    | .invalid | .initialized | .parsing => []
  else []

def acceptLoopPollinCalls (decode : Name → Name) (daemon : Daemon) (id : Nat) (accept : Accept) :
    List VfsCall :=
  match daemon.conns[id]? with
  | none => []
  | some conn =>
    if id = 0 then []
    else
      match accept.arrival with
      | .failed _ | .empty | .stalled => []
      | .bytes feed => acceptLoopDataCalls decode daemon id conn feed accept

/-- A client that hangs up or is disconnected is closed, and the tree is not told. -/
def acceptLoopServeCalls (decode : Name → Name) (daemon : Daemon) (id : Nat) (revents : Revents) :
    List VfsCall :=
  if revents.hup = true ∧ id ≠ 0 then []
  else if revents.pollin then acceptLoopPollinCalls decode daemon id revents.accept
  else []

def acceptLoopScanCalls (decode : Name → Name) (daemon : Daemon) : Nat → List Revents → List VfsCall
  | _, [] => []
  | id, revents :: rest =>
    acceptLoopServeCalls decode daemon id revents ++
      match acceptLoopServe decode daemon id revents with
      | ⟨.next, daemon⟩ => acceptLoopScanCalls decode daemon (id + 1) rest
      | _ => []

def acceptLoopChklockersCalls : List LockerSlot → List Bool → List VfsCall
  | [], _ => []
  | slot :: rest, closed =>
    if slot.writeSequence = slot.readSequence ∧ lockerMaxIdlePeriods < slot.thread.idlePeriods then
      if slot.writePipe then
        if closed.headD true then acceptLoopChklockersCalls rest closed.tail else []
      else if slot.readPipe then acceptLoopChklockersCalls rest closed
      else [.delLocker slot.thread.control]
    else acceptLoopChklockersCalls rest closed

def acceptLoopPollCalls (decode : Name → Name) (daemon : Daemon) (revents : List Revents)
    (closed : List Bool) :
    List VfsCall :=
  let entries := revents.take daemon.conns.length
  let scanned := acceptLoopScan decode daemon 0 entries
  acceptLoopScanCalls decode daemon 0 entries ++
    if scanned.running then acceptLoopChklockersCalls scanned.lockers closed else []

def acceptLoopTimeoutCalls (daemon : Daemon) (closed : List Bool) : List VfsCall :=
  if daemon.lockers.isEmpty then [] else acceptLoopChklockersCalls daemon.lockers closed

def LockerSlot.calls (slot : LockerSlot) (event : PollEvent) : List LockerCall :=
  lockerStepCalls { slot.thread with mail := [] } (event.piped (slot.pipe.head?.map Token.conn))

def daemonLockerCalls (daemon : Daemon) (locker : Nat) (event : PollEvent) : List VfsCall :=
  match daemon.lockers[locker]? with
  | none => []
  | some slot => lockerVfsCalls slot.thread.control slot.thread.resource (slot.calls event)

def daemonStepCalls (decode : Name → Name) (daemon : Daemon) (turn : Turn) : List VfsCall :=
  if daemon.running then
    match turn with
    | .poll revents closed =>
      if connsSetEvents daemon.cleaned.conns = .ok then
        acceptLoopPollCalls decode daemon.cleaned revents closed
      else []
    | .timeout _ closed =>
      if connsSetEvents daemon.cleaned.conns = .ok then
        acceptLoopTimeoutCalls daemon.cleaned closed
      else []
    | .locker locker event => daemonLockerCalls daemon locker event
  else []

structure Mounted where
  daemon : Daemon
  tree : VfsTree

def mountedStep (decode : Name → Name) (mounted : Mounted) (turn : Turn) : Mounted where
  daemon := daemonStep decode mounted.daemon turn
  tree := mounted.tree.run (daemonStepCalls decode mounted.daemon turn)

def mountedStart (multicast tlsCheckPeerId : Bool) : Mounted :=
  ⟨daemonStart multicast tlsCheckPeerId, vfsInit⟩

def Daemon.incubated (daemon : Daemon) : List ConnId :=
  (daemon.conns.filter fun conn => conn.wait && decide (conn.state ≠ .remove)).map Conn.id

def Locker.Listed (locker : Locker) (dir : VfsLocker) : Prop :=
  dir.uid = locker.control ∧ dir.Lists locker.resource.holding locker.resource.waiting

structure Mounted.Mirrors (mounted : Mounted) : Prop where
  incubator : mounted.tree.incubator.Perm mounted.daemon.incubated
  once : mounted.tree.incubator.Nodup
  lockers : List.Forall₂ Locker.Listed (mounted.daemon.lockers.map LockerSlot.thread)
    mounted.tree.lockers

def Daemon.takes (daemon : Daemon) (msg : Msg) (name : Name) : Prop :=
  rsrcGetType name ≠ .null ∧
    (¬daemon.unmanaged name ∨
      if msg.lock8.create = 0 then msg.lock8.wait ≠ 0
      else (resourceInit (rsrcGetType name) name).isOk = true)

def Daemon.leavesAlone (decode : Name → Name) (daemon : Daemon) (conn : Conn) (accept : Accept) :
    Prop :=
  match accept.arrival with
  | .failed _ | .empty => False
  | .stalled => True
  | .bytes feed =>
    let heard := conn.fed decode feed
    feed.wellFormed = true → heard.msg.state ≠ .invalid ∧
      (heard.msg.state = .ready → msgCheckProtocol heard.msg true = true →
        (∀ rc, daemon.identify heard accept ≠ .refused rc) ∧
        ∀ name, heard.requests name → ¬daemon.takes heard.msg name ∧
          accept.send ≠ .connectionClosed)

def Undisturbed (decode : Name → Name) (daemon : Daemon) (id : Nat) (revents : Revents) : Prop :=
  ∀ conn ∈ daemon.conns[id]?, conn.wait = true →
    revents.hup = false ∧ (revents.pollin = true → daemon.leavesAlone decode conn revents.accept)

end Flom
