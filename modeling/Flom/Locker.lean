import Flom.Conns
import Flom.Resource

set_option autoImplicit false

namespace Flom

/-- What flom_conn_recv delivers: the end of the file is an error, and data is at least the
closing tag, from which flom_msg_deserialize makes a message. -/
inductive Received where
  | failed (rc : Rc)
  | data (rc : Rc) (msg : Msg)

/-- One entry of the poll array together with everything the outside answers while it is served:
`handed` is the connection found in the pipe, `env` goes to the resource inside pollin and
`cleanEnv` to the clean of the loop itself. -/
structure Ready where
  err : Bool
  pollin : Bool
  hup : Bool
  handed : Option Conn
  received : Received
  serialize : Rc
  send : Rc
  closed : Bool
  env : Env
  cleanEnv : Env

def Ready.idle : Ready :=
  ⟨false, false, false, none, .failed .recvError, .ok, .ok, true, Env.fine, Env.fine⟩

inductive PollEvent where
  | failed
  | timeout (env : Env)
  | ready (revents : List Ready)

/-- The answers that went out, each with the holders the resource had when the call that built it
was over. Nothing in the source reads it. -/
structure Mail where
  conn : ConnId
  step : Int
  rc : Rc
  holding : List ConnId
deriving DecidableEq, Repr

def ResourceReply.mail (reply : ResourceReply) : List Mail :=
  reply.told.map fun conn => ⟨conn, 3 * msgStepIncr, .ok, reply.resource.holding⟩

def ResourceAnswer.post (answer : ResourceAnswer) (conn : ConnId) (send : Rc) : List Mail :=
  if send = .ok then [⟨conn, answer.msg.step, (msgAnswer answer.msg).rc, answer.resource.holding⟩]
    else []

structure Locker where
  control : ConnId
  resource : Resource
  conns : List Conn
  idlePeriods : Nat
  running : Bool
  mail : List Mail

def lockerStart (control : ConnId) (resource : Resource) : Locker :=
  ⟨control, resource, [connInit control false false], 0, true, []⟩

def Locker.leave (locker : Locker) : Locker := { locker with conns := [], running := false }

def Locker.send (locker : Locker) (mail : List Mail) : Locker :=
  { locker with mail := locker.mail ++ mail }

def Locker.setConn (locker : Locker) (id : Nat) (conn : Conn) : Locker :=
  { locker with conns := locker.conns.set id conn }

structure Polled where
  rc : Rc
  locker : Locker
  refresh : Bool

def lockerProcess (locker : Locker) (id : Nat) (conn : Conn) (ready : Ready) : Polled :=
  let failed (rc : Rc) (locker : Locker) : Polled := ⟨rc, locker, false⟩
  let freed (locker : Locker) (conn : Conn) : Polled :=
    match msgFree conn.msg with
    | (.ok, _) => ⟨.ok, locker.setConn id { conn with msg := msgInit }, false⟩
    | (rc, spent) => failed rc (locker.setConn id { conn with msg := spent })
  if conn.msg.verb = .lock ∨ conn.msg.verb = .unlock then
    let answer := resourceInmsg locker.resource conn.id conn.lastStep conn.msg ready.env
    let sent := connSend conn ready.send
    let conn := { conn with msg := answer.msg }
    let locker := ({ locker with resource := answer.resource }.setConn id conn).send answer.mail
    if answer.rc = .ok then
      if answer.msg.state = .ready then
        if ready.serialize = .ok then
          if sent = .ok ∨ sent = .sendError then
            freed (locker.send (answer.post conn.id sent))
              { conn with lastStep := answer.msg.step }
          else failed sent locker
        else failed .internalError locker
      else freed locker conn
    else failed answer.rc locker
  else failed .protocolError locker

/-- The pipe is read through the descriptor in struct flom_locker_s, whatever stands at index
zero. -/
def lockerRead (locker : Locker) (ready : Ready) : Option Conn :=
  if locker.conns.head?.any (·.id = locker.control) then ready.handed else none

def lockerClose (locker : Locker) (id : Nat) (closed : Bool) : Rc × Locker :=
  let closing := connsCloseFd locker.conns id closed
  (closing.1, { locker with conns := closing.2 })

def lockerHandover (locker : Locker) (ready : Ready) : Polled :=
  match lockerRead locker ready with
  | some handed =>
    lockerProcess { locker with conns := locker.conns ++ [handed] } locker.conns.length handed ready
  | none => ⟨.readError, locker, false⟩

/-- An invalid message closes the connection, and is processed all the same. -/
def lockerData (locker : Locker) (id : Nat) (conn : Conn) (rc : Rc) (msg : Msg) (ready : Ready) :
    Polled :=
  if rc = .ok then
    let stepped := { conn with lastStep := msg.step, msg := msg }
    if msg.state = .invalid then
      let closing := lockerClose (locker.setConn id stepped) id ready.closed
      if closing.1 = .ok then lockerProcess closing.2 id
        (connTerminate stepped ready.closed).2 ready
      else ⟨closing.1, closing.2, false⟩
    else lockerProcess (locker.setConn id stepped) id stepped ready
  else ⟨rc, locker.setConn id { conn with msg := msg }, false⟩

def lockerLoopPollin (locker : Locker) (id : Nat) (ready : Ready) : Polled :=
  match locker.conns[id]? with
  | none => ⟨.nullObject, locker, false⟩
  | some conn =>
    let woken := { locker with idlePeriods := 0 }
    if id = 0 then lockerHandover woken ready
    else
      match ready.received with
      | .failed rc => ⟨rc, woken, false⟩
      | .data rc msg => lockerData woken id conn rc msg ready

inductive Flow where
  | next | again | leave
deriving DecidableEq, Repr

structure Served where
  flow : Flow
  locker : Locker

/-- flom_conns_close_fd followed by resource.clean, as the loop does it in three places. -/
def lockerDisconnect (locker : Locker) (id : Nat) (ready : Ready) : Served :=
  match locker.conns[id]? with
  | some conn =>
    let closing := lockerClose locker id ready.closed
    if closing.1 = .ok then
      let reply := resourceClean locker.resource conn.id ready.cleanEnv
      ⟨if reply.rc = .ok then .again else .leave,
        { closing.2 with resource := reply.resource }.send reply.mail⟩
    else ⟨.leave, closing.2⟩
  | none => ⟨.leave, locker⟩

def lockerHup (locker : Locker) (id : Nat) (ready : Ready) : Served :=
  if ready.hup then
    if id = 0 then
      let closing := lockerClose locker id ready.closed
      ⟨if closing.1 = .ok then .again else .leave, closing.2⟩
    else lockerDisconnect locker id ready
  else ⟨.next, locker⟩

def lockerServe (locker : Locker) (id : Nat) (ready : Ready) : Served :=
  if ready.err then lockerDisconnect locker id ready
  else if ready.pollin then
    let polled := lockerLoopPollin locker id ready
    if polled.rc = .ok then
      if polled.refresh then ⟨.again, polled.locker⟩ else lockerHup polled.locker id ready
    else lockerDisconnect polled.locker id ready
  else lockerHup locker id ready

def lockerScan (locker : Locker) : Nat → List Ready → Locker
  | _, [] => locker
  | id, ready :: rest =>
    match lockerServe locker id ready with
    | ⟨.next, locker⟩ => lockerScan locker (id + 1) rest
    | ⟨.again, locker⟩ => locker
    | ⟨.leave, locker⟩ => locker.leave

def lockerPoll (locker : Locker) : PollEvent → Locker
  | .failed => locker.leave
  | .timeout env =>
    let reply := resourceTimeout locker.resource env
    let timed := { locker with resource := reply.resource }.send reply.mail
    if reply.rc = .ok then
      if timed.conns.length = 1 then { timed with idlePeriods := timed.idlePeriods + 1 } else timed
    else timed.leave
  | .ready revents => lockerScan locker 0 (revents.take locker.conns.length)

def Locker.cleaned (locker : Locker) : Locker := { locker with conns := connsClean locker.conns }

/-- One turn of the while loop; a thread that has left stays so. -/
def lockerStep (locker : Locker) (event : PollEvent) : Locker :=
  if locker.running then
    if locker.cleaned.conns = [] then locker.cleaned.leave
    else if connsSetEvents locker.cleaned.conns = .ok then lockerPoll locker.cleaned event
    else locker.cleaned.leave
  else locker

end Flom
