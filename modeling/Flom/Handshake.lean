import Flom.Daemon
import Flom.Lib.Run
import Flom.LockerControl

set_option autoImplicit false

namespace Flom

inductive Parcel where
  | token (sequence : Int)
  | conn (conn : Conn)

def Token.parcels (token : Token) : List Parcel := [.token token.sequence, .conn token.conn]

inductive LockerPoint where
  | polls
  | expires (env : Env)
  | scans (id : Nat) (revents : List Ready)
  | woken (id : Nat) (ready : Ready) (rest : List Ready)
  | pairs (sequence : Int) (ready : Ready) (rest : List Ready)
  | imports (sequence : Int) (conn : Conn) (ready : Ready) (rest : List Ready)
  | stores (sequence : Int) (conn : Conn) (ready : Ready) (rest : List Ready)
  | processes (conn : Conn) (ready : Ready) (rest : List Ready)

inductive DaemonPoint where
  | loops
  | counted (sequence : Int) (conn : Conn)
  | tokened (conn : Conn)
  | compared
  | condemned
  | joined
  | failed (unwritten : List Parcel)

/-- One locker and the daemon. `handed` and `imported` are histories that nothing reads. -/
structure Handshake where
  thread : Locker
  point : LockerPoint
  daemon : DaemonPoint
  writePipe : Bool
  readPipe : Bool
  writeSequence : Int
  readSequence : Int
  pipe : List Parcel
  handed : List Conn
  imported : List Conn

def handshakeStart (control : ConnId) (resource : Resource) : Handshake :=
  ⟨lockerStart control resource, .polls, .loops, true, true, 0, 0, [], [], []⟩

/-- The next access of one of the two: `poll` returns in the locker, `advance` is its next access
with what read(2) answers; the others belong to the daemon. -/
inductive Move where
  | poll (event : PollEvent)
  | advance (readable : Bool)
  | transfer (conn : Conn)
  | write (written : Bool)
  | compare
  | judge
  | close (closed : Bool)

def lockerPolls (state : Handshake) (event : PollEvent) : Handshake :=
  let cleaned := state.thread.cleaned
  if state.thread.running then
    if cleaned.conns = [] then { state with thread := cleaned.leave }
    else if connsSetEvents cleaned.conns = .ok then
      match event with
      | .failed => { state with thread := cleaned.leave }
      | .timeout env => { state with thread := cleaned, point := .expires env }
      | .ready revents =>
        { state with thread := cleaned, point := .scans 0 (revents.take cleaned.conns.length) }
    else { state with thread := cleaned.leave }
  else state

def Handshake.flows (state : Handshake) (id : Nat) (rest : List Ready) (served : Served) :
    Handshake :=
  match served with
  | ⟨.next, locker⟩ => { state with thread := locker, point := .scans (id + 1) rest }
  | ⟨.again, locker⟩ => { state with thread := locker, point := .polls }
  | ⟨.leave, locker⟩ => { state with thread := locker.leave, point := .polls }

def Handshake.hups (state : Handshake) (id : Nat) (ready : Ready) (rest : List Ready) : Handshake :=
  let served := lockerHup state.thread id ready
  { state.flows id rest served with
    readPipe := state.readPipe && !(decide (id = 0) && ready.hup && decide (served.flow = .again)) }

/-- An exception while the pipe is served closes the pipe. -/
def Handshake.raises (state : Handshake) (ready : Ready) (rest : List Ready) : Handshake :=
  state.flows 0 rest (lockerDisconnect state.thread 0 ready)

def Handshake.reads (state : Handshake) (ready : Ready) (rest : List Ready) (readable : Bool)
    (taken : Parcel → Option LockerPoint) : Handshake :=
  if readable = true ∧ state.thread.conns.head?.any (·.id = state.thread.control) = true then
    match state.pipe with
    | parcel :: pipe =>
      match taken parcel with
      | some point => { state with pipe := pipe, point := point }
      | none => state.raises ready rest
    | [] => if state.writePipe then state else state.raises ready rest
  else state.raises ready rest

def Parcel.sequence : Parcel → Option Int
  | .token sequence => some sequence
  | .conn _ => none

def Parcel.pointer : Parcel → Option Conn
  | .token _ => none
  | .conn moved => some moved

/-- flom_locker_loop and flom_locker_loop_pollin from access to access. What a turn does with an
entry other than the pipe touches one shared field only, the idle counter. -/
def lockerAdvances (state : Handshake) (readable : Bool) : Handshake :=
  match state.point with
  | .polls => state
  | .expires env => { state with thread := lockerPoll state.thread (.timeout env), point := .polls }
  | .scans _ [] => { state with point := .polls }
  | .scans id (ready :: rest) =>
    if ready.err then state.flows id rest (lockerDisconnect state.thread id ready)
    else if ready.pollin then
      { state with thread := { state.thread with idlePeriods := 0 }, point := .woken id ready rest }
    else state.hups id ready rest
  | .woken id ready rest =>
    if id = 0 then
      state.reads ready rest readable fun parcel =>
        parcel.sequence.map fun sequence => .pairs sequence ready rest
    else state.flows id rest (lockerServe state.thread id ready)
  | .pairs sequence ready rest =>
    state.reads ready rest readable fun parcel =>
      parcel.pointer.map fun conn => .imports sequence conn ready rest
  | .imports sequence conn ready rest =>
    { state with
      thread := { state.thread with conns := state.thread.conns ++ [conn] }
      imported := state.imported ++ [conn]
      point := .stores sequence conn ready rest }
  | .stores sequence conn ready rest =>
    { state with readSequence := sequence, point := .processes conn ready rest }
  | .processes conn ready rest =>
    let polled := lockerProcess state.thread (state.thread.conns.length - 1) conn ready
    let processed := { state with thread := polled.locker }
    if polled.rc = .ok then processed.hups 0 ready rest else processed.raises ready rest

def daemonTransfers (state : Handshake) (conn : Conn) : Handshake :=
  match state.daemon with
  | .loops =>
    if state.writePipe then
      let moved := { conn with state := .locker }
      { state with
        writeSequence := state.writeSequence + 1
        daemon := .counted (state.writeSequence + 1) moved
        handed := state.handed ++ [moved] }
    else state
  | _ => state

def daemonWrites (state : Handshake) (written : Bool) : Handshake :=
  match state.daemon with
  | .counted sequence conn =>
    if written then { state with pipe := state.pipe ++ [.token sequence], daemon := .tokened conn }
    else { state with daemon := .failed [.token sequence, .conn conn] }
  | .tokened conn =>
    if written then { state with pipe := state.pipe ++ [.conn conn], daemon := .loops }
    else { state with daemon := .failed [.conn conn] }
  | _ => state

/-- flom_accept_loop_chklockers: the sequences are read first, the idle counter afterwards. -/
def daemonCompares (state : Handshake) : Handshake :=
  match state.daemon with
  | .loops =>
    if state.writeSequence = state.readSequence then { state with daemon := .compared } else state
  | _ => state

def daemonJudges (state : Handshake) : Handshake :=
  match state.daemon with
  | .compared =>
    { state with
      daemon :=
        if lockerMaxIdlePeriods < state.thread.idlePeriods then
          if state.writePipe then .condemned else if state.readPipe then .loops else .joined
        else .loops }
  | _ => state

def daemonCloses (state : Handshake) (closed : Bool) : Handshake :=
  match state.daemon with
  | .condemned =>
    if closed then { state with writePipe := false, daemon := .loops }
      else { state with daemon := .failed [] }
  | _ => state

def handshakeStep (state : Handshake) : Move → Handshake
  | .poll event =>
    match state.point with
    | .polls => lockerPolls state event
    | _ => state
  | .advance readable => lockerAdvances state readable
  | .transfer conn => daemonTransfers state conn
  | .write written => daemonWrites state written
  | .compare => daemonCompares state
  | .judge => daemonJudges state
  | .close closed => daemonCloses state closed

end Flom
