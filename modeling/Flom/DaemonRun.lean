import Flom.Daemon
import Flom.Lib.Run

set_option autoImplicit false

namespace Flom

def PollEvent.piped (handed : Option Conn) : PollEvent → PollEvent
  | .ready (first :: rest) => .ready ({ first with handed := handed } :: rest)
  | event => event

def Locker.reads (locker : Locker) : PollEvent → Bool
  | .ready (first :: _) =>
    locker.running && connsSetEvents locker.cleaned.conns = .ok && !first.err && first.pollin &&
      locker.cleaned.conns.head?.any (·.id = locker.control)
  | _ => false

/-- The one place where the thread gives its end of the pipe up. -/
def Locker.hangsUp (locker : Locker) : PollEvent → Bool
  | .ready (first :: _) =>
    locker.running && !locker.cleaned.conns.isEmpty && connsSetEvents locker.cleaned.conns = .ok &&
      !first.err && first.hup && first.closed &&
      (!first.pollin || (lockerLoopPollin locker.cleaned 0 first).rc = .ok)
  | _ => false

def LockerSlot.turn (slot : LockerSlot) (event : PollEvent) : LockerSlot :=
  let event := event.piped (slot.pipe.head?.map Token.conn)
  let read := slot.thread.reads event
  { slot with
    thread := lockerStep { slot.thread with mail := [] } event
    readPipe := slot.readPipe && !slot.thread.hangsUp event
    readSequence :=
      if read then (slot.pipe.head?.map Token.sequence).getD slot.readSequence
        else slot.readSequence
    pipe := if read then slot.pipe.tail else slot.pipe }

/-- What happens next in the process: poll returns in the daemon, with descriptors ready or not,
or in the thread of one locker. `waited` tells whether the daemon polled with a timeout at all and
`closed` what close(2) answers when lockers are checked. -/
inductive Turn where
  | poll (revents : List Revents) (closed : List Bool)
  | timeout (waited : Bool) (closed : List Bool)
  | locker (locker : Nat) (event : PollEvent)

def Daemon.cleaned (daemon : Daemon) : Daemon := { daemon with conns := connsClean daemon.conns }

def Daemon.onlyListens (daemon : Daemon) : Bool :=
  match daemon.conns with
  | [_] => true
  | [_, second] => second.datagram
  | _ => false

def acceptLoopPoll (decode : Name → Name) (daemon : Daemon) (revents : List Revents)
    (closed : List Bool) : Daemon :=
  let scanned := acceptLoopScan decode daemon 0 (revents.take daemon.conns.length)
  if scanned.running then daemonChklockers scanned closed else scanned

def acceptLoopTimeout (daemon : Daemon) (waited : Bool) (closed : List Bool) : Daemon :=
  if daemon.lockers.isEmpty then
    if waited && daemon.onlyListens then { daemon with running := false } else daemon
  else daemonChklockers daemon closed

def daemonLocker (daemon : Daemon) (locker : Nat) (event : PollEvent) : Daemon :=
  match daemon.lockers[locker]? with
  | none => daemon
  | some slot =>
    let turned := slot.turn event
    { daemon with
      lockers := daemon.lockers.set locker turned
      mail := daemon.mail ++ turned.thread.mail }

def Daemon.polls (daemon : Daemon) (polled : Daemon → Daemon) : Daemon :=
  if connsSetEvents daemon.cleaned.conns = .ok then polled daemon.cleaned
  else { daemon.cleaned with running := false }

def daemonStep (decode : Name → Name) (daemon : Daemon) (turn : Turn) : Daemon :=
  if daemon.running then
    match turn with
    | .poll revents closed => daemon.polls fun polled => acceptLoopPoll decode polled revents closed
    | .timeout waited closed => daemon.polls fun polled => acceptLoopTimeout polled waited closed
    | .locker locker event => daemonLocker daemon locker event
  else daemon

def daemonStart (multicast tlsCheckPeerId : Bool) : Daemon where
  conns := connInit 0 false true :: if multicast then [connInit 1 true true] else []
  lockers := []
  tlsCheckPeerId := tlsCheckPeerId
  running := true
  mail := []
  transfers := []

-- "x[5]" in base64.
def encodedFive : Name := ['e', 'F', 's', '1', 'X', 'Q', '=', '=']

def decodeFive (text : Name) : Name := if text = encodedFive then ['x', '[', '5', ']'] else []

def requestFeed (quantity create : Name) : Feed where
  events :=
    [.start msgTagMsg [(msgPropLevel, ['3']), (msgPropVerb, ['1']), (msgPropStep, ['8'])],
      .start msgTagSession [(msgPropPeerid, ['p'])],
      .stop msgTagSession,
      .start msgTagResource
        [(msgPropName, encodedFive), (msgPropMode, ['5']), (msgPropWait, ['1']),
          (msgPropQuantity, quantity),
          (msgPropCreate, create), (msgPropLifespan, ['0'])],
      .stop msgTagResource, .stop msgTagMsg]
  wellFormed := true

def Revents.quiet : Revents := ⟨false, false, false, Accept.idle⟩

def joinTurn (id : ConnId) : Turn := .poll [{ Accept.idle with accepted := some id }.ready] []

def requestTurn (quiet : List Revents) (quantity create : Name) : Turn :=
  .poll (quiet ++ [{ Accept.of (.bytes (requestFeed quantity create)) with control := 9 }.ready]) []

def readTurn : Turn := .locker 0 (.ready [{ Ready.idle with pollin := true }])

end Flom
