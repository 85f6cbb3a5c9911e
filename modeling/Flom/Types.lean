import Mathlib.Algebra.Order.Ring.Int
import Mathlib.Data.List.Basic

set_option autoImplicit false

namespace Flom

abbrev Name := List Char

/-- Connections are told apart by address in the source; a locker never sees one reused. -/
abbrev ConnId := Nat

inductive Rc where
  | ok
  | lockEnqueued
  | lockWaitResource
  | lockCantLock
  | lockBusy
  | lockCantWait
  | lockImpossible
  | connectionClosed
  | connectionClosedByServer
  | networkTimeout
  | internalError
  | nullObject
  | invalidOption
  | objCorrupted
  | outOfRange
  | bufferOverflow
  | invalidPropertyValue
  | containerFull
  | protocolError
  | invalidResourceName
  | protocolLevelMismatch
  | msgDeserializeError
  | noTlsConnection
  | uniqueIdDoesNotMatch
  | invalidTimestampFormat
  | resourceInitError
  | acceptError
  | closeError
  | getnameinfoError
  | getsockoptError
  | readError
  | recvError
  | regexecError
  | sendError
  | sendtoError
  | writeError
  | markupParseError
  | sslReadError
  | sslWriteError
  | apiImmutableHandle
  -- Three ways of returning nothing: a NULL pointer is dereferenced, exit(2) ends the process, or
  -- the call waits for bytes that never come.
  | crash
  | exit
  | blocked
  | other (code : Int)
deriving DecidableEq, Repr

def Rc.ofInt (code : Int) : Rc :=
  if code = 0 then .ok
  else if code = 1 then .lockEnqueued
  else if code = 2 then .lockWaitResource
  else if code = 3 then .lockCantLock
  else if code = 4 then .lockBusy
  else if code = 5 then .lockCantWait
  else if code = 6 then .lockImpossible
  else if code = 8 then .connectionClosed
  else if code = 9 then .networkTimeout
  else if code = -14 then .invalidResourceName
  else .other code

def Rc.code : Rc → Int
  | .ok => 0
  | .lockEnqueued => 1
  | .lockWaitResource => 2
  | .lockCantLock => 3
  | .lockBusy => 4
  | .lockCantWait => 5
  | .lockImpossible => 6
  | .connectionClosed => 8
  | .networkTimeout => 9
  | .apiImmutableHandle => 11
  | .internalError => -1
  | .nullObject => -4
  | .invalidOption => -5
  | .objCorrupted => -6
  | .outOfRange => -7
  | .bufferOverflow => -9
  | .invalidPropertyValue => -11
  | .containerFull => -12
  | .protocolError => -13
  | .invalidResourceName => -14
  | .protocolLevelMismatch => -15
  | .msgDeserializeError => -16
  | .uniqueIdDoesNotMatch => -23
  | .noTlsConnection => -24
  | .invalidTimestampFormat => -25
  | .resourceInitError => -26
  | .connectionClosedByServer => -27
  | .acceptError => -100
  | .closeError => -103
  | .getnameinfoError => -112
  | .getsockoptError => -114
  | .readError => -124
  | .recvError => -126
  | .regexecError => -129
  | .sendError => -130
  | .sendtoError => -131
  | .writeError => -143
  | .markupParseError => -206
  | .sslReadError => -409
  | .sslWriteError => -412
  | .crash | .exit | .blocked => 0
  | .other code => code

-- `out` is a value the network delivered outside the six modes of the table.
inductive LockMode where
  | nl | cr | cw | pr | pw | ex
  | out (value : Int)
deriving DecidableEq, Repr

def LockMode.ofInt (value : Int) : LockMode :=
  if value = 0 then .nl
  else if value = 1 then .cr
  else if value = 2 then .cw
  else if value = 3 then .pr
  else if value = 4 then .pw
  else if value = 5 then .ex
  else .out value

def LockMode.index : LockMode → Int
  | .nl => 0
  | .cr => 1
  | .cw => 2
  | .pr => 3
  | .pw => 4
  | .ex => 5
  | .out value => value

def lockTable (held asked : LockMode) : Bool :=
  match held, asked with
  | .out _, _ | _, .out _ => false
  | .nl, _ | _, .nl => true
  | .cr, .ex | .ex, .cr => false
  | .cr, _ | _, .cr => true
  | .cw, .cw => true
  | .pr, .pr => true
  | _, _ => false

theorem lockTable_symm (held asked : LockMode) : lockTable held asked = lockTable asked held := by
  cases held <;> cases asked <;> rfl

structure ConnLock (Info : Type) where
  conn : ConnId
  info : Info
deriving DecidableEq, Repr

structure Timeval where
  sec : Int
  usec : Int
deriving DecidableEq, Repr

end Flom
