import Flom.Lib.Run
import Flom.Rsrc
import Flom.RsrcName
import Mathlib.Data.List.Infix

set_option autoImplicit false

namespace Flom

open Scan

-- `clock` is not a field of the source: it holds the readings the call in progress will still get.
structure TimestampData where
  format : Name
  totalQuantity : Int32
  lockedQuantity : Int32
  lastTimestamp : Timeval
  interval : Timeval
  holders : List (ConnLock Unit)
  clock : List Timeval
deriving DecidableEq, Repr

abbrev TimestampRsrc := Rsrc TimestampData (ConnLock Unit)

def timestampNow (data : TimestampData) : Timeval := data.clock.headD ⟨0, 0⟩

def timestampTick (data : TimestampData) : TimestampData := { data with clock := data.clock.tail }

def timestampSlots (data : TimestampData) : Bool :=
  0 < data.totalQuantity - data.lockedQuantity

def resourceTimestampCanLock (data : TimestampData) : Bool :=
  let now := timestampNow data
  if timestampSlots data then
    if 0 < data.interval.usec then
      data.lastTimestamp.sec < now.sec ||
        data.lastTimestamp.usec.tdiv data.interval.usec < now.usec.tdiv data.interval.usec
    else if 0 < data.interval.sec then
      data.lastTimestamp.sec.tdiv data.interval.sec < now.sec.tdiv data.interval.sec
    else false
  else false

def resourceTimestampNextDeadline (data : TimestampData) : Timeval :=
  let sec :=
    if 0 < data.interval.sec then
      (data.lastTimestamp.sec.tdiv data.interval.sec + 1) * data.interval.sec
    else data.lastTimestamp.sec
  let usec :=
    if 0 < data.interval.usec then
      (data.lastTimestamp.usec.tdiv data.interval.usec + 1) * data.interval.usec
    else 0
  if 999999 < usec then ⟨sec + 1, usec - 1000000⟩ else ⟨sec, usec⟩

def microFormat (digits : Nat) : Name := '#' :: List.replicate digits 'f'

def microSeconds (usec : Int) : Name :=
  let digits := Nat.toDigits 10 usec.toNat
  List.replicate (6 - digits.length) '0' ++ digits

def substituteFraction (digits : Nat) (seconds : Name) : Nat → Name → Name
  | 0, text => text
  | _ + 1, [] => []
  | fuel + 1, first :: rest =>
    if (microFormat digits).isPrefixOf (first :: rest) then
      '.' :: (seconds.take digits ++ substituteFraction digits seconds fuel (rest.drop digits))
    else first :: substituteFraction digits seconds fuel rest

def timestampFormat (format : Name) (usec : Int) : Name :=
  [6, 5, 4, 3, 2, 1].foldl
    (fun text digits => substituteFraction digits (microSeconds usec) text.length text) format

def timestampGet (data : TimestampData) : TimestampData :=
  { timestampTick data with lastTimestamp := timestampNow data }

def timestampElement (strftime : Name → Int → Name) (data : TimestampData) : Name :=
  let now := timestampNow (timestampTick data)
  strftime (timestampFormat data.format now.usec) now.sec

def secondFormats : List Name :=
  [['%', 'c'], ['%', 'r'], ['%', 's'], ['%', 'S'], ['%', 'T'], ['%', 'X']]
def minuteFormats : List Name := [['%', 'M'], ['%', 'R']]
def hourFormats : List Name := [['%', 'H'], ['%', 'I']]

def timestampInterval (format : Name) : Timeval :=
  match [6, 5, 4, 3, 2, 1].find? fun digits => decide (microFormat digits <:+: format) with
  | some digits => ⟨0, 10 ^ (6 - digits)⟩
  | none =>
    if secondFormats.any fun specifier => decide (specifier <:+: format) then ⟨1, 0⟩
    else if minuteFormats.any fun specifier => decide (specifier <:+: format) then ⟨60, 0⟩
    else if hourFormats.any fun specifier => decide (specifier <:+: format) then ⟨3600, 0⟩
    else ⟨0, 0⟩

def resourceTimestampInit (name : Name) : Except Rc TimestampRsrc := do
  let format ← rsrcGetInfix name .timestamp
  let totalQuantity ← rsrcGetNumber name .timestamp
  let interval := timestampInterval format
  if interval = ⟨0, 0⟩ then
    throw .invalidTimestampFormat
  return ⟨name, ⟨format, totalQuantity, 0, ⟨0, 0⟩, interval, [], []⟩, []⟩

theorem resourceTimestampInit_error {name : Name} {rc : Rc}
    (failed : resourceTimestampInit name = .error rc) :
    rc = .regexecError ∨ rc = .invalidTimestampFormat := by
  unfold resourceTimestampInit at failed
  cases format : rsrcGetInfix name .timestamp with
  | error other =>
    rw [format] at failed
    obtain rfl : other = rc := Except.error.inj failed
    exact .inl (rsrcGetInfix_error format)
  | ok text =>
    cases total : rsrcGetNumber name .timestamp with
    | error other =>
      rw [format, total] at failed
      obtain rfl : other = rc := Except.error.inj failed
      exact .inl (rsrcGetNumber_error total)
    | ok value =>
      rw [format, total] at failed
      by_cases undefined : timestampInterval text = ⟨0, 0⟩
      · simp only [bind, Except.bind, undefined, if_true, throw, throwThe, MonadExceptOf.throw]
          at failed
        exact .inr (Except.error.inj failed).symm
      · simp only [bind, Except.bind, undefined, if_false] at failed
        cases failed

def timestampManager : Manager TimestampData (ConnLock Unit) ConnId where
  can data _ := resourceTimestampCanLock data
  -- The clock is looked at only when there is a slot left.
  skip data _ := if timestampSlots data then timestampTick data else data
  take data waiter :=
    { timestampGet (timestampTick data) with
      holders := ⟨waiter.conn, ()⟩ :: data.holders
      lockedQuantity := data.lockedQuantity + 1 }
  fail data _ := timestampGet (timestampTick data)
  conn := ConnLock.conn
  release data conn :=
    (rsrcConnFind data.holders conn).map fun _ =>
      { data with
        holders := rsrcConnRemove data.holders conn
        lockedQuantity := data.lockedQuantity - 1 }

def timestampSetClock (rsrc : TimestampRsrc) (clock : List Timeval) : TimestampRsrc :=
  { rsrc with data := { rsrc.data with clock } }

def resourceTimestampWaitings (rsrc : TimestampRsrc) (sends : List Rc) :
    Cleaned TimestampData (ConnLock Unit) :=
  rsrcWaitings timestampManager rsrc sends

def resourceTimestampClean (rsrc : TimestampRsrc) (conn : ConnId) (env : Env) :
    Cleaned TimestampData (ConnLock Unit) :=
  rsrcClean timestampManager (timestampSetClock rsrc env.clock) conn env.sends

def resourceTimestampTimeout (rsrc : TimestampRsrc) (env : Env) :
    Cleaned TimestampData (ConnLock Unit) :=
  let started := timestampSetClock rsrc env.clock
  let looked := { started with data := timestampManager.skip started.data ⟨0, ()⟩ }
  if rsrc.waitings = [] then ⟨.ok, rsrc, [], none⟩
  else if resourceTimestampCanLock started.data then resourceTimestampWaitings looked env.sends
  else ⟨.ok, looked, [], none⟩

def resourceTimestampInmsg (rsrc : TimestampRsrc) (conn : ConnId) (lastStep : Int) (msg : Msg)
    (env : Env) : Inmsg TimestampData (ConnLock Unit) :=
  match msg.verb with
  | .lock =>
    rsrcLock timestampManager
      ⟨⟨conn, ()⟩, msg.lock8.wait ≠ 0, .lockBusy,
        fun data => some (timestampElement env.strftime data)⟩
      (timestampSetClock rsrc env.clock) lastStep msg
  | .unlock => rsrcUnlock (resourceTimestampClean rsrc conn env) rsrc msg
  | _ => inmsgError .protocolError rsrc msg

def timestampHeld (data : TimestampData) : List (ConnId × Unit) := heldPairs data.holders

theorem timestampManager_release {data freed : TimestampData} {conn : ConnId}
    (released : timestampManager.release data conn = some freed) :
    ∃ found : ConnLock Unit, found.conn = conn ∧ data.holders.Perm (found :: freed.holders) := by
  obtain ⟨found, present, rfl⟩ := Option.map_eq_some_iff.mp released
  obtain ⟨same, perm⟩ := rsrcConnFind_perm present
  exact ⟨found, same, perm⟩

def timestampLedger : Ledger timestampManager Unit where
  held := timestampHeld
  item _ _ := ()
  take_held _ _ _ := List.Perm.refl _
  skip_held data _ := by
    simp only [timestampManager]
    split <;> rfl
  fail_held _ _ _ := .inl (List.Perm.refl _)
  release_held data conn freed released := by
    obtain ⟨found, same, perm⟩ := timestampManager_release released
    exact ⟨(), same ▸ perm.map _⟩

theorem resourceTimestampInit_eq {name : Name} {rsrc : TimestampRsrc}
    (started : resourceTimestampInit name = .ok rsrc) :
    ∃ format total, rsrcGetInfix name .timestamp = .ok format ∧
    rsrcGetNumber name .timestamp = .ok total ∧
      timestampInterval format ≠ ⟨0, 0⟩ ∧
      rsrc = ⟨name, ⟨format, total, 0, ⟨0, 0⟩, timestampInterval format, [], []⟩, []⟩ := by
  unfold resourceTimestampInit at started
  cases format : rsrcGetInfix name .timestamp with
  | error rc => simp [format, bind, Except.bind] at started
  | ok text =>
    cases number : rsrcGetNumber name .timestamp with
    | error rc => simp [format, number, bind, Except.bind] at started
    | ok total =>
      simp only [format, number, bind, Except.bind] at started
      split at started
      · cases started
      · next defined => exact ⟨text, total, rfl, rfl, defined, (Except.ok.inj started).symm⟩

theorem resourceTimestampInit_ok {name : Name} {rsrc : TimestampRsrc}
    (started : resourceTimestampInit name = .ok rsrc) : rsrc.name = name ∧ rsrc.waitings = [] := by
  obtain ⟨format, total, _, _, _, rfl⟩ := resourceTimestampInit_eq started
  exact ⟨rfl, rfl⟩

end Flom
