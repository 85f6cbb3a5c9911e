import Flom.DaemonLockers
import Flom.LockerTurn

set_option autoImplicit false

namespace Flom

def dataArrived (conn : Conn) (rc : Rc) (msg : Msg) (closed : Bool) : Option Conn :=
  let stepped := { conn with lastStep := msg.step, msg := msg }
  if rc = .ok then
    if msg.state = .invalid then
      if (connTerminate stepped closed).1 = .ok then some (connTerminate stepped closed).2 else none
    else some stepped
  else none

def lockerArrived (locker : Locker) (id : Nat) (ready : Ready) : Option Conn :=
  match locker.conns[id]? with
  | none => none
  | some conn =>
    if id = 0 then lockerRead locker ready
    else
      match ready.received with
      | .data rc msg => dataArrived conn rc msg ready.closed
      | .failed _ => none

def Msg.locks (msg : Msg) : Bool := msg.verb = .lock || msg.verb = .unlock

def lockerInput (locker : Locker) (id : Nat) (ready : Ready) : Option Conn :=
  if ready.err = false ∧ ready.pollin = true then (lockerArrived locker id ready).filter
    (·.msg.locks) else none

section

variable {locker : Locker} {id : Nat} {ready : Ready}

theorem lockerProcess_other {conn : Conn} (other : conn.msg.locks = false) :
    (lockerProcess locker id conn ready).locker = locker := by
  unfold lockerProcess
  rw [if_neg (by simpa [Msg.locks] using other)]

theorem lockerClose_set {conn : Conn} (bound : id < locker.conns.length) (closed : Bool) :
    lockerClose (locker.setConn id conn) id closed =
      ((connTerminate conn closed).1, locker.setConn id (connTerminate conn closed).2) := by
  have present : (locker.setConn id conn).conns[id]? = some conn := List.getElem?_set_self bound
  simp only [lockerClose, connsCloseFd, present]
  simp [Locker.setConn]

theorem lockerData_arrived {conn : Conn} (rc : Rc) (msg : Msg)
    (present : locker.conns[id]? = some conn) :
    match dataArrived conn rc msg ready.closed with
    | some stepped => ∃ host : Locker, host.resource = locker.resource ∧
        lockerData locker id conn rc msg ready = lockerProcess host id stepped ready
    | none => (lockerData locker id conn rc msg ready).locker.resource = locker.resource := by
  unfold dataArrived lockerData
  by_cases parsed : rc = .ok
  · by_cases invalid : msg.state = .invalid
    · simp only [parsed, invalid, if_true, lockerClose_set (List.getElem?_eq_some_iff.mp present).1]
      by_cases closed : (connTerminate { conn with lastStep := msg.step, msg := msg }
        ready.closed).1 = .ok
      · simp only [closed, if_true]
        refine ⟨_, ?_, rfl⟩
        rfl
      · simp only [closed, if_false]
        rfl
    · simp only [parsed, invalid, if_true, if_false]
      refine ⟨_, ?_, rfl⟩
      rfl
  · simp only [parsed, if_false]
    rfl

theorem lockerArrived_data {arrived : Conn} (client : id ≠ 0)
    (found : lockerArrived locker id ready = some arrived) :
    ∃ conn rc msg, locker.conns[id]? = some conn ∧ ready.received = .data rc msg ∧
      dataArrived conn rc msg ready.closed = some arrived := by
  unfold lockerArrived at found
  cases present : locker.conns[id]? with
  | none => simp [present] at found
  | some conn =>
    simp only [present, if_neg client] at found
    cases received : ready.received with
    | failed rc => simp [received] at found
    | data rc msg => exact ⟨conn, rc, msg, rfl, rfl, by simpa only [received] using found⟩

theorem lockerLoopPollin_arrived :
    match lockerArrived locker id ready with
    | some conn => ∃ host position, host.resource = locker.resource ∧
        lockerLoopPollin locker id ready = lockerProcess host position conn ready
    | none => (lockerLoopPollin locker id ready).locker.resource = locker.resource ∨
        ∃ conn, (lockerLoopPollin locker id ready).locker.resource =
          (resourceClean locker.resource conn ready.env).resource := by
  unfold lockerArrived lockerLoopPollin
  cases present : locker.conns[id]? with
  | none => exact .inl rfl
  | some conn =>
    by_cases control : id = 0
    · simp only [if_pos control, lockerHandover]
      have read : lockerRead { locker with idlePeriods := 0 } ready = lockerRead locker ready := rfl
      rw [read]
      cases lockerRead locker ready with
      | none => exact .inl rfl
      | some handed =>
        refine ⟨_, _, ?_, rfl⟩
        rfl
    · simp only [if_neg control]
      cases ready.received with
      | failed rc => exact .inl rfl
      | data rc msg =>
        have read := @lockerData_arrived { locker with idlePeriods := 0 } id ready conn rc msg
          present
        dsimp only
        generalize dataArrived conn rc msg ready.closed = arrived at read
        cases arrived with
        | none => exact .inl read
        | some stepped =>
          obtain ⟨host, same, processed⟩ := read
          exact ⟨host, id, same, processed⟩

theorem lockerLoopPollin_input (quiet : ready.err = false) (pollin : ready.pollin = true) :
    match lockerInput locker id ready with
    | some conn => conn.msg.locks = true ∧ ∃ host position, host.resource = locker.resource ∧
        lockerLoopPollin locker id ready = lockerProcess host position conn ready
    | none => (lockerLoopPollin locker id ready).locker.resource = locker.resource ∨
        ∃ conn, (lockerLoopPollin locker id ready).locker.resource =
          (resourceClean locker.resource conn ready.env).resource := by
  have arrived := @lockerLoopPollin_arrived locker id ready
  rw [lockerInput, if_pos ⟨quiet, pollin⟩]
  generalize lockerArrived locker id ready = found at arrived ⊢
  cases found with
  | none => exact arrived
  | some conn =>
    obtain ⟨host, position, same, processed⟩ := arrived
    by_cases locks : conn.msg.locks = true
    · simp only [Option.filter_some, locks, if_true]
      exact ⟨trivial, host, position, same, processed⟩
    · simp only [Option.filter_some, locks, if_false, Bool.false_eq_true]
      rw [processed, lockerProcess_other (by simpa using locks)]
      exact .inl same

end

def PollEvent.Serves (allowed : Locker → Nat → Ready → Prop) (locker : Locker) : PollEvent → Prop
  | .ready revents =>
    locker.running = true → connsSetEvents locker.cleaned.conns = .ok →
      Run.ScanAlong lockerNext allowed locker.cleaned 0 (revents.take locker.cleaned.conns.length)
  | .failed | .timeout _ => True

instance pollEventServesDecidable (allowed : Locker → Nat → Ready → Prop)
    [∀ locker id ready, Decidable (allowed locker id ready)] (locker : Locker) :
    (event : PollEvent) → Decidable (event.Serves allowed locker)
  | .ready _ => inferInstanceAs (Decidable (_ → _ → Run.ScanAlong _ _ _ _ _))
  | .failed | .timeout _ => isTrue trivial

def LockerSlot.Serves (allowed : Locker → Nat → Ready → Prop) (slot : LockerSlot)
    (event : PollEvent) : Prop :=
  (event.piped (slot.pipe.head?.map Token.conn)).Serves allowed { slot.thread with mail := [] }

instance servesDecidable (allowed : Locker → Nat → Ready → Prop)
    [∀ locker id ready, Decidable (allowed locker id ready)] (slot : LockerSlot)
    (event : PollEvent) :
    Decidable (slot.Serves allowed event) :=
  inferInstanceAs (Decidable (PollEvent.Serves _ _ _))

theorem PollEvent.Serves.mono {allowed allowed' : Locker → Nat → Ready → Prop} {locker : Locker}
    {event : PollEvent} (imp : ∀ locker id ready, allowed locker id ready →
      allowed' locker id ready) (serves : event.Serves allowed locker) :
    event.Serves allowed' locker := by
  cases event with
  | failed | timeout env => trivial
  | ready revents => exact fun running polls => Run.scanAlong_imp imp (serves running polls)

theorem PollEvent.Serves.imp {allowed allowed' : Locker → Nat → Ready → Prop} {locker : Locker}
    {handed : Option Conn} {event : PollEvent}
    (client : ∀ locker id ready, id ≠ 0 → allowed locker id ready → allowed' locker id ready)
    (control : ∀ ready, ready.handed = handed → allowed' locker.cleaned 0 ready)
    (serves : (event.piped handed).Serves allowed locker) :
    (event.piped handed).Serves allowed' locker := by
  cases event with
  | failed | timeout env => trivial
  | ready revents =>
    cases revents with
    | nil =>
      intro _ _
      rw [List.take_nil]
      trivial
    | cons first rest =>
      intro running polls
      have along := serves running polls
      cases count : locker.cleaned.conns.length with
      | zero => trivial
      | succ length =>
        rw [count, List.take_succ_cons] at along
        rw [List.take_succ_cons]
        refine ⟨control _ rfl, fun after next => ?_⟩
        exact Run.scanAlong_imp_from
          (fun locker id ready behind => client locker id ready (by omega)) (along.2 after next)

end Flom
