import Flom.LockerConns
import Flom.VfsResource

set_option autoImplicit false

namespace Flom

def lockerProcessCalls (conn : Conn) (ready : Ready) : List LockerCall :=
  if conn.msg.verb = .lock ∨ conn.msg.verb = .unlock then
    [.inmsg conn.id conn.lastStep conn.msg ready.env]
  else []

def lockerHandoverCalls (locker : Locker) (ready : Ready) : List LockerCall :=
  match lockerRead locker ready with
  | some handed => lockerProcessCalls handed ready
  | none => []

def lockerDataCalls (locker : Locker) (id : Nat) (conn : Conn) (rc : Rc) (msg : Msg)
    (ready : Ready) :
    List LockerCall :=
  if rc = .ok then
    let stepped := { conn with lastStep := msg.step, msg := msg }
    if msg.state = .invalid then
      if (lockerClose (locker.setConn id stepped) id ready.closed).1 = .ok then
        lockerProcessCalls (connTerminate stepped ready.closed).2 ready
      else []
    else lockerProcessCalls stepped ready
  else []

def lockerLoopPollinCalls (locker : Locker) (id : Nat) (ready : Ready) : List LockerCall :=
  match locker.conns[id]? with
  | none => []
  | some conn =>
    if id = 0 then lockerHandoverCalls locker ready
    else
      match ready.received with
      | .failed _ => []
      | .data rc msg => lockerDataCalls locker id conn rc msg ready

def lockerDisconnectCalls (locker : Locker) (id : Nat) (ready : Ready) : List LockerCall :=
  match locker.conns[id]? with
  | some conn =>
    if (lockerClose locker id ready.closed).1 = .ok then [.clean conn.id ready.cleanEnv] else []
  | none => []

def lockerHupCalls (locker : Locker) (id : Nat) (ready : Ready) : List LockerCall :=
  if ready.hup then
    if id = 0 then [] else lockerDisconnectCalls locker id ready
  else []

def lockerServeCalls (locker : Locker) (id : Nat) (ready : Ready) : List LockerCall :=
  if ready.err then lockerDisconnectCalls locker id ready
  else if ready.pollin then
    let polled := lockerLoopPollin locker id ready
    lockerLoopPollinCalls locker id ready ++
      if polled.rc = .ok then
        if polled.refresh then [] else lockerHupCalls polled.locker id ready
      else lockerDisconnectCalls polled.locker id ready
  else lockerHupCalls locker id ready

def lockerScanCalls (locker : Locker) : Nat → List Ready → List LockerCall
  | _, [] => []
  | id, ready :: rest =>
    lockerServeCalls locker id ready ++
      match lockerServe locker id ready with
      | ⟨.next, locker⟩ => lockerScanCalls locker (id + 1) rest
      | _ => []

def lockerPollCalls (locker : Locker) : PollEvent → List LockerCall
  | .failed => []
  | .timeout env => [.timeout env]
  | .ready revents => lockerScanCalls locker 0 (revents.take locker.conns.length)

def lockerStepCalls (locker : Locker) (event : PollEvent) : List LockerCall :=
  if locker.running then
    if locker.cleaned.conns = [] then []
    else if connsSetEvents locker.cleaned.conns = .ok then lockerPollCalls locker.cleaned event
    else []
  else []

structure Locker.Called (clients : List ConnId) (before after : Locker) (calls : List LockerCall) :
    Prop where
  resource : after.resource = Run.run resourceCall before.resource calls
  conns : ∀ call ∈ calls, call.conns ⊆ clients

section

variable {clients : List ConnId}

theorem Locker.called_quietly {before after : Locker} (same : after.resource = before.resource) :
    before.Called clients after [] := ⟨same, by simp⟩

theorem Locker.Called.trans {first second third : Locker} {calls later : List LockerCall}
    (before : first.Called clients second calls) (after : second.Called clients third later) :
    first.Called clients third (calls ++ later) := by
  constructor
  · rw [Run.run_append, ← before.resource, after.resource]
  · intro call member
    exact (List.mem_append.mp member).elim (before.conns call) (after.conns call)

theorem Locker.Seats.ids {before after : Locker} (seats : before.Seats after) :
    after.conns.map Conn.id = before.conns.map Conn.id := by
  have pairs := seats.conns
  generalize before.conns = old at pairs
  generalize after.conns = new at pairs
  induction pairs with
  | nil => rfl
  | cons becomes _ ih => rw [List.map_cons, List.map_cons, ih, becomes.id]

theorem lockerProcess_called {locker : Locker} {conn : Conn} (id : Nat) (ready : Ready)
    (mine : conn.id ∈ clients) :
    locker.Called clients (lockerProcess locker id conn ready).locker
      (lockerProcessCalls conn ready) := by
  unfold lockerProcessCalls
  by_cases request : conn.msg.verb = .lock ∨ conn.msg.verb = .unlock
  · obtain ⟨conn', mail, _, _, _, after⟩ := lockerProcess_locker locker id conn ready request
    rw [if_pos request, after]
    exact ⟨rfl, by simpa [LockerCall.conns] using mine⟩
  · rw [if_neg request, lockerProcess, if_neg request]
    exact Locker.called_quietly rfl

theorem lockerData_called {locker : Locker} {id : Nat} {conn : Conn} (rc : Rc) (msg : Msg)
    (ready : Ready) (mine : conn.id ∈ clients) :
    locker.Called clients (lockerData locker id conn rc msg ready).locker
      (lockerDataCalls locker id conn rc msg ready) := by
  unfold lockerData lockerDataCalls
  dsimp only
  split_ifs
  · have closing : (connTerminate { conn with lastStep := msg.step, msg := msg } ready.closed).2.id
        ∈ clients := by
      rwa [connTerminate_id]
    have processed := fun host : Locker => @lockerProcess_called clients host _ id ready closing
    exact ⟨(processed _).resource, (processed locker).conns⟩
  · exact Locker.called_quietly rfl
  · have processed := fun host : Locker =>
      @lockerProcess_called clients host { conn with lastStep := msg.step, msg := msg } id ready
        mine
    exact ⟨(processed _).resource, (processed locker).conns⟩
  · exact Locker.called_quietly rfl

theorem lockerDisconnect_called {locker : Locker} {id : Nat} (ready : Ready)
    (mine : ∀ conn ∈ locker.conns, conn.id ∈ clients) :
    locker.Called clients (lockerDisconnect locker id ready).locker
      (lockerDisconnectCalls locker id ready) := by
  unfold lockerDisconnect lockerDisconnectCalls
  cases present : locker.conns[id]? with
  | none => exact Locker.called_quietly rfl
  | some conn =>
    by_cases closed : (lockerClose locker id ready.closed).1 = .ok
    · simp only [if_pos closed]
      exact ⟨rfl, by simpa [LockerCall.conns] using mine conn (List.mem_of_getElem? present)⟩
    · simp only [if_neg closed]
      exact Locker.called_quietly rfl

theorem lockerHup_called {locker : Locker} {id : Nat} (ready : Ready)
    (mine : ∀ conn ∈ locker.conns, conn.id ∈ clients) :
    locker.Called clients (lockerHup locker id ready).locker (lockerHupCalls locker id ready) := by
  unfold lockerHup lockerHupCalls
  split_ifs
  · exact Locker.called_quietly rfl
  · exact lockerDisconnect_called ready mine
  · exact Locker.called_quietly rfl

theorem lockerLoopPollin_called {locker : Locker} {id : Nat} {ready : Ready}
    (quiet : ready.err = false) (pollin : ready.pollin = true)
    (mine : ∀ conn ∈ (locker.admitting id ready).conns, conn.id ∈ clients) :
    locker.Called clients (lockerLoopPollin locker id ready).locker
      (lockerLoopPollinCalls locker id ready) := by
  unfold lockerLoopPollin lockerLoopPollinCalls
  cases present : locker.conns[id]? with
  | none => exact Locker.called_quietly rfl
  | some conn =>
    have client : conn.id ∈ clients := mine conn
      (List.mem_append_left _ (List.mem_of_getElem? present))
    dsimp only
    by_cases first : id = 0
    · rw [if_pos first, if_pos first]
      unfold lockerHandover lockerHandoverCalls
      have read : lockerRead { locker with idlePeriods := 0 } ready = lockerRead locker ready := rfl
      rw [read]
      cases taken : lockerRead locker ready with
      | none => exact Locker.called_quietly rfl
      | some handed =>
        have joins : handed.id ∈ clients := by
          apply mine handed
          unfold lockerRead at taken
          split_ifs at taken with control
          apply List.mem_append_right
          rw [Locker.admits, if_pos ⟨first, quiet, pollin, control⟩, taken]
          exact List.mem_singleton_self handed
        have processed := fun host : Locker =>
          @lockerProcess_called clients host _ locker.conns.length ready joins
        exact ⟨(processed _).resource, (processed locker).conns⟩
    · rw [if_neg first, if_neg first]
      cases ready.received with
      | failed => exact Locker.called_quietly rfl
      | data rc msg =>
        have served := @lockerData_called clients
          { locker with idlePeriods := 0 } id conn rc msg ready client
        exact ⟨served.resource, served.conns⟩

theorem lockerServe_called {locker : Locker} {id : Nat} {ready : Ready}
    (mine : ∀ conn ∈ (locker.admitting id ready).conns, conn.id ∈ clients) :
    locker.Called clients (lockerServe locker id ready).locker
      (lockerServeCalls locker id ready) := by
  have here : ∀ conn ∈ locker.conns, conn.id ∈ clients :=
    fun conn member => mine conn (List.mem_append_left _ member)
  unfold lockerServe lockerServeCalls
  dsimp only
  by_cases err : ready.err = true
  · rw [if_pos err, if_pos err]
    exact lockerDisconnect_called ready here
  · rw [if_neg err, if_neg err]
    have quiet : ready.err = false := by simpa using err
    by_cases pollin : ready.pollin = true
    · rw [if_pos pollin, if_pos pollin]
      have polled := lockerLoopPollin_called quiet pollin mine
      have seated : ∀ conn ∈ (lockerLoopPollin locker id ready).locker.conns,
          conn.id ∈ clients := by
        intro conn member
        have same := (@lockerLoopPollin_seats locker id ready quiet pollin).ids
        obtain ⟨old, inside, equal⟩ := List.mem_map.mp (same ▸ List.mem_map_of_mem member)
        exact equal ▸ mine old inside
      split_ifs
      · simpa using polled
      · exact polled.trans (lockerHup_called ready seated)
      · exact polled.trans (lockerDisconnect_called ready seated)
    · rw [if_neg pollin, if_neg pollin]
      exact lockerHup_called ready here

theorem leave_called {locker left : Locker} {calls : List LockerCall}
    (called : locker.Called clients left calls) :
    locker.Called clients left.leave calls := ⟨called.resource, called.conns⟩

theorem lockerScan_called {locker : Locker} {id : Nat} {revents : List Ready}
    (mine : ∀ conn ∈ locker.conns, conn.id ∈ clients)
    (joins : ∀ first ∈ revents.head?, ∀ conn ∈ locker.admits id first, conn.id ∈ clients) :
    locker.Called clients (lockerScan locker id revents) (lockerScanCalls locker id revents) := by
  induction revents generalizing locker id with
  | nil => exact Locker.called_quietly rfl
  | cons first rest ih =>
    have everybody : ∀ conn ∈ (locker.admitting id first).conns, conn.id ∈ clients :=
        fun conn member =>
      (List.mem_append.mp member).elim (mine conn) (joins first rfl conn)
    have served := lockerServe_called everybody
    have seats := (lockerServe_seats locker id first).ids
    rw [lockerScan, lockerScanCalls]
    generalize lockerServe locker id first = reached at served seats
    obtain ⟨flow, after⟩ := reached
    cases flow with
    | next =>
      refine served.trans (ih (fun conn member => ?_) fun next _ conn member => ?_)
      · obtain ⟨old, inside, equal⟩ := List.mem_map.mp (seats ▸ List.mem_map_of_mem member)
        exact equal ▸ everybody old inside
      · simp [Locker.admits] at member
    | again => simpa using served
    | leave => simpa using leave_called served

theorem lockerStep_called {locker : Locker} {event : PollEvent}
    (mine : ∀ conn ∈ locker.conns, conn.id ∈ clients)
    (joins : ∀ conn ∈ locker.cleaned.admitted event, conn.id ∈ clients) :
    locker.Called clients (lockerStep locker event) (lockerStepCalls locker event) := by
  have left : ∀ conn ∈ locker.cleaned.conns, conn.id ∈ clients := fun conn member =>
    mine conn (mem_connsClean.mp member).1
  unfold lockerStep lockerStepCalls
  split_ifs with running none polls
  · exact Locker.called_quietly rfl
  · cases event with
    | failed => exact Locker.called_quietly rfl
    | timeout env =>
      have timed : ∀ after : Locker, after.resource =
        (resourceTimeout locker.resource env).resource →
          locker.Called clients after [.timeout env] :=
          fun after same => ⟨same, by simp [LockerCall.conns]⟩
      simp only [lockerPoll, lockerPollCalls]
      split_ifs <;> exact timed _ rfl
    | ready revents =>
      have scanned : locker.cleaned.Called clients _ _ :=
        @lockerScan_called clients locker.cleaned 0
        (revents.take locker.cleaned.conns.length) left ?_
      · exact ⟨scanned.resource, scanned.conns⟩
      · intro first head
        cases revents with
        | nil => simp at head
        | cons other rest =>
          obtain ⟨count, length⟩ := Nat.exists_eq_add_one_of_ne_zero fun zero =>
            none (List.length_eq_zero_iff.mp zero)
          rw [length, List.take_succ_cons, List.head?_cons] at head
          obtain rfl := Option.some.inj head
          exact joins
  · exact Locker.called_quietly rfl
  · exact Locker.called_quietly rfl

end

end Flom
