import Flom.Lib.Lists
import Flom.Locker
import Flom.ResourceKey

set_option autoImplicit false

namespace Flom

open Lists

structure Conn.Becomes (before after : Conn) : Prop where
  id : after.id = before.id
  open_ : after.state ≠ .remove → after.state = before.state ∧ after.sockfd = before.sockfd

theorem Conn.becomes_refl (conn : Conn) : conn.Becomes conn := ⟨rfl, fun _ => ⟨rfl, rfl⟩⟩

theorem Conn.Becomes.trans {first second third : Conn} (before : first.Becomes second)
    (after : second.Becomes third) : first.Becomes third := by
  refine ⟨after.id.trans before.id, fun stays => ?_⟩
  obtain ⟨state, sockfd⟩ := after.open_ stays
  obtain ⟨state', sockfd'⟩ := before.open_ (state ▸ stays)
  exact ⟨state.trans state', sockfd.trans sockfd'⟩

theorem connTerminate_becomes (conn : Conn) (closed : Bool) :
    conn.Becomes (connTerminate conn closed).2 :=
  ⟨connTerminate_id conn closed, fun stays => absurd (connTerminate_state conn closed) stays⟩

structure Locker.Same (before after : Locker) : Prop where
  control : after.control = before.control
  key : after.resource.key = before.resource.key

theorem Locker.same_refl (locker : Locker) : locker.Same locker := ⟨rfl, rfl⟩

theorem Locker.Same.trans {first second third : Locker} (before : first.Same second)
    (after : second.Same third) : first.Same third :=
  ⟨after.control.trans before.control, after.key.trans before.key⟩

structure Locker.Seats (before after : Locker) : Prop extends before.Same after where
  conns : List.Forall₂ Conn.Becomes before.conns after.conns

theorem Locker.seats_of_conns {before after : Locker} (same : before.Same after)
    (conns : after.conns = before.conns) : before.Seats after := by
  refine ⟨same, ?_⟩
  rw [conns]
  exact List.forall₂_same.mpr fun conn _ => conn.becomes_refl

theorem Locker.seats_refl (locker : Locker) : locker.Seats locker :=
  Locker.seats_of_conns locker.same_refl rfl

theorem forall₂_becomes_trans {first second third : List Conn}
    (before : List.Forall₂ Conn.Becomes first second)
    (after : List.Forall₂ Conn.Becomes second third) : List.Forall₂ Conn.Becomes first third := by
  induction before generalizing third with
  | nil => exact after
  | cons becomes _ ih =>
    cases after with
    | cons becomes' rest => exact .cons (becomes.trans becomes') (ih rest)

theorem Locker.Seats.trans {first second third : Locker} (before : first.Seats second)
    (after : second.Seats third) : first.Seats third :=
  ⟨before.toSame.trans after.toSame, forall₂_becomes_trans before.conns after.conns⟩

theorem setConn_seats {locker : Locker} {id : Nat} {conn conn' : Conn}
    (present : locker.conns[id]? = some conn) (becomes : conn.Becomes conn') :
    locker.Seats (locker.setConn id conn') :=
  ⟨⟨rfl, rfl⟩, forall₂_set Conn.becomes_refl present becomes⟩

theorem lockerClose_seats (locker : Locker) (id : Nat) (closed : Bool) :
    locker.Seats (lockerClose locker id closed).2 := by
  simp only [lockerClose, connsCloseFd]
  split
  · next conn present => exact ⟨⟨rfl, rfl⟩,
      forall₂_set Conn.becomes_refl present (connTerminate_becomes conn closed)⟩
  · exact locker.seats_refl

theorem Locker.Seats.cleans {before after : Locker} (seats : before.Seats after) (conn : ConnId)
    (env : Env) :
    let reply := resourceClean before.resource conn env
    before.Seats ({ after with resource := reply.resource }.send reply.mail) :=
  ⟨⟨seats.control, resourceClean_key before.resource conn env⟩, seats.conns⟩

theorem lockerProcess_locker (locker : Locker) (id : Nat) (conn : Conn) (ready : Ready)
    (request : conn.msg.verb = .lock ∨ conn.msg.verb = .unlock) :
    ∃ conn' mail, conn'.id = conn.id ∧ conn'.state = conn.state ∧ conn'.sockfd = conn.sockfd ∧
      (lockerProcess locker id conn ready).locker =
        { locker with
          resource := (resourceInmsg locker.resource conn.id conn.lastStep conn.msg
            ready.env).resource
          conns := locker.conns.set id conn'
          mail := mail } := by
  unfold lockerProcess
  dsimp only [Locker.setConn, Locker.send]
  rw [if_pos request]
  split_ifs
  · split <;> simp only [List.set_set] <;> refine ⟨_, _, ?_, ?_, ?_, rfl⟩ <;> rfl
  · refine ⟨_, _, ?_, ?_, ?_, rfl⟩ <;> rfl
  · refine ⟨_, _, ?_, ?_, ?_, rfl⟩ <;> rfl
  · split <;> simp only [List.set_set] <;> refine ⟨_, _, ?_, ?_, ?_, rfl⟩ <;> rfl
  · refine ⟨_, _, ?_, ?_, ?_, rfl⟩ <;> rfl

theorem lockerProcess_seats {locker : Locker} {id : Nat} {conn : Conn} (ready : Ready)
    (present : locker.conns[id]? = some conn) :
    locker.Seats (lockerProcess locker id conn ready).locker := by
  by_cases request : conn.msg.verb = .lock ∨ conn.msg.verb = .unlock
  · obtain ⟨conn', mail, same, state, sockfd, after⟩ :=
      lockerProcess_locker locker id conn ready request
    rw [after]
    exact ⟨⟨rfl, resourceInmsg_key _ _ _ _ _⟩,
      forall₂_set Conn.becomes_refl present ⟨same, fun _ => ⟨state, sockfd⟩⟩⟩
  · rw [lockerProcess, if_neg request]
    exact locker.seats_refl

theorem lockerData_seats {locker : Locker} {id : Nat} {conn : Conn} (rc : Rc) (msg : Msg)
    (ready : Ready) (present : locker.conns[id]? = some conn) :
    locker.Seats (lockerData locker id conn rc msg ready).locker := by
  obtain ⟨bound, _⟩ := List.getElem?_eq_some_iff.mp present
  have stepped : locker.Seats (locker.setConn id { conn with lastStep := msg.step, msg := msg }) :=
    setConn_seats present ⟨rfl, fun _ => ⟨rfl, rfl⟩⟩
  have closed := stepped.trans (lockerClose_seats _ id ready.closed)
  have standing : (locker.setConn id { conn with lastStep := msg.step, msg := msg }).conns[id]? =
      some { conn with lastStep := msg.step, msg := msg } := List.getElem?_set_self bound
  unfold lockerData
  dsimp only
  split_ifs
  · refine closed.trans (lockerProcess_seats ready ?_)
    simp only [lockerClose, connsCloseFd, standing]
    exact List.getElem?_set_self (by simpa [Locker.setConn] using bound)
  · exact closed
  · exact stepped.trans (lockerProcess_seats ready standing)
  · exact setConn_seats present ⟨rfl, fun _ => ⟨rfl, rfl⟩⟩

theorem lockerDisconnect_seats (locker : Locker) (id : Nat) (ready : Ready) :
    locker.Seats (lockerDisconnect locker id ready).locker := by
  have closed := lockerClose_seats locker id ready.closed
  unfold lockerDisconnect
  split
  · dsimp only
    split
    · exact closed.cleans _ _
    · exact closed
  · exact locker.seats_refl

theorem lockerHup_seats (locker : Locker) (id : Nat) (ready : Ready) :
    locker.Seats (lockerHup locker id ready).locker := by
  unfold lockerHup
  split_ifs
  · exact lockerClose_seats locker id ready.closed
  · exact lockerDisconnect_seats locker id ready
  · exact locker.seats_refl

def Locker.admits (locker : Locker) (id : Nat) (ready : Ready) : List Conn :=
  if id = 0 ∧ ready.err = false ∧ ready.pollin = true ∧
    locker.conns.head?.any (·.id = locker.control) = true then
    ready.handed.toList
  else []

def Locker.admitting (locker : Locker) (id : Nat) (ready : Ready) : Locker :=
  { locker with conns := locker.conns ++ locker.admits id ready }

theorem admitting_client {locker : Locker} {id : Nat} (ready : Ready) (behind : id ≠ 0) :
    locker.admitting id ready = locker := by
  simp [Locker.admitting, Locker.admits, behind]

theorem lockerHandover_seats {locker : Locker} {ready : Ready} (quiet : ready.err = false)
    (pollin : ready.pollin = true) : (locker.admitting 0 ready).Seats
    (lockerHandover locker ready).locker := by
  unfold lockerHandover lockerRead Locker.admitting Locker.admits
  simp only [quiet, pollin, true_and]
  by_cases control : locker.conns.head?.any (·.id = locker.control) = true
  · simp only [control, if_true]
    cases ready.handed with
    | none => exact Locker.seats_of_conns ⟨rfl, rfl⟩ (by simp)
    | some conn =>
      refine Locker.Seats.trans (Locker.seats_of_conns ⟨rfl, rfl⟩ rfl)
        (lockerProcess_seats ready ?_)
      simp
  · simp only [control]
    exact Locker.seats_of_conns ⟨rfl, rfl⟩ (by simp)

theorem lockerLoopPollin_seats {locker : Locker} {id : Nat} {ready : Ready}
    (quiet : ready.err = false) (pollin : ready.pollin = true) :
    (locker.admitting id ready).Seats (lockerLoopPollin locker id ready).locker := by
  have woken : locker.Seats { locker with idlePeriods := 0 } := Locker.seats_of_conns ⟨rfl, rfl⟩ rfl
  unfold lockerLoopPollin
  by_cases first : id = 0
  · subst first
    split
    · next absent =>
      have none : locker.conns = [] := by simpa using absent
      exact Locker.seats_of_conns ⟨rfl, rfl⟩ (by simp [Locker.admitting, Locker.admits, none])
    · rw [if_pos rfl]
      have same : (locker.admitting 0 ready).Seats
          ({ locker with idlePeriods := 0 }.admitting 0 ready) :=
        Locker.seats_of_conns ⟨rfl, rfl⟩ rfl
      exact same.trans (lockerHandover_seats quiet pollin)
  · rw [admitting_client ready first]
    split
    · exact locker.seats_refl
    · next conn present =>
      rw [if_neg first]
      split
      · exact woken
      · exact woken.trans (lockerData_seats _ _ ready present)

theorem lockerServe_seats (locker : Locker) (id : Nat) (ready : Ready) :
    (locker.admitting id ready).Seats (lockerServe locker id ready).locker := by
  unfold lockerServe
  dsimp only
  by_cases err : ready.err = true
  · have alone : locker.admitting id ready = locker := by
      simp [Locker.admitting, Locker.admits, err]
    rw [if_pos err, alone]
    exact lockerDisconnect_seats locker id ready
  · rw [if_neg err]
    by_cases pollin : ready.pollin = true
    · have polled := @lockerLoopPollin_seats locker id ready (by simpa using err) pollin
      rw [if_pos pollin]
      split_ifs
      · exact polled
      · exact polled.trans (lockerHup_seats _ id ready)
      · exact polled.trans (lockerDisconnect_seats _ id ready)
    · have alone : locker.admitting id ready = locker := by
        simp [Locker.admitting, Locker.admits, pollin]
      rw [if_neg pollin, alone]
      exact lockerHup_seats locker id ready

structure Locker.Loops (before after : Locker) : Prop where
  idlePeriods : after.idlePeriods = before.idlePeriods
  running : after.running = before.running

theorem lockerProcess_loops (locker : Locker) (id : Nat) (conn : Conn) (ready : Ready) :
    locker.Loops (lockerProcess locker id conn ready).locker := by
  by_cases request : conn.msg.verb = .lock ∨ conn.msg.verb = .unlock
  · obtain ⟨_, _, _, _, _, after⟩ := lockerProcess_locker locker id conn ready request
    rw [after]
    exact ⟨rfl, rfl⟩
  · rw [lockerProcess, if_neg request]
    exact ⟨rfl, rfl⟩

theorem lockerDisconnect_loops (locker : Locker) (id : Nat) (ready : Ready) :
    locker.Loops (lockerDisconnect locker id ready).locker := by
  unfold lockerDisconnect
  split
  · dsimp only
    split <;> exact ⟨rfl, rfl⟩
  · exact ⟨rfl, rfl⟩

theorem lockerHup_loops (locker : Locker) (id : Nat) (ready : Ready) :
    locker.Loops (lockerHup locker id ready).locker := by
  unfold lockerHup
  split_ifs
  · exact ⟨rfl, rfl⟩
  · exact lockerDisconnect_loops locker id ready
  · exact ⟨rfl, rfl⟩

theorem lockerHandover_loops (locker : Locker) (ready : Ready) :
    locker.Loops (lockerHandover locker ready).locker := by
  unfold lockerHandover
  split
  · obtain ⟨idle, running⟩ := lockerProcess_loops _ _ _ ready
    exact ⟨idle, running⟩
  · exact ⟨rfl, rfl⟩

theorem lockerData_loops (locker : Locker) (id : Nat) (conn : Conn) (rc : Rc) (msg : Msg)
    (ready : Ready) :
    locker.Loops (lockerData locker id conn rc msg ready).locker := by
  unfold lockerData
  dsimp only
  split_ifs
  · obtain ⟨idle, running⟩ := lockerProcess_loops _ id _ ready
    exact ⟨idle, running⟩
  · exact ⟨rfl, rfl⟩
  · obtain ⟨idle, running⟩ := lockerProcess_loops _ id _ ready
    exact ⟨idle, running⟩
  · exact ⟨rfl, rfl⟩

theorem lockerLoopPollin_loops {locker : Locker} {id : Nat} {conn : Conn} (ready : Ready)
    (present : locker.conns[id]? = some conn) :
    ({ locker with idlePeriods := 0 } : Locker).Loops
      (lockerLoopPollin locker id ready).locker := by
  rw [lockerLoopPollin, present]
  dsimp only
  split_ifs
  · exact lockerHandover_loops _ ready
  · split
    · exact ⟨rfl, rfl⟩
    · exact lockerData_loops _ id _ _ _ ready

theorem lockerLoopPollin_woken {locker : Locker} {id : Nat} {conn : Conn} (ready : Ready)
    (present : locker.conns[id]? = some conn) :
    (lockerLoopPollin locker id ready).locker.idlePeriods = 0 :=
  (lockerLoopPollin_loops ready present).idlePeriods

theorem lockerLoopPollin_idle (locker : Locker) (id : Nat) (ready : Ready) :
    (lockerLoopPollin locker id ready).locker.idlePeriods ≤ locker.idlePeriods := by
  cases present : locker.conns[id]? with
  | none => rw [lockerLoopPollin, present]
  | some conn => exact (lockerLoopPollin_woken ready present).le.trans (Nat.zero_le _)

theorem lockerServe_pollin {locker : Locker} {id : Nat} {ready : Ready} (quiet : ready.err = false)
    (pollin : ready.pollin = true) :
    (lockerServe locker id ready).locker.idlePeriods =
    (lockerLoopPollin locker id ready).locker.idlePeriods := by
  simp only [lockerServe, quiet, pollin, Bool.false_eq_true, if_false, if_true]
  split_ifs
  · rfl
  · exact (lockerHup_loops _ id ready).idlePeriods
  · exact (lockerDisconnect_loops _ id ready).idlePeriods

theorem lockerServe_idle (locker : Locker) (id : Nat) (ready : Ready) :
    (lockerServe locker id ready).locker.idlePeriods ≤ locker.idlePeriods := by
  by_cases err : ready.err = true
  · rw [lockerServe, if_pos err]
    exact (lockerDisconnect_loops locker id ready).idlePeriods.le
  · by_cases pollin : ready.pollin = true
    · rw [lockerServe_pollin (by simpa using err) pollin]
      exact lockerLoopPollin_idle locker id ready
    · rw [lockerServe, if_neg err, if_neg pollin]
      exact (lockerHup_loops locker id ready).idlePeriods.le

theorem lockerScan_idle (locker : Locker) (id : Nat) (revents : List Ready) :
    (lockerScan locker id revents).idlePeriods ≤ locker.idlePeriods := by
  induction revents generalizing locker id with
  | nil => exact le_rfl
  | cons ready rest ih =>
    have served := lockerServe_idle locker id ready
    rw [lockerScan]
    generalize lockerServe locker id ready = reached at served
    obtain ⟨flow, after⟩ := reached
    cases flow with
    | next => exact (ih after (id + 1)).trans served
    | again => exact served
    | leave => exact served

theorem lockerPoll_counts {locker : Locker} {env : Env}
    (counted : locker.idlePeriods < (lockerPoll locker (.timeout env)).idlePeriods) :
    locker.conns.length = 1 := by
  simp only [lockerPoll] at counted
  by_contra several
  have same : ({ locker with resource := (resourceTimeout locker.resource env).resource }.send
      (resourceTimeout locker.resource env).mail).conns.length ≠ 1 := several
  rw [if_neg same] at counted
  split_ifs at counted <;> exact lt_irrefl _ counted

def Locker.alone (locker : Locker) : Prop :=
  locker.conns.length ≤ 1 ∧ ∀ conn ∈ locker.conns, conn.id = locker.control

theorem Locker.alone_nil {locker : Locker} (empty : locker.conns = []) : locker.alone := by
  simp [Locker.alone, empty]

theorem Locker.alone_single {locker : Locker} {conn : Conn} (single : locker.conns.length = 1)
    (first : locker.conns[0]? = some conn) (same : conn.id = locker.control) : locker.alone := by
  obtain ⟨only, conns⟩ := List.length_eq_one_iff.mp single
  refine ⟨single.le, fun other member => ?_⟩
  rw [conns] at first member
  obtain rfl := Option.some.inj first
  obtain rfl := List.mem_singleton.mp member
  exact same

theorem Locker.Seats.alone {before after : Locker} (seats : before.Seats after)
    (alone : before.alone) :
    after.alone := by
  refine ⟨seats.conns.length_eq ▸ alone.1, fun conn' member => ?_⟩
  obtain ⟨conn, old, becomes⟩ := forall₂_mem seats.conns member
  rw [seats.control, ← alone.2 conn old]
  exact becomes.id

theorem timeout_alone {locker : Locker} (alone : locker.alone) (env : Env) :
    (lockerPoll locker (.timeout env)).alone := by
  simp only [lockerPoll]
  split_ifs
  · exact alone
  · exact alone
  · exact Locker.alone_nil rfl

theorem leave_alone (locker : Locker) : locker.leave.alone := Locker.alone_nil rfl

theorem cleaned_alone {locker : Locker} (alone : locker.alone) : locker.cleaned.alone :=
  ⟨(connsClean_subperm locker.conns).length_le.trans alone.1,
    fun conn member => alone.2 conn (mem_connsClean.mp member).1⟩

def Locker.polled (locker : Locker) : Prop :=
  ∀ conn ∈ locker.conns, conn.state ≠ .remove → conn.sockfd = true

theorem Locker.Seats.polled {before after : Locker} (seats : before.Seats after)
    (polled : before.polled) :
    after.polled := by
  intro conn' member stays
  obtain ⟨conn, old, becomes⟩ := forall₂_mem seats.conns member
  obtain ⟨state, sockfd⟩ := becomes.open_ stays
  exact sockfd.trans (polled conn old (state ▸ stays))

theorem cleaned_setEvents {locker : Locker} (polled : locker.polled) :
    connsSetEvents locker.cleaned.conns = .ok := by
  rw [connsSetEvents, if_pos]
  rw [List.all_eq_true]
  intro conn member
  obtain ⟨before, stays⟩ := mem_connsClean.mp member
  exact polled conn before stays

theorem lockerScan_seats {locker : Locker} {id : Nat} (revents : List Ready) (behind : id ≠ 0) :
    locker.Seats (lockerScan locker id revents) ∨
      ∃ left : Locker, locker.Same left ∧ lockerScan locker id revents = left.leave := by
  induction revents generalizing locker id with
  | nil => exact .inl locker.seats_refl
  | cons ready rest ih =>
    have served := lockerServe_seats locker id ready
    rw [admitting_client ready behind] at served
    rw [lockerScan]
    generalize lockerServe locker id ready = reached at served
    obtain ⟨flow, after⟩ := reached
    cases flow with
    | next =>
      obtain seated | ⟨left, same, gone⟩ := @ih after (id + 1) (by omega)
      · exact .inl (served.trans seated)
      · exact .inr ⟨left, served.toSame.trans same, gone⟩
    | again => exact .inl served
    | leave => exact .inr ⟨after, served.toSame, rfl⟩

theorem lockerScan_admits (locker : Locker) (first : Ready) (rest : List Ready) :
    (locker.admitting 0 first).Seats (lockerScan locker 0 (first :: rest)) ∨
      ∃ left : Locker, locker.Same left ∧ lockerScan locker 0 (first :: rest) = left.leave := by
  have served := lockerServe_seats locker 0 first
  have same : locker.Same (lockerServe locker 0 first).locker := ⟨served.control, served.key⟩
  rw [lockerScan]
  generalize lockerServe locker 0 first = reached at served same
  obtain ⟨flow, after⟩ := reached
  cases flow with
  | next =>
    obtain seated | ⟨left, left_same, gone⟩ := @lockerScan_seats after 1 rest (by omega)
    · exact .inl (served.trans seated)
    · exact .inr ⟨left, same.trans left_same, gone⟩
  | again => exact .inl served
  | leave => exact .inr ⟨after, same, rfl⟩

def Locker.admitted (locker : Locker) : PollEvent → List Conn
  | .ready (first :: _) => locker.admits 0 first
  | _ => []

theorem lockerStep_seats {locker : Locker} (running : locker.running = true) (event : PollEvent) :
    { locker.cleaned with conns := locker.cleaned.conns ++ locker.cleaned.admitted event }.Seats
        (lockerStep locker event) ∨
      ∃ left : Locker, locker.Same left ∧ lockerStep locker event = left.leave := by
  rw [lockerStep, if_pos running]
  split_ifs with none polls
  · exact .inr ⟨locker.cleaned, ⟨rfl, rfl⟩, rfl⟩
  · cases event with
    | failed => exact .inr ⟨locker.cleaned, ⟨rfl, rfl⟩, rfl⟩
    | timeout env =>
      have key := resourceTimeout_key locker.resource env
      simp only [lockerPoll]
      split_ifs
      · exact .inl (Locker.seats_of_conns ⟨rfl, key⟩ (by simp [Locker.admitted, Locker.send]))
      · exact .inl (Locker.seats_of_conns ⟨rfl, key⟩ (by simp [Locker.admitted, Locker.send]))
      · refine .inr ⟨_, ?_, rfl⟩
        exact ⟨rfl, key⟩
    | ready revents =>
      cases revents with
      | nil =>
        rw [lockerPoll, List.take_nil, lockerScan]
        exact .inl (Locker.seats_of_conns ⟨rfl, rfl⟩ (by simp [Locker.admitted]))
      | cons first rest =>
        obtain ⟨count, length⟩ := Nat.exists_eq_add_one_of_ne_zero
          (fun zero => none (List.length_eq_zero_iff.mp zero))
        rw [lockerPoll, length, List.take_succ_cons]
        refine (lockerScan_admits locker.cleaned first _).imp (fun seats => seats) ?_
        exact fun ⟨left, same, gone⟩ => ⟨left, ⟨same.control, same.key⟩, gone⟩
  · exact .inr ⟨locker.cleaned, ⟨rfl, rfl⟩, rfl⟩

theorem lockerStep_counts {locker : Locker} {event : PollEvent}
    (counted : locker.idlePeriods < (lockerStep locker event).idlePeriods) :
    locker.cleaned.conns.length = 1 := by
  unfold lockerStep at counted
  split_ifs at counted
  · exact absurd counted (lt_irrefl _)
  · cases event with
    | failed => exact absurd counted (lt_irrefl _)
    | timeout env => exact lockerPoll_counts counted
    | ready revents =>
      have scanned := lockerScan_idle locker.cleaned 0 (revents.take locker.cleaned.conns.length)
      exact absurd counted (not_lt.mpr scanned)
  · exact absurd counted (lt_irrefl _)
  · exact absurd counted (lt_irrefl _)

theorem lockerStep_woken {locker : Locker} {event : PollEvent} (running : locker.running = true)
    (joins : locker.cleaned.admitted event ≠ []) :
    (lockerStep locker event).idlePeriods = 0 ∨ (lockerStep locker event).conns = [] := by
  rw [lockerStep, if_pos running]
  split_ifs with none polls
  · exact .inr rfl
  · left
    unfold Locker.admitted at joins
    split at joins
    · next first rest =>
      unfold Locker.admits at joins
      split_ifs at joins with reads
      · obtain ⟨_, quiet, pollin, _⟩ := reads
        obtain ⟨count, length⟩ := Nat.exists_eq_add_one_of_ne_zero
          (fun zero => none (List.length_eq_zero_iff.mp zero))
        have bound : 0 < locker.cleaned.conns.length := by omega
        have served : (lockerServe locker.cleaned 0 first).locker.idlePeriods = 0 :=
          (lockerServe_pollin quiet pollin).trans
            (lockerLoopPollin_woken first (List.getElem?_eq_getElem bound))
        rw [lockerPoll, length, List.take_succ_cons, lockerScan]
        generalize lockerServe locker.cleaned 0 first = reached at served
        obtain ⟨flow, after⟩ := reached
        cases flow with
        | next => exact Nat.le_zero.mp ((lockerScan_idle after 1 _).trans served.le)
        | again => exact served
        | leave => exact served
      · exact absurd rfl joins
    · exact absurd rfl joins
  · exact .inr rfl

theorem lockerStep_alone {locker : Locker} {event : PollEvent} (alone : locker.alone)
    (joins : locker.cleaned.admitted event = []) : (lockerStep locker event).alone := by
  by_cases running : locker.running = true
  · obtain seats | ⟨left, _, gone⟩ := lockerStep_seats running event
    · rw [joins, List.append_nil] at seats
      exact seats.alone (cleaned_alone alone)
    · rw [gone]
      exact leave_alone left
  · rw [lockerStep, if_neg running]
    exact alone

theorem lockerStep_key (locker : Locker) (event : PollEvent) :
    (lockerStep locker event).resource.key = locker.resource.key := by
  by_cases running : locker.running = true
  · obtain seats | ⟨left, same, gone⟩ := lockerStep_seats running event
    · exact seats.key
    · rw [gone]
      exact same.key
  · rw [lockerStep, if_neg running]

theorem lockerStep_lonely {locker : Locker} {event : PollEvent}
    (lonely : 0 < locker.idlePeriods → locker.alone)
    (single : locker.cleaned.conns.length = 1 → locker.cleaned.alone)
    (idle : 0 < (lockerStep locker event).idlePeriods) : (lockerStep locker event).alone := by
  by_cases running : locker.running = true
  · have cleaned : locker.cleaned.alone := by
      by_cases before : 0 < locker.idlePeriods
      · exact cleaned_alone (lonely before)
      · exact single (lockerStep_counts (lt_of_le_of_lt (not_lt.mp before) idle))
    by_cases joins : locker.cleaned.admitted event = []
    · obtain seats | ⟨left, _, gone⟩ := lockerStep_seats running event
      · rw [joins, List.append_nil] at seats
        exact seats.alone cleaned
      · rw [gone]
        exact leave_alone left
    · obtain woken | empty := lockerStep_woken running joins
      · exact absurd woken (Nat.ne_of_gt idle)
      · exact Locker.alone_nil empty
  · rw [lockerStep, if_neg running] at idle ⊢
    exact lonely idle

theorem lockerStep_polled {locker : Locker} {event : PollEvent} (polled : locker.polled)
    (admitted : ∀ conn ∈ locker.cleaned.admitted event, conn.sockfd = true) :
    (lockerStep locker event).polled := by
  by_cases running : locker.running = true
  · obtain seats | ⟨left, _, same⟩ := lockerStep_seats running event
    · refine seats.polled fun conn member stays => ?_
      obtain kept | joined := List.mem_append.mp member
      · exact polled conn (mem_connsClean.mp kept).1 stays
      · exact admitted conn joined
    · rw [same]
      intro conn member
      cases member
  · rw [lockerStep, if_neg running]
    exact polled

end Flom
