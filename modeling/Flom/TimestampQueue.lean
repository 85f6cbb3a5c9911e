import Flom.TimestampHistory

set_option autoImplicit false

namespace Flom

open Scan Run

structure TimestampTickets where
  rsrc : Rsrc (Logged TimestampData Nat) (Nat × ConnLock Unit)
  next : Nat

def ticketedManager : Manager (Logged TimestampData Nat) (Nat × ConnLock Unit) ConnId :=
  timestampManager.ticketed.logged ticketNotes

def ticketsClock (rsrc : Rsrc (Logged TimestampData Nat) (Nat × ConnLock Unit))
    (clock : List Timeval) :
    Rsrc (Logged TimestampData Nat) (Nat × ConnLock Unit) :=
  { rsrc with data := { rsrc.data with state := { rsrc.data.state with clock } } }

def ticketsTimeout (rsrc : Rsrc (Logged TimestampData Nat) (Nat × ConnLock Unit)) (env : Env) :
    Rsrc (Logged TimestampData Nat) (Nat × ConnLock Unit) :=
  let started := ticketsClock rsrc env.clock
  let looked := { started with data := ticketedManager.skip started.data (0, ⟨0, ()⟩) }
  if rsrc.waitings = [] then rsrc
  else if resourceTimestampCanLock started.data.state then
    (rsrcWaitings ticketedManager looked env.sends).rsrc
  else looked

def ticketsStep (tickets : TimestampTickets) : TimestampCall → TimestampTickets
  | .call (.inmsg conn lastStep msg env) =>
    match msg.verb with
    | .lock =>
      ⟨(rsrcLock ticketedManager ⟨(tickets.next, ⟨conn, ()⟩), msg.lock8.wait ≠ 0, .lockBusy,
        fun _ => none⟩ (ticketsClock tickets.rsrc env.clock) lastStep msg).rsrc, tickets.next + 1⟩
    | .unlock =>
      if some tickets.rsrc.name = msg.unlock8.name then
        { tickets with rsrc := (rsrcClean ticketedManager (ticketsClock tickets.rsrc env.clock) conn
          env.sends).rsrc }
      else tickets
    | _ => tickets
  | .call (.clean conn env) =>
    { tickets with rsrc := (rsrcClean ticketedManager (ticketsClock tickets.rsrc env.clock) conn
      env.sends).rsrc }
  | .timeout env => { tickets with rsrc := ticketsTimeout tickets.rsrc env }

def TimestampTickets.seen (tickets : TimestampTickets) : TimestampRsrc :=
  ⟨tickets.rsrc.name, tickets.rsrc.data.state, tickets.rsrc.waitings.map Prod.snd⟩

def ticketsStart (rsrc : TimestampRsrc) : TimestampTickets := ⟨⟨rsrc.name, ⟨rsrc.data, []⟩, []⟩, 0⟩

def ticketsGranted (tickets : TimestampTickets) (call : TimestampCall) : List Nat :=
  (ticketsStep tickets call).rsrc.data.log.drop tickets.rsrc.data.log.length

def ticketsServed (tickets : TimestampTickets) (call : TimestampCall) : Prop :=
  ServedInOrder (tickets.rsrc.waitings.map Prod.fst) (ticketsGranted tickets call)

def cleanInTurn (rsrc : TimestampRsrc) (conn : ConnId) (env : Env) : Prop :=
  ∀ freed ∈ timestampManager.release (timestampSetClock rsrc env.clock).data conn,
    InTurn timestampManager.toOps Rc.ok freed rsrc.waitings env.sends

def timestampInTurn (rsrc : TimestampRsrc) : TimestampCall → Prop
  | .call (.inmsg conn _ msg env) =>
    (msg.verb = .lock → (msgFree msg).1 = .ok →
        resourceTimestampCanLock (timestampSetClock rsrc env.clock).data = true →
        rsrc.waitings = []) ∧
      (msg.verb = .unlock → some rsrc.name = msg.unlock8.name → cleanInTurn rsrc conn env)
  | .call (.clean conn env) => cleanInTurn rsrc conn env
  | .timeout env =>
    let started := (timestampSetClock rsrc env.clock).data
    resourceTimestampCanLock started = true →
      InTurn timestampManager.toOps Rc.ok (timestampManager.skip started ⟨0, ()⟩) rsrc.waitings
        env.sends

theorem ticketsTimeout_seen (tickets : TimestampTickets) (env : Env) :
    (ticketsTimeout tickets.rsrc env).unlogged.unticketed =
    (resourceTimestampTimeout tickets.seen env).rsrc := by
  unfold ticketsTimeout resourceTimestampTimeout
  have empty : tickets.seen.waitings = [] ↔ tickets.rsrc.waitings = [] := List.map_eq_nil_iff
  have test : resourceTimestampCanLock (timestampSetClock tickets.seen env.clock).data =
      resourceTimestampCanLock (ticketsClock tickets.rsrc env.clock).data.state := rfl
  dsimp only
  simp only [empty, test]
  split_ifs with none can
  · rfl
  · rw [ticketedManager, rsrcWaitings_unlogged, rsrcWaitings_unticketed]
    rfl
  · rfl

theorem ticketsStep_seen (tickets : TimestampTickets) (call : TimestampCall) :
    (ticketsStep tickets call).seen = resourceTimestampStep tickets.seen call := by
  have cleaned (conn : ConnId) (env : Env) :
      (rsrcClean ticketedManager (ticketsClock tickets.rsrc env.clock) conn
        env.sends).rsrc.unlogged.unticketed =
        (resourceTimestampClean tickets.seen conn env).rsrc := by
    rw [ticketedManager, rsrcClean_unlogged, rsrcClean_unticketed]
    rfl
  cases call with
  | timeout env => exact ticketsTimeout_seen tickets env
  | call served =>
    cases served with
    | clean conn env => exact cleaned conn env
    | inmsg conn lastStep msg env =>
      simp only [ticketsStep, resourceTimestampStep, resourceTimestampInmsg]
      cases verb : msg.verb with
      | lock =>
        have unlogged := rsrcLock_unlogged timestampManager.ticketed ticketNotes
          ⟨(tickets.next, ⟨conn, ()⟩), msg.lock8.wait ≠ 0, .lockBusy, fun _ => none⟩
          ⟨(tickets.next, ⟨conn, ()⟩), msg.lock8.wait ≠ 0, .lockBusy, fun _ => none⟩
          (ticketsClock tickets.rsrc env.clock) lastStep msg rfl rfl
        have unticketed := rsrcLock_unticketed timestampManager
          ⟨⟨conn, ()⟩, msg.lock8.wait ≠ 0, .lockBusy, fun data =>
            some (timestampElement env.strftime data)⟩
          ⟨(tickets.next, ⟨conn, ()⟩), msg.lock8.wait ≠ 0, .lockBusy, fun _ => none⟩
          (ticketsClock tickets.rsrc env.clock).unlogged lastStep msg rfl rfl
        rw [← unlogged] at unticketed
        exact unticketed
      | unlock =>
        unfold rsrcUnlock
        by_cases named : some tickets.rsrc.name = msg.unlock8.name
        · dsimp only
          rw [if_pos named, if_pos (show some tickets.seen.name = _ from named),
            inmsgOfCleaned_rsrc]
          exact cleaned conn env
        · dsimp only
          rw [if_neg named, if_neg (show ¬some tickets.seen.name = _ from named), inmsgError_rsrc]
      | _ => rfl

structure TicketsSorted (tickets : TimestampTickets) : Prop where
  sorted : (tickets.rsrc.waitings.map Prod.fst).Pairwise (· < ·)
  fresh : ∀ ticket ∈ tickets.rsrc.waitings.map Prod.fst, ticket < tickets.next

theorem ticketsSorted_sublist {tickets : TimestampTickets}
    {rsrc : Rsrc (Logged TimestampData Nat) (Nat × ConnLock Unit)} (sorted : TicketsSorted tickets)
    (shorter : rsrc.waitings.Sublist tickets.rsrc.waitings) :
    TicketsSorted { tickets with rsrc } := by
  have tickets_shorter := shorter.map Prod.fst
  exact ⟨sorted.sorted.sublist tickets_shorter, fun ticket member =>
    sorted.fresh ticket (tickets_shorter.subset member)⟩

theorem ticketsTimeout_sublist (rsrc : Rsrc (Logged TimestampData Nat) (Nat × ConnLock Unit))
    (env : Env) :
    (ticketsTimeout rsrc env).waitings.Sublist rsrc.waitings := by
  unfold ticketsTimeout
  dsimp only
  split_ifs
  · exact List.Sublist.refl _
  · simp only [rsrcWaitings, indexScan_eq_scan]
    exact scan_queue_sublist ticketedManager.toOps Rc.ok _ rsrc.waitings env.sends
  · exact List.Sublist.refl _

theorem ticketsStep_sorted (tickets : TimestampTickets) (call : TimestampCall)
    (sorted : TicketsSorted tickets) :
    TicketsSorted (ticketsStep tickets call) := by
  have cleaned (conn : ConnId) (env : Env) : TicketsSorted { tickets with
      rsrc := (rsrcClean ticketedManager (ticketsClock tickets.rsrc env.clock) conn
          env.sends).rsrc } :=
    ticketsSorted_sublist sorted
      (ticketedManager.clean_queue_sublist Rc.ok _ tickets.rsrc.waitings conn env.sends)
  cases call with
  | timeout env => exact ticketsSorted_sublist sorted (ticketsTimeout_sublist tickets.rsrc env)
  | call served =>
    cases served with
    | clean conn env => exact cleaned conn env
    | inmsg conn lastStep msg env =>
      simp only [ticketsStep]
      split
      · have older : TicketsSorted { tickets with next := tickets.next + 1 } :=
          ⟨sorted.sorted, fun ticket member =>
            (sorted.fresh ticket member).trans (Nat.lt_succ_self _)⟩
        obtain same | ⟨_, same⟩ | ⟨_, same⟩ := rsrcLock_rsrc ticketedManager
          ⟨(tickets.next, ⟨conn, ()⟩), msg.lock8.wait ≠ 0, .lockBusy, fun _ => none⟩
          (ticketsClock tickets.rsrc env.clock) lastStep msg
        · rw [same]
          exact ⟨older.sorted, older.fresh⟩
        · rw [same]
          exact ⟨older.sorted, older.fresh⟩
        · rw [same]
          constructor
          · simp only [ticketsClock, List.map_append, List.map_cons, List.map_nil]
            refine List.pairwise_append.mpr ⟨sorted.sorted, List.pairwise_singleton _ _, ?_⟩
            intro ticket member last same
            rw [List.mem_singleton.mp same]
            exact sorted.fresh ticket member
          · simp only [ticketsClock, List.map_append, List.map_cons, List.map_nil]
            intro ticket member
            obtain earlier | last := List.mem_append.mp member
            · exact older.fresh ticket earlier
            · rw [List.mem_singleton.mp last]
              exact Nat.lt_succ_self _
      · split_ifs
        · exact cleaned conn env
        · exact sorted
      · exact sorted

theorem clean_served_iff {tickets : TimestampTickets} (sorted : TicketsSorted tickets)
    (conn : ConnId) (env : Env) :
    ServedInOrder (tickets.rsrc.waitings.map Prod.fst)
        ((rsrcClean ticketedManager (ticketsClock tickets.rsrc env.clock) conn
          env.sends).rsrc.data.log.drop
          tickets.rsrc.data.log.length) ↔
      cleanInTurn tickets.seen conn env := by
  have log := timestampManager.ticketed.clean_tickets Rc.ok
    (ticketsClock tickets.rsrc env.clock).data tickets.rsrc.waitings conn env.sends
  have kept : (ticketsClock tickets.rsrc env.clock).data.log = tickets.rsrc.data.log := rfl
  have state : (ticketsClock tickets.rsrc env.clock).data.state =
    (timestampSetClock tickets.seen env.clock).data := rfl
  simp only [rsrcClean, ticketedManager]
  rw [show (ticketsClock tickets.rsrc env.clock).waitings = tickets.rsrc.waitings from rfl, log,
    kept, state,
    List.drop_left]
  cases released : timestampManager.release (timestampSetClock tickets.seen env.clock).data
      conn with
  | none =>
    rw [Manager.clean_of_none timestampManager.ticketed _ _ _ _ _ released]
    refine iff_of_true (servedInOrder_nil _) fun freed found => ?_
    cases released.symm.trans found
  | some freed =>
    rw [Manager.clean_of_some timestampManager.ticketed _ _ freed _ _ _ released,
      scan_inOrder_iff _ Rc.ok freed tickets.rsrc.waitings env.sends sorted.sorted,
      inTurn_unticketed]
    constructor
    · intro turn other found
      rwa [← Option.some.inj (released.symm.trans found)]
    · intro turn
      exact turn freed released

theorem timeout_served_iff {tickets : TimestampTickets} (sorted : TicketsSorted tickets)
    (env : Env) :
    ticketsServed tickets (.timeout env) ↔ timestampInTurn tickets.seen (.timeout env) := by
  simp only [ticketsServed, ticketsGranted, ticketsStep, ticketsTimeout, timestampInTurn]
  have test : resourceTimestampCanLock (timestampSetClock tickets.seen env.clock).data =
      resourceTimestampCanLock (ticketsClock tickets.rsrc env.clock).data.state := rfl
  rw [test]
  split_ifs with empty can
  · rw [List.drop_length]
    refine iff_of_true (servedInOrder_nil _) fun _ => ?_
    simp only [TimestampTickets.seen, empty]
    trivial
  · have log := scan_tickets timestampManager.ticketed Rc.ok
      (ticketedManager.skip (ticketsClock tickets.rsrc env.clock).data (0, ⟨0, ()⟩))
        tickets.rsrc.waitings env.sends
    have kept : (ticketedManager.skip (ticketsClock tickets.rsrc env.clock).data (0, ⟨0, ()⟩)).log =
        tickets.rsrc.data.log := rfl
    rw [kept] at log
    simp only [rsrcWaitings, indexScan_eq_scan, can, true_imp_iff]
    rw [show ticketedManager = timestampManager.ticketed.logged ticketNotes from rfl] at *
    rw [show (ticketsClock tickets.rsrc env.clock).waitings = tickets.rsrc.waitings from rfl, log,
      List.drop_left,
      scan_inOrder_iff _ Rc.ok _ tickets.rsrc.waitings env.sends sorted.sorted, inTurn_unticketed]
    rfl
  · have kept : (ticketedManager.skip (ticketsClock tickets.rsrc env.clock).data (0, ⟨0, ()⟩)).log =
        tickets.rsrc.data.log := rfl
    rw [kept, List.drop_length]
    exact iff_of_true (servedInOrder_nil _) fun passed => absurd passed can

theorem lock_served_iff {tickets : TimestampTickets} (sorted : TicketsSorted tickets)
    (conn : ConnId) (lastStep : Int) (msg : Msg) (env : Env) (lock : msg.verb = .lock) :
    ticketsServed tickets (.call (.inmsg conn lastStep msg env)) ↔
      ((msgFree msg).1 = .ok → resourceTimestampCanLock
        (timestampSetClock tickets.seen env.clock).data = true →
        tickets.seen.waitings = []) := by
  have empty : tickets.seen.waitings = [] ↔ tickets.rsrc.waitings.map Prod.fst = [] := by
    simp [TimestampTickets.seen]
  simp only [ticketsServed, ticketsGranted, ticketsStep, lock]
  rw [rsrcLock_rsrc_eq, empty]
  split_ifs with taken enqueued
  · have log : (ticketedManager.take (ticketsClock tickets.rsrc env.clock).data
      (tickets.next, ⟨conn, ()⟩)).log =
        tickets.rsrc.data.log ++ [tickets.next] := rfl
    rw [log, List.drop_left, servedInOrder_newcomer sorted.fresh]
    exact ⟨fun none _ _ => none, fun none => none taken.1 taken.2⟩
  · have log : (ticketedManager.skip (ticketsClock tickets.rsrc env.clock).data
      (tickets.next, ⟨conn, ()⟩)).log =
        tickets.rsrc.data.log := rfl
    rw [log, List.drop_length]
    exact iff_of_true (servedInOrder_nil _) fun freed can => absurd ⟨freed, can⟩ taken
  · have log : (ticketedManager.skip (ticketsClock tickets.rsrc env.clock).data
      (tickets.next, ⟨conn, ()⟩)).log =
        tickets.rsrc.data.log := rfl
    rw [log, List.drop_length]
    exact iff_of_true (servedInOrder_nil _) fun freed can => absurd ⟨freed, can⟩ taken

theorem ticketsServed_iff (tickets : TimestampTickets) (call : TimestampCall)
    (sorted : TicketsSorted tickets) :
    ticketsServed tickets call ↔ timestampInTurn tickets.seen call := by
  cases call with
  | timeout env => exact timeout_served_iff sorted env
  | call served =>
    cases served with
    | clean conn env => exact clean_served_iff sorted conn env
    | inmsg conn lastStep msg env =>
      cases verb : msg.verb with
      | lock =>
        rw [lock_served_iff sorted conn lastStep msg env verb]
        simp [timestampInTurn, verb]
      | unlock =>
        have cleaned := clean_served_iff sorted conn env
        simp only [ticketsServed, ticketsGranted, ticketsStep, timestampInTurn, verb, true_imp_iff,
          reduceCtorEq,
          false_imp_iff, true_and]
        split_ifs with named
        · rw [cleaned]
          exact ⟨fun turn _ => turn, fun turn => turn named⟩
        · rw [List.drop_length]
          exact iff_of_true (servedInOrder_nil _) fun same => absurd same named
      | _ =>
        simp only [ticketsServed, ticketsGranted, ticketsStep, timestampInTurn, verb, reduceCtorEq,
          false_imp_iff,
          and_self, iff_true, List.drop_length]
        exact servedInOrder_nil _

theorem timestamp_queue_in_turn_iff (name : Name) (rsrc : TimestampRsrc)
    (started : resourceTimestampInit name = .ok rsrc) (calls : List TimestampCall) :
    Along ticketsStep ticketsServed (ticketsStart rsrc) calls ↔
    Along resourceTimestampStep timestampInTurn rsrc calls := by
  have start : (ticketsStart rsrc).seen = rsrc := by
    obtain ⟨rfl, empty⟩ := resourceTimestampInit_ok started
    rw [TimestampTickets.seen, ticketsStart, List.map_nil, ← empty]
  have sorted : TicketsSorted (ticketsStart rsrc) :=
    ⟨List.Pairwise.nil, fun ticket member => by cases member⟩
  have amounts : Along ticketsStep ticketsServed (ticketsStart rsrc) calls ↔
      Along resourceTimestampStep timestampInTurn (ticketsStart rsrc).seen calls :=
    along_view_iff TimestampTickets.seen ticketsStep_seen TicketsSorted ticketsStep_sorted
      ticketsServed_iff sorted
  rwa [start] at amounts

def patientLocks : List TimestampCall :=
  [lockAt 1 [⟨10, 0⟩, ⟨10, 5⟩], lockAt 2 [⟨10, 6⟩],
    .timeout { Env.fine with clock := [⟨10, 100000⟩, ⟨10, 100001⟩, ⟨10, 100002⟩] },
    lockAt 3 [⟨10, 100003⟩]]

theorem timestamp_queue_in_turn_iff_patient :
    Along ticketsStep ticketsServed (ticketsStart timestampTenths) patientLocks ↔
      Along resourceTimestampStep timestampInTurn timestampTenths patientLocks :=
  timestamp_queue_in_turn_iff timestampName timestampTenths (by decide) patientLocks

/-- The interval ends while one waits, and a LOCK arrives before the poll has timed out. -/
def hastyLocks : List TimestampCall :=
  [lockAt 1 [⟨10, 0⟩, ⟨10, 5⟩], lockAt 2 [⟨10, 6⟩], lockAt 3 [⟨10, 100000⟩, ⟨10, 100001⟩]]

theorem newcomer_overtakes_queue :
    let reached := run ticketsStep (ticketsStart timestampTenths) (hastyLocks.take 2)
    let arrival := lockAt 3 [⟨10, 100000⟩, ⟨10, 100001⟩]
    resourceTimestampInit timestampName = .ok timestampTenths ∧
      hastyLocks = hastyLocks.take 2 ++ [arrival] ∧
      reached.rsrc.waitings.map Prod.fst = [1] ∧ ticketsGranted reached arrival = [2] ∧
      ¬Along ticketsStep ticketsServed (ticketsStart timestampTenths) hastyLocks := by
  refine ⟨by decide, rfl, by decide, by decide, ?_⟩
  rintro ⟨_, _, served, _⟩
  cases served [] 2 [] (by decide) 1 (by decide) (by decide)

end Flom
