import Flom.LockerCalls
import Flom.ResourceKept

set_option autoImplicit false

namespace Flom

open Scan

section

variable {Data Wait : Type} {m : Manager Data Wait ConnId}

theorem scan_unfailed {data : Data} {queue : List Wait} {sends : List Rc} {client : ConnId}
    (unqueued : client ∉ queue.map m.conn) :
    ∀ waiter ∈ (scan m.toOps Rc.ok data queue sends).failed, m.conn waiter ≠ client := by
  intro waiter failed same
  have split := scan_queue_perm m.toOps Rc.ok data queue sends
  refine unqueued (same ▸ List.mem_map_of_mem (split.symm.subset ?_))
  simp [Option.mem_def.mp failed]

theorem rsrcClean_unfailed {rsrc : Rsrc Data Wait} {conn : ConnId} {sends : List Rc}
    {client : ConnId} (unqueued : client ∉ rsrc.waitings.map m.conn) :
    (rsrcClean m rsrc conn sends).failed.map m.conn ≠ some client := by
  intro failed
  obtain ⟨waiter, found, same⟩ := Option.map_eq_some_iff.mp failed
  rw [rsrcClean] at found
  cases released : m.release rsrc.data conn with
  | some freed =>
    rw [m.clean_of_some Rc.ok rsrc.data freed rsrc.waitings conn sends released] at found
    exact scan_unfailed unqueued waiter found same
  | none =>
    rw [m.clean_of_none Rc.ok rsrc.data rsrc.waitings conn sends released] at found
    cases found

variable {H : Type} (l : Ledger m H)
include l

theorem rsrcLock_untouched (request : Request Data Wait) (rsrc : Rsrc Data Wait) (lastStep : Int)
    (msg : Msg) {client : ConnId} (foreign : m.conn request.waiter ≠ client) :
    l.Untouched [] rsrc.data rsrc.waitings (rsrcLock m request rsrc lastStep msg).rsrc.data
      (rsrcLock m request rsrc lastStep msg).rsrc.waitings client := by
  have skipped : l.heldBy (m.skip rsrc.data request.waiter) client = l.heldBy rsrc.data client := by
    rw [Ledger.heldBy, l.skip_held, Ledger.heldBy]
  obtain same | ⟨can, same⟩ | ⟨_, same⟩ := rsrcLock_rsrc m request rsrc lastStep msg
  · rw [same]
    exact l.untouched_of_held rsrc.waitings (.of_eq skipped)
  · rw [same]
    refine l.untouched_of_held rsrc.waitings ?_
    simpa [foreign] using l.take_heldBy rsrc.data request.waiter client can
  · rw [same]
    constructor
    · simp [Ledger.grantedTo, skipped]
    · simp [Ledger.grantedTo, Ledger.waitingBy, foreign]

theorem rsrcWaitings_untouched {rsrc : Rsrc Data Wait} {sends : List Rc} {client : ConnId}
    (unqueued : client ∉ rsrc.waitings.map m.conn) :
    l.Untouched (rsrcWaitings m rsrc sends).granted rsrc.data rsrc.waitings
      (rsrcWaitings m rsrc sends).rsrc.data
        (rsrcWaitings m rsrc sends).rsrc.waitings client := by
  simp only [rsrcWaitings, indexScan_eq_scan]
  exact l.scan_untouched Rc.ok rsrc.data rsrc.waitings sends client (scan_unfailed unqueued)

end

section

variable {resource : Resource} {client : ConnId}

theorem resourceClean_unfailed {conn : ConnId} {env : Env} (unqueued : client ∉ resource.waiting) :
    (resourceClean resource conn env).failed ≠ some client := by
  cases resource with
  | simple rsrc | numeric rsrc | set rsrc | sequence rsrc => exact rsrcClean_unfailed unqueued
  | timestamp rsrc =>
    exact @rsrcClean_unfailed _ _ _ (timestampSetClock rsrc env.clock) _ _ _ unqueued
  | hier rsrc =>
    simp only [resourceClean, replyOfCleaned, resourceHierClean, hierCollect_failed]
    exact rsrcClean_unfailed unqueued

theorem resourceLock_kept {conn : ConnId} {lastStep : Int} {msg : Msg} {env : Env}
    (lock : msg.verb = .lock) (foreign : conn ≠ client) :
    resource.Kept (resourceInmsg resource conn lastStep msg env).resource client := by
  cases resource with
  | simple rsrc =>
    simp only [resourceInmsg, resourceSimpleInmsg, lock]
    exact ⟨[], rsrcLock_untouched simpleLedger _ rsrc lastStep msg foreign⟩
  | numeric rsrc =>
    simp only [resourceInmsg, resourceNumericInmsg, lock]
    exact ⟨[], rsrcLock_untouched numericLedger _ rsrc lastStep msg foreign⟩
  | set rsrc =>
    simp only [resourceInmsg, resourceSetInmsg, lock]
    exact ⟨[], rsrcLock_untouched setLedger _ rsrc lastStep msg foreign⟩
  | hier rsrc =>
    cases named : msg.lock8.name with
    | none =>
      simp only [resourceInmsg, resourceHierInmsg, lock, named, answerOfInmsg, inmsgError]
      exact Resource.kept_refl _ client
    | some name =>
      simp only [resourceInmsg, resourceHierInmsg, lock, named]
      exact ⟨[], rsrcLock_untouched (hierLedger rsrc.name) _ rsrc lastStep msg foreign⟩
  | sequence rsrc =>
    simp only [resourceInmsg, resourceSequenceInmsg, lock]
    exact ⟨[], rsrcLock_untouched sequenceLedger _ rsrc lastStep msg foreign⟩
  | timestamp rsrc =>
    simp only [resourceInmsg, resourceTimestampInmsg, lock]
    have same := rsrcLock_untouched timestampLedger
      ⟨⟨conn, ()⟩, decide (msg.lock8.wait ≠ 0), .lockBusy, fun data =>
        some (timestampElement env.strftime data)⟩
      (timestampSetClock rsrc env.clock) lastStep msg foreign
    exact ⟨[], same.held, same.waiting⟩

theorem resourceTimeout_kept {env : Env} (unqueued : client ∉ resource.waiting) :
    resource.Kept (resourceTimeout resource env).resource client := by
  cases resource with
  | timestamp rsrc =>
    let looked : TimestampRsrc := { timestampSetClock rsrc env.clock with
      data := timestampManager.skip (timestampSetClock rsrc env.clock).data ⟨0, ()⟩ }
    have looking : timestampLedger.heldBy looked.data client =
        timestampLedger.heldBy rsrc.data client := by
      rw [Ledger.heldBy, timestampLedger.skip_held]
      rfl
    simp only [resourceTimeout, replyOfCleaned, resourceTimestampTimeout]
    split
    · exact Resource.kept_refl _ client
    · split
      · have served := @rsrcWaitings_untouched _ _ _ _ timestampLedger looked env.sends client
          unqueued
        exact ⟨_, looking ▸ served.held, served.waiting⟩
      · exact ⟨[], timestampLedger.untouched_of_held rsrc.waitings (.of_eq looking)⟩
  | simple rsrc | numeric rsrc | set rsrc | hier rsrc | sequence rsrc =>
    exact Resource.kept_refl _ client

theorem resourceCall_kept {call : LockerCall} (foreign : client ∉ call.conns)
    (unqueued : client ∉ resource.waiting) :
    resource.Kept (resourceCall resource call) client ∧
    client ∉ (resourceCall resource call).waiting := by
  cases call with
  | inmsg conn lastStep msg env =>
    have other : conn ≠ client := fun same => foreign (by simp [LockerCall.conns, same])
    refine ⟨?_, fun queued => ?_⟩
    · by_cases lock : msg.verb = .lock
      · exact resourceLock_kept lock other
      · obtain ⟨target, _, accepted, law⟩ | ⟨rc, _, law⟩ :=
          resourceInmsg_unlocked resource conn lastStep msg env lock
        · rw [resourceCall, law, answerOfReply_resource]
          have still : client ∉ target.waiting := by rwa [unlocking_waiting accepted]
          exact (unlocking_kept client accepted).trans
            (resourceClean_kept target conn client env other (resourceClean_unfailed still))
        · rw [resourceCall, law]
          exact resource.kept_refl client
    · obtain rfl | before := List.mem_cons.mp
        ((resourceInmsg_serves resource conn lastStep msg env).2 queued)
      · exact other rfl
      · exact unqueued before
  | clean conn env =>
    have other : conn ≠ client := fun same => foreign (by simp [LockerCall.conns, same])
    exact ⟨resourceClean_kept resource conn client env other (resourceClean_unfailed unqueued),
      fun queued => unqueued ((resourceClean_serves resource conn env).waiting queued)⟩
  | timeout env =>
    exact ⟨resourceTimeout_kept unqueued, fun queued =>
      unqueued ((resourceTimeout_serves resource env).waiting queued)⟩

theorem resourceCalls_kept {calls : List LockerCall} (foreign : ∀ call ∈ calls, client ∉ call.conns)
    (unqueued : client ∉ resource.waiting) :
    resource.Kept (Run.run resourceCall resource calls) client ∧
      client ∉ (Run.run resourceCall resource calls).waiting := by
  induction calls generalizing resource with
  | nil => exact ⟨resource.kept_refl client, unqueued⟩
  | cons call rest ih =>
    obtain ⟨kept, still⟩ := resourceCall_kept (foreign call List.mem_cons_self) unqueued
    obtain ⟨later, after⟩ := ih (fun other member =>
      foreign other (List.mem_cons_of_mem call member)) still
    exact ⟨kept.trans later, after⟩

end

def Locker.serves (locker : Locker) (client : ConnId) : Prop :=
  ∃ conn ∈ locker.conns, conn.id = client ∧ conn.state ≠ .remove

def Ready.silent (ready : Ready) : Prop := ready.err = false ∧ ready.pollin = false ∧
    ready.hup = false

def Locker.Beside (id : Nat) (before after : Locker) : Prop :=
  ∀ position conn, position ≠ id → before.conns[position]? = some conn →
    after.conns[position]? = some conn

section

variable {locker : Locker} {id : Nat} {ready : Ready}

theorem Locker.Beside.trans {first second third : Locker} (before : first.Beside id second)
    (after : second.Beside id third) : first.Beside id third :=
  fun position conn other present => after position conn other (before position conn other present)

theorem Locker.beside_refl (id : Nat) (locker : Locker) : locker.Beside id locker :=
  fun _ _ _ present => present

theorem Locker.beside_set {before after : Locker} {conn : Conn}
    (same : after.conns = before.conns.set id conn) :
    before.Beside id after := by
  intro position other behind present
  rw [same, List.getElem?_set_ne (Ne.symm behind)]
  exact present

theorem lockerProcess_beside (conn : Conn) :
    locker.Beside id (lockerProcess locker id conn ready).locker := by
  by_cases request : conn.msg.verb = .lock ∨ conn.msg.verb = .unlock
  · obtain ⟨conn', mail, _, _, _, after⟩ := lockerProcess_locker locker id conn ready request
    rw [after]
    exact Locker.beside_set rfl
  · rw [lockerProcess, if_neg request]
    exact locker.beside_refl id

theorem lockerClose_beside (closed : Bool) : locker.Beside id (lockerClose locker id closed).2 := by
  simp only [lockerClose, connsCloseFd]
  split
  · exact Locker.beside_set rfl
  · exact locker.beside_refl id

theorem lockerHandover_beside : locker.Beside id (lockerHandover locker ready).locker := by
  unfold lockerHandover
  split
  · next handed _ =>
    intro position conn _ present
    have bound := (List.getElem?_eq_some_iff.mp present).1
    refine lockerProcess_beside handed position conn (Nat.ne_of_lt bound) ?_
    rw [List.getElem?_append_left bound]
    exact present
  · exact locker.beside_refl id

theorem lockerData_beside (conn : Conn) (rc : Rc) (msg : Msg) :
    locker.Beside id (lockerData locker id conn rc msg ready).locker := by
  have stepped (after : Conn) : locker.Beside id (locker.setConn id after) := Locker.beside_set rfl
  unfold lockerData
  dsimp only
  split_ifs
  · exact ((stepped _).trans (lockerClose_beside ready.closed)).trans (lockerProcess_beside _)
  · exact (stepped _).trans (lockerClose_beside ready.closed)
  · exact (stepped _).trans (lockerProcess_beside _)
  · exact stepped _

theorem lockerLoopPollin_beside : locker.Beside id (lockerLoopPollin locker id ready).locker := by
  unfold lockerLoopPollin
  split
  · exact locker.beside_refl id
  · next conn _ =>
    have woken : locker.Beside id { locker with idlePeriods := 0 } := fun _ _ _ present => present
    dsimp only
    split_ifs
    · exact woken.trans lockerHandover_beside
    · split
      · exact woken
      · exact woken.trans (lockerData_beside conn _ _)

theorem lockerDisconnect_beside : locker.Beside id (lockerDisconnect locker id ready).locker := by
  have closed := @lockerClose_beside locker id ready.closed
  unfold lockerDisconnect
  split
  · dsimp only
    split <;> exact closed
  · exact locker.beside_refl id

theorem lockerHup_beside : locker.Beside id (lockerHup locker id ready).locker := by
  unfold lockerHup
  split_ifs
  · exact lockerClose_beside ready.closed
  · exact lockerDisconnect_beside
  · exact locker.beside_refl id

theorem lockerServe_beside : locker.Beside id (lockerServe locker id ready).locker := by
  unfold lockerServe
  dsimp only
  split_ifs
  · exact lockerDisconnect_beside
  · exact lockerLoopPollin_beside
  · exact lockerLoopPollin_beside.trans lockerHup_beside
  · exact lockerLoopPollin_beside.trans lockerDisconnect_beside
  · exact lockerHup_beside

theorem lockerServe_silent (silent : ready.silent) :
    lockerServe locker id ready = ⟨.next, locker⟩ ∧ lockerServeCalls locker id ready = [] := by
  obtain ⟨err, pollin, hup⟩ := silent
  simp [lockerServe, lockerServeCalls, lockerHup, lockerHupCalls, err, pollin, hup]

def Locker.addressed (locker : Locker) (id : Nat) (ready : Ready) : List ConnId :=
  (locker.conns[id]?.toList ++ locker.admits id ready).map Conn.id

theorem lockerProcessCalls_conns {conn : Conn} {call : LockerCall}
    (member : call ∈ lockerProcessCalls conn ready) :
    call.conns = [conn.id] := by
  unfold lockerProcessCalls at member
  split_ifs at member
  · obtain rfl := List.mem_singleton.mp member
    rfl
  · cases member

theorem lockerDisconnectCalls_conns {call : LockerCall}
    (member : call ∈ lockerDisconnectCalls locker id ready) :
    call.conns = locker.conns[id]?.toList.map Conn.id := by
  unfold lockerDisconnectCalls at member
  split at member
  · next conn present =>
    split_ifs at member
    · obtain rfl := List.mem_singleton.mp member
      simp [LockerCall.conns, present]
    · cases member
  · cases member

theorem lockerHupCalls_conns {call : LockerCall} (member : call ∈ lockerHupCalls locker id ready) :
    call.conns = locker.conns[id]?.toList.map Conn.id := by
  unfold lockerHupCalls at member
  split_ifs at member
  · cases member
  · exact lockerDisconnectCalls_conns member
  · cases member

theorem lockerLoopPollinCalls_conns {call : LockerCall} (quiet : ready.err = false)
    (pollin : ready.pollin = true) (member : call ∈ lockerLoopPollinCalls locker id ready) :
    call.conns ⊆ locker.addressed id ready := by
  unfold lockerLoopPollinCalls at member
  split at member
  · cases member
  · next conn present =>
    have here : conn.id ∈ locker.addressed id ready := by simp [Locker.addressed, present]
    have mine : ∀ {other : Conn}, other.id = conn.id → call ∈ lockerProcessCalls other ready →
        call.conns ⊆ locker.addressed id ready := by
      intro other same calls
      rw [lockerProcessCalls_conns calls, same]
      exact List.cons_subset.mpr ⟨here, List.nil_subset _⟩
    split_ifs at member with first
    · unfold lockerHandoverCalls lockerRead at member
      split at member
      · next handed read =>
        split_ifs at read with control
        rw [lockerProcessCalls_conns member]
        refine List.cons_subset.mpr ⟨?_, List.nil_subset _⟩
        simp [Locker.addressed, Locker.admits, first, quiet, pollin, control, read]
      · cases member
    · split at member
      · cases member
      · unfold lockerDataCalls at member
        dsimp only at member
        split_ifs at member
        · refine mine ?_ member
          rw [connTerminate_id]
        · cases member
        · refine mine ?_ member
          rfl
        · cases member

theorem lockerServeCalls_conns {call : LockerCall}
    (member : call ∈ lockerServeCalls locker id ready) :
    call.conns ⊆ locker.addressed id ready := by
  have front : locker.conns[id]?.toList.map Conn.id ⊆ locker.addressed id ready := by
    rw [Locker.addressed, List.map_append]
    exact List.subset_append_left _ _
  unfold lockerServeCalls at member
  dsimp only at member
  by_cases err : ready.err = true
  · rw [if_pos err] at member
    rw [lockerDisconnectCalls_conns member]
    exact front
  · rw [if_neg err] at member
    have quiet : ready.err = false := by simpa using err
    by_cases pollin : ready.pollin = true
    · rw [if_pos pollin] at member
      have seated := (@lockerLoopPollin_seats locker id ready quiet pollin).ids
      have polled : (lockerLoopPollin locker id ready).locker.conns[id]?.toList.map Conn.id ⊆
          locker.addressed id ready := by
        have same : (lockerLoopPollin locker id ready).locker.conns[id]?.map Conn.id =
            (locker.admitting id ready).conns[id]?.map Conn.id := by
          rw [← List.getElem?_map, seated, List.getElem?_map]
        rw [← Option.toList_map, same, Option.toList_map, Locker.addressed]
        refine List.map_subset Conn.id fun conn found => ?_
        have found := Option.mem_toList.mp found
        rw [Locker.admitting, List.getElem?_append] at found
        split_ifs at found
        · exact List.mem_append_left _ (Option.mem_toList.mpr found)
        · exact List.mem_append_right _ (List.mem_of_getElem? found)
      obtain first | later := List.mem_append.mp member
      · exact lockerLoopPollinCalls_conns quiet pollin first
      · split_ifs at later
        · cases later
        · rw [lockerHupCalls_conns later]
          exact polled
        · rw [lockerDisconnectCalls_conns later]
          exact polled
    · rw [if_neg pollin] at member
      rw [lockerHupCalls_conns member]
      exact front

def Locker.hushed (client : ConnId) (locker : Locker) (id : Nat) (revents : List Ready) : Prop :=
  ∀ position conn ready, locker.conns[id + position]? = some conn → conn.id = client →
    revents[position]? = some ready → ready.silent

variable {client : ConnId} {revents : List Ready}

theorem hushed_tail {after : Locker} {rest : List Ready}
    (bound : id + (rest.length + 1) ≤ locker.conns.length)
    (seats : (locker.admitting id ready).Seats after)
    (hushed : locker.hushed client id (ready :: rest)) :
    after.hushed client (id + 1) rest := by
  intro position conn later present same entry
  have place := (List.getElem?_eq_some_iff.mp entry).1
  have ids : after.conns[id + 1 + position]?.map Conn.id =
      locker.conns[id + 1 + position]?.map Conn.id := by
    rw [← List.getElem?_map, seats.ids, List.getElem?_map, Locker.admitting,
      List.getElem?_append_left (by omega)]
  rw [present] at ids
  obtain ⟨old, standing, equal⟩ := Option.map_eq_some_iff.mp ids.symm
  exact hushed (position + 1) old later (by rwa [Nat.add_comm position, ← Nat.add_assoc])
    (equal.trans same) entry

theorem lockerScan_spares (bound : id + revents.length ≤ locker.conns.length)
    (hushed : locker.hushed client id revents)
    (joins : ∀ first ∈ revents.head?, ∀ conn ∈ locker.admits id first, conn.id ≠ client) :
    (∀ call ∈ lockerScanCalls locker id revents, client ∉ call.conns) ∧
      (locker.serves client → (lockerScan locker id revents).running = true →
        (lockerScan locker id revents).serves client) := by
  induction revents generalizing locker id with
  | nil => exact ⟨by simp [lockerScanCalls], fun serves _ => serves⟩
  | cons ready rest ih =>
    rw [List.length_cons] at bound
    have seats := lockerServe_seats locker id ready
    have beside := @lockerServe_beside locker id ready
    have longer : locker.conns.length ≤ (lockerServe locker id ready).locker.conns.length := by
      rw [← seats.conns.length_eq, Locker.admitting, List.length_append]
      omega
    have calm := hushed_tail bound seats hushed
    have here : id < locker.conns.length := by omega
    have calls : ∀ call ∈ lockerServeCalls locker id ready, client ∉ call.conns := by
      intro call member mine
      obtain ⟨conn, inside, same⟩ := List.mem_map.mp (lockerServeCalls_conns member mine)
      obtain own | joined := List.mem_append.mp inside
      · have silent := hushed 0 conn ready (Option.mem_toList.mp own) same rfl
        rw [(lockerServe_silent silent).2] at member
        cases member
      · exact joins ready rfl conn joined same
    have stays : locker.serves client → (lockerServe locker id ready).locker.serves client := by
      rintro ⟨conn, member, same, alive⟩
      obtain ⟨position, found⟩ := List.mem_iff_getElem?.mp member
      by_cases own : position = id
      · subst own
        rw [(lockerServe_silent (hushed 0 conn ready found same rfl)).1]
        exact ⟨conn, member, same, alive⟩
      · exact ⟨conn, List.mem_of_getElem? (beside position conn own found), same, alive⟩
    rw [lockerScan, lockerScanCalls]
    generalize lockerServe locker id ready = reached at calm longer stays
    obtain ⟨flow, after⟩ := reached
    cases flow with
    | next =>
      obtain ⟨later, kept⟩ := @ih after (id + 1) (by dsimp only at longer; omega) calm
        (fun first _ conn member => by simp [Locker.admits] at member)
      refine ⟨fun call member => ?_, fun serves runs => kept (stays serves) runs⟩
      exact (List.mem_append.mp member).elim (calls call) (later call)
    | again => exact ⟨by simpa using calls, fun serves _ => stays serves⟩
    | leave => exact ⟨by simpa using calls, fun _ runs => by cases runs⟩

structure Locker.Quiet (client : ConnId) (locker : Locker) (event : PollEvent) : Prop where
  hushed : ∀ revents, event = .ready revents → locker.cleaned.hushed client 0 revents
  joins : ∀ conn ∈ locker.cleaned.admitted event, conn.id ≠ client

theorem lockerStep_spares {event : PollEvent} (quiet : locker.Quiet client event) :
    (∀ call ∈ lockerStepCalls locker event, client ∉ call.conns) ∧
      (locker.serves client → (lockerStep locker event).running = true →
        (lockerStep locker event).serves client) := by
  have kept : locker.serves client → locker.cleaned.serves client :=
      fun ⟨conn, member, same, alive⟩ =>
    ⟨conn, mem_connsClean.mpr ⟨member, alive⟩, same, alive⟩
  have left (gone : Locker) (runs : gone.leave.running = true) : gone.leave.serves client := by
    cases runs
  unfold lockerStep lockerStepCalls
  split_ifs with running none polls
  · exact ⟨by simp, fun _ runs => left _ runs⟩
  · cases event with
    | failed => exact ⟨by simp [lockerPollCalls], fun _ runs => left _ runs⟩
    | timeout env =>
      refine ⟨by simp [lockerPollCalls, LockerCall.conns], fun serves runs => ?_⟩
      simp only [lockerPoll] at runs ⊢
      split_ifs at runs ⊢
      · exact kept serves
      · exact kept serves
      · exact left _ runs
    | ready revents =>
      have spared := @lockerScan_spares locker.cleaned 0 client
        (revents.take locker.cleaned.conns.length) (by simp) ?_ ?_
      · exact ⟨spared.1, fun serves => spared.2 (kept serves)⟩
      · intro position conn ready present same entry
        refine quiet.hushed revents rfl position conn ready present same ?_
        rw [List.getElem?_take] at entry
        split_ifs at entry
        exact entry
      · intro first head
        cases revents with
        | nil => simp at head
        | cons other rest =>
          obtain ⟨count, length⟩ := Nat.exists_eq_add_one_of_ne_zero fun zero =>
            none (List.length_eq_zero_iff.mp zero)
          rw [length, List.take_succ_cons, List.head?_cons] at head
          obtain rfl := Option.some.inj head
          exact quiet.joins
  · exact ⟨by simp, fun _ runs => left _ runs⟩
  · exact ⟨by simp, fun serves _ => serves⟩

theorem lockerStep_kept {event : PollEvent} (quiet : locker.Quiet client event)
    (unqueued : client ∉ locker.resource.waiting) :
    locker.resource.Kept (lockerStep locker event).resource client ∧
      client ∉ (lockerStep locker event).resource.waiting := by
  have called := @lockerStep_called
    (locker.conns.map Conn.id ++ (locker.cleaned.admitted event).map Conn.id) locker event
    (fun conn member => List.mem_append_left _ (List.mem_map_of_mem member))
    (fun conn member => List.mem_append_right _ (List.mem_map_of_mem member))
  rw [called.resource]
  exact resourceCalls_kept (lockerStep_spares quiet).1 unqueued

end

end Flom
