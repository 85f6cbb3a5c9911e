import Flom.Lib.Decimal
import Flom.TimestampClock

set_option autoImplicit false

namespace Flom

open Scan Run

def stampText (strftime : Name → Int → Name) (format : Name) (stamp : Timeval) : Name :=
  strftime (timestampFormat format stamp.usec) stamp.sec

def grantedTexts (env : Env) (granted : List (TimestampData × ConnLock Unit)) : List Name :=
  granted.map fun grant => timestampElement env.strftime grant.1

def timestampSent (rsrc : TimestampRsrc) : TimestampCall → List Name
  | .call (.inmsg conn lastStep msg env) =>
    let reply := resourceTimestampInmsg rsrc conn lastStep msg env
    if msg.verb = .lock then
      if reply.rc = .ok then (msgAnswer reply.msg).element.toList else []
    else grantedTexts env reply.granted
  | .call (.clean conn env) => grantedTexts env (resourceTimestampClean rsrc conn env).granted
  | .timeout env => grantedTexts env (resourceTimestampTimeout rsrc env).granted

def timestampSentAlong : TimestampRsrc → List TimestampCall → List Name
  | _, [] => []
  | rsrc, call :: rest =>
    timestampSent rsrc call ++ timestampSentAlong (resourceTimestampStep rsrc call) rest

section

variable {strftime : Name → Int → Name} {format : Name}

theorem format_preserved (format : Name) :
    Preserved timestampManager.toOps (fun data => data.format = format) fun _ => True where
  take data waiter same _ _ := same
  fail data waiter same _ _ := same
  skip data waiter same := by
    simp only [timestampManager]
    split <;> exact same

theorem format_release (data : TimestampData) (conn : ConnId) (freed : TimestampData)
    (same : data.format = format) (released : timestampManager.release data conn = some freed) :
    freed.format = format := by
  obtain ⟨_, _, rfl⟩ := Option.map_eq_some_iff.mp released
  exact same

theorem grantedTexts_eq {env : Env} {granted : List (TimestampData × ConnLock Unit)}
    (clock : env.strftime = strftime) (same : ∀ grant ∈ granted, grant.1.format = format) :
    grantedTexts env granted =
      (granted.flatMap fun grant => timestampNotes.take grant.1 grant.2).map
        (stampText strftime format) := by
  induction granted with
  | nil => rfl
  | cons grant rest ih =>
    rw [List.forall_mem_cons] at same
    rw [List.flatMap_cons, List.map_append, ← ih same.2, ← same.1, ← clock]
    rfl

theorem waitings_texts {rsrc : TimestampHistory} {env : Env} (clock : env.strftime = strftime)
    (same : rsrc.data.state.format = format) :
    ∃ stamps,
      (rsrcWaitings timestampLogged rsrc env.sends).rsrc.data.log = rsrc.data.log ++ stamps ∧
      (grantedTexts env (resourceTimestampWaitings rsrc.unlogged env.sends).granted).Sublist
        (stamps.map (stampText strftime format)) := by
  obtain ⟨stamps, log, listed⟩ := scan_logged_granted timestampManager timestampNotes Rc.ok
    rsrc.data rsrc.waitings env.sends
  have formats := scan_granted_preserved (format_preserved format) Rc.ok rsrc.data.state
    rsrc.waitings env.sends same fun _ _ => trivial
  simp only [resourceTimestampWaitings, rsrcWaitings, indexScan_eq_scan]
  refine ⟨stamps, log, ?_⟩
  have texts := listed.map (stampText strftime format)
  rw [← grantedTexts_eq clock formats] at texts
  exact texts

theorem clean_texts {rsrc : TimestampHistory} {conn : ConnId} {env : Env}
    (clock : env.strftime = strftime) (same : rsrc.data.state.format = format) :
    ∃ stamps,
      (rsrcClean timestampLogged (historyClock rsrc env.clock) conn env.sends).rsrc.data.log =
        rsrc.data.log ++ stamps ∧
      (grantedTexts env (resourceTimestampClean rsrc.unlogged conn env).granted).Sublist
        (stamps.map (stampText strftime format)) := by
  obtain ⟨stamps, log, listed⟩ := timestampManager.clean_logged_granted timestampNotes Rc.ok
    (historyClock rsrc env.clock).data rsrc.waitings conn env.sends
  refine ⟨stamps, log, ?_⟩
  have formats : ∀ grant ∈ (resourceTimestampClean rsrc.unlogged conn env).granted,
      grant.1.format = format := by
    simp only [resourceTimestampClean, rsrcClean]
    cases released : timestampManager.release
        (timestampSetClock rsrc.unlogged env.clock).data conn with
    | none =>
      rw [Manager.clean_of_none _ _ _ _ _ _ released]
      simp
    | some freed =>
      rw [Manager.clean_of_some _ _ _ _ _ _ _ released]
      exact scan_granted_preserved (format_preserved format) Rc.ok freed rsrc.waitings env.sends
        (format_release (timestampSetClock rsrc.unlogged env.clock).data conn freed same released)
          fun _ _ => trivial
  rw [grantedTexts_eq clock formats]
  exact listed.map _

theorem lock_texts {rsrc : TimestampHistory} {conn : ConnId} {lastStep : Int} {msg : Msg}
    {env : Env} (clock : env.strftime = strftime) (same : rsrc.data.state.format = format)
    (lock : msg.verb = .lock) :
    ∃ stamps,
      (timestampHistoryStep rsrc (.call (.inmsg conn lastStep msg env))).data.log =
        rsrc.data.log ++ stamps ∧
      (timestampSent rsrc.unlogged (.call (.inmsg conn lastStep msg env))).Sublist
        (stamps.map (stampText strftime format)) := by
  let request : Request TimestampData (ConnLock Unit) :=
    ⟨⟨conn, ()⟩, msg.lock8.wait ≠ 0, .lockBusy, fun data =>
      some (timestampElement env.strftime data)⟩
  let started := timestampSetClock rsrc.unlogged env.clock
  simp only [timestampHistoryStep, timestampSent, resourceTimestampInmsg, lock, if_true]
  rw [rsrcLock_rsrc_eq]
  by_cases taken : (msgFree msg).1 = .ok ∧ resourceTimestampCanLock started.data = true
  · refine ⟨[timestampNow (timestampTick started.data)], ?_, ?_⟩
    · rw [if_pos (show (msgFree msg).1 = .ok ∧
        timestampLogged.can (historyClock rsrc env.clock).data ⟨conn, ()⟩ = true from taken)]
      rfl
    · split_ifs with answered
      · obtain ⟨_, element⟩ := @rsrcLock_element _ _ _ request started _ _ answered
        rw [element, if_pos (show timestampManager.can started.data request.waiter =
          true from taken.2), ← clock, ← same]
        exact List.Sublist.refl _
      · exact List.nil_sublist _
  · refine ⟨[], ?_, ?_⟩
    · rw [if_neg (show ¬((msgFree msg).1 = .ok ∧
        timestampLogged.can (historyClock rsrc env.clock).data ⟨conn, ()⟩ = true) from taken),
        List.append_nil]
      split_ifs <;> rfl
    · split_ifs with answered
      · obtain ⟨freed, element⟩ := @rsrcLock_element _ _ _ request started _ _ answered
        rw [element, if_neg fun can : timestampManager.can started.data request.waiter = true =>
          taken ⟨freed, can⟩]
        exact List.Sublist.refl _
      · exact List.nil_sublist _

theorem timeout_texts {rsrc : TimestampHistory} {env : Env} (clock : env.strftime = strftime)
    (same : rsrc.data.state.format = format) :
    ∃ stamps, (timestampHistoryTimeout rsrc env).data.log = rsrc.data.log ++ stamps ∧
      (grantedTexts env (resourceTimestampTimeout rsrc.unlogged env).granted).Sublist
        (stamps.map (stampText strftime format)) := by
  let started := historyClock rsrc env.clock
  let looked := { started with data := timestampLogged.skip started.data ⟨0, ()⟩ }
  unfold timestampHistoryTimeout resourceTimestampTimeout
  by_cases empty : rsrc.waitings = []
  · rw [if_pos empty, if_pos (show rsrc.unlogged.waitings = [] from empty)]
    exact ⟨[], (List.append_nil _).symm, List.nil_sublist _⟩
  · rw [if_neg empty, if_neg (show ¬rsrc.unlogged.waitings = [] from empty)]
    by_cases can : resourceTimestampCanLock started.data.state = true
    · rw [if_pos can, if_pos (show resourceTimestampCanLock
        (timestampSetClock rsrc.unlogged env.clock).data = true from can)]
      exact @waitings_texts _ _ looked _ clock ((format_preserved format).skip _ ⟨0, ()⟩ same)
    · rw [if_neg can, if_neg (show ¬resourceTimestampCanLock
        (timestampSetClock rsrc.unlogged env.clock).data = true from can)]
      exact ⟨[], (List.append_nil _).symm, List.nil_sublist _⟩

theorem unlock_texts {rsrc : TimestampHistory} {conn : ConnId} {lastStep : Int} {msg : Msg}
    {env : Env} (clock : env.strftime = strftime) (same : rsrc.data.state.format = format)
    (unlock : msg.verb = .unlock) :
    ∃ stamps,
      (timestampHistoryStep rsrc (.call (.inmsg conn lastStep msg env))).data.log =
        rsrc.data.log ++ stamps ∧
      (timestampSent rsrc.unlogged (.call (.inmsg conn lastStep msg env))).Sublist
        (stamps.map (stampText strftime format)) := by
  simp only [timestampHistoryStep, timestampSent, resourceTimestampInmsg, unlock, rsrcUnlock]
  by_cases named : some rsrc.name = msg.unlock8.name
  · rw [if_pos named, if_pos (show some rsrc.unlogged.name = msg.unlock8.name from named),
      inmsgOfCleaned_granted]
    exact clean_texts clock same
  · rw [if_neg named, if_neg (show ¬some rsrc.unlogged.name = msg.unlock8.name from named)]
    exact ⟨[], (List.append_nil _).symm, List.nil_sublist _⟩

theorem timestampSent_logged {rsrc : TimestampHistory} {call : TimestampCall}
    (clock : call.env.strftime = strftime) (same : rsrc.data.state.format = format) :
    ∃ stamps, (timestampHistoryStep rsrc call).data.log = rsrc.data.log ++ stamps ∧
      (timestampSent rsrc.unlogged call).Sublist (stamps.map (stampText strftime format)) := by
  cases call with
  | timeout env => exact timeout_texts clock same
  | call served =>
    cases served with
    | clean conn env => exact clean_texts clock same
    | inmsg conn lastStep msg env =>
      cases verb : msg.verb with
      | lock => exact lock_texts clock same verb
      | unlock => exact unlock_texts clock same verb
      | _ =>
        refine ⟨[], ?_, ?_⟩
        · simp [timestampHistoryStep, verb]
        · simp only [timestampSent, verb, resourceTimestampInmsg]
          exact List.Sublist.refl _

theorem format_step {rsrc : TimestampRsrc} (call : TimestampCall)
    (same : rsrc.data.format = format) :
    (resourceTimestampStep rsrc call).data.format = format :=
  timestampStep_preserved (format_preserved format) (fun _ _ _ => format_release _ _ _)
    (fun _ _ kept => kept) rsrc call same

theorem timestampSentAlong_logged {rsrc : TimestampHistory} {calls : List TimestampCall}
    (clock : ∀ call ∈ calls, call.env.strftime = strftime)
    (same : rsrc.data.state.format = format) :
    ∃ stamps, (run timestampHistoryStep rsrc calls).data.log = rsrc.data.log ++ stamps ∧
      (timestampSentAlong rsrc.unlogged calls).Sublist
        (stamps.map (stampText strftime format)) := by
  induction calls generalizing rsrc with
  | nil => exact ⟨[], (List.append_nil _).symm, List.Sublist.refl _⟩
  | cons call rest ih =>
    rw [List.forall_mem_cons] at clock
    have step := timestampHistoryStep_unlogged rsrc call
    have kept : (timestampHistoryStep rsrc call).data.state.format = format := by
      have reached := @format_step _ rsrc.unlogged call same
      rwa [← step] at reached
    obtain ⟨here, log, sent⟩ := timestampSent_logged clock.1 same
    obtain ⟨later, logs, texts⟩ := ih clock.2 kept
    refine ⟨here ++ later, ?_, ?_⟩
    · rw [← List.append_assoc, ← log]
      exact logs
    · rw [List.map_append, timestampSentAlong, ← step]
      exact sent.append texts

end

structure ClockForward (strftime : Name → Int → Name) (rsrc : TimestampRsrc)
    (calls : List TimestampCall) : Prop where
  counted : ∀ reading ∈ clockReadings calls, reading.Counted
  order : (clockReadings calls).Pairwise fun first second => first.micros ≤ second.micros
  supplied : Along resourceTimestampStep clockSupplied rsrc calls
  zone : ∀ call ∈ calls, call.env.strftime = strftime

def TextsDiffer (strftime : Name → Int → Name) (rsrc : TimestampRsrc) : Prop :=
  ∀ calls, ClockForward strftime rsrc calls → (timestampSentAlong rsrc calls).IsChain (· ≠ ·)

/-- From some second on, the text tells the intervals apart; with a grain of seconds no stamp lies
in the first one. -/
def TextSeparates (strftime : Name → Int → Name) (format : Name) (interval : Timeval)
    (start : Int) : Prop :=
  ∀ earlier later : Timeval, earlier.Normalized → later.Normalized → start ≤ earlier.sec →
    (interval.usec = 0 → 0 < Timeval.roundDown interval earlier) →
    Timeval.roundDown interval earlier < Timeval.roundDown interval later →
    stampText strftime format earlier ≠ stampText strftime format later

theorem separates_differ {strftime : Name → Int → Name} {name : Name} {rsrc : TimestampRsrc}
    (started : resourceTimestampInit name = .ok rsrc)
    (separates : TextSeparates strftime rsrc.data.format rsrc.data.interval 0) :
    TextsDiffer strftime rsrc := by
  intro calls clock
  obtain ⟨grain, forward⟩ := forward_init started clock.counted clock.order
  have reached := forward_run grain forward clock.supplied
  obtain ⟨stamps, log, texts⟩ := @timestampSentAlong_logged _ _ rsrc.logging _ clock.zone rfl
  obtain rfl : (run timestampHistoryStep rsrc.logging calls).data.log = stamps := log
  have increasing := List.isChain_iff_pairwise.mp reached.increasing
  have different := increasing.imp_of_mem fun {earlier later} first second after =>
    separates earlier later (reached.stamps earlier first).normal
      (reached.stamps later second).normal (reached.stamps earlier first).epoch
      (fun seconds => reached.counted seconds earlier first) after
  exact ((List.pairwise_map.mpr different).sublist texts).isChain

theorem canLock_of_slot {data : TimestampData} (grain : Grain data.interval)
    (last : data.lastTimestamp.Normalized) (now : (timestampNow data).Normalized)
    (counted : data.interval.usec = 0 → 0 ≤ data.lastTimestamp.sec)
    (slots : timestampSlots data = true)
    (after : Timeval.roundDown data.interval data.lastTimestamp <
      Timeval.roundDown data.interval (timestampNow data)) :
    resourceTimestampCanLock data = true := by
  rw [roundDown_lt grain] at after
  unfold resourceTimestampCanLock
  rw [if_pos slots]
  generalize data.interval = interval at *
  cases grain with
  | fraction usec parts positive whole =>
    have same : Timeval.micros ⟨0, usec⟩ = usec := by simp [Timeval.micros]
    rw [same] at after
    simp only [positive, if_true, Bool.or_eq_true, decide_eq_true_eq]
    rcases lt_trichotomy data.lastTimestamp.sec
      (timestampNow data).sec with before | equal | reverse
    · exact .inl before
    · rw [fraction_slot positive whole, fraction_slot positive whole, equal] at after
      rw [Int.tdiv_eq_ediv_of_nonneg last.1, Int.tdiv_eq_ediv_of_nonneg now.1]
      exact .inr (by omega)
    · exact absurd (fraction_slot_lt positive whole now last reverse) (by omega)
  | seconds sec positive =>
    have start := counted rfl
    rw [seconds_slot sec last, seconds_slot sec now] at after
    simp only [lt_self_iff_false, if_false, positive, if_true, decide_eq_true_eq]
    have later : 0 ≤ (timestampNow data).sec := by
      by_contra negative
      have := Int.ediv_neg_of_neg_of_pos (not_le.mp negative) positive
      have := Int.ediv_nonneg start positive.le
      omega
    rwa [Int.tdiv_eq_ediv_of_nonneg start, Int.tdiv_eq_ediv_of_nonneg later]

theorem timestampInterval_usec_lt (format : Name) : (timestampInterval format).usec < 1000000 := by
  unfold timestampInterval
  split
  · next digits found =>
    have small : ∀ digits ∈ [6, 5, 4, 3, 2, 1], (10 : Int) ^ (6 - digits) < 1000000 := by decide
    exact small digits (List.mem_of_find?_eq_some found)
  · split_ifs <;> decide

def lockCall (strftime : Name → Int → Name) (conn : ConnId) (tested stamp : Timeval) :
    TimestampCall :=
  .call (.inmsg conn 8 (msgLock [] .ex 0 1 1) ⟨[], [tested, stamp], strftime⟩)

def cleanCall (strftime : Name → Int → Name) (conn : ConnId) (now : Timeval) : TimestampCall :=
  .call (.clean conn ⟨[], [now, now], strftime⟩)

theorem lockCall_granted {strftime : Name → Int → Name} {rsrc : TimestampRsrc} {conn : ConnId}
    {tested stamp : Timeval}
    (can : resourceTimestampCanLock { rsrc.data with clock := [tested, stamp] } = true) :
    resourceTimestampStep rsrc (lockCall strftime conn tested stamp) =
        { rsrc with
          data := { rsrc.data with
            lastTimestamp := stamp
            holders := ⟨conn, ()⟩ :: rsrc.data.holders
            lockedQuantity := rsrc.data.lockedQuantity + 1
            clock := [] } } ∧
      timestampSent rsrc (lockCall strftime conn tested stamp) =
          [stampText strftime rsrc.data.format stamp] := by
  let request : Request TimestampData (ConnLock Unit) :=
    ⟨⟨conn, ()⟩, false, .lockBusy, fun data => some (timestampElement strftime data)⟩
  let started := timestampSetClock rsrc [tested, stamp]
  have free : timestampManager.can started.data request.waiter = true := can
  constructor
  · have step := rsrcLock_rsrc_eq timestampManager request started 8 (msgLock [] .ex 0 1 1)
    rw [if_pos ⟨rfl, free⟩] at step
    exact step
  · have answered :
        (rsrcLock timestampManager request started 8 (msgLock [] .ex 0 1 1)).rc = .ok := by
      simp only [rsrcLock, msgFree, free, if_true]
      rfl
    have element := (rsrcLock_element answered).2
    rw [if_pos free] at element
    have sent : timestampSent rsrc (lockCall strftime conn tested stamp) =
        if (rsrcLock timestampManager request started 8 (msgLock [] .ex 0 1 1)).rc = .ok then
          (msgAnswer (rsrcLock timestampManager request started 8
            (msgLock [] .ex 0 1 1)).msg).element.toList
        else [] := rfl
    rw [sent, if_pos answered, element]
    rfl

theorem cleanCall_released {strftime : Name → Int → Name} {rsrc : TimestampRsrc} {conn : ConnId}
    {now : Timeval} (holders : rsrc.data.holders = [⟨conn, ()⟩]) (empty : rsrc.waitings = []) :
    resourceTimestampStep rsrc (cleanCall strftime conn now) =
        { rsrc with
          data := { rsrc.data with
            holders := []
            lockedQuantity := rsrc.data.lockedQuantity - 1
            clock := [now, now] } } ∧
      timestampSent rsrc (cleanCall strftime conn now) = [] := by
  obtain ⟨name, data, waitings⟩ := rsrc
  obtain rfl : waitings = [] := empty
  have released : timestampManager.release { data with clock := [now, now] } conn =
      some { data with
        holders := []
        lockedQuantity := data.lockedQuantity - 1
        clock := [now, now] } := by
    simp [timestampManager, rsrcConnFind, rsrcConnRemove, show data.holders = _ from holders]
  have cleaned := rsrcClean_of_some timestampManager ⟨name, { data with clock := [now, now] }, []⟩
    conn [] _ released
  constructor
  · exact congrArg Cleaned.rsrc cleaned
  · exact congrArg (fun result => grantedTexts ⟨[], [now, now], strftime⟩ result.granted) cleaned

theorem first_test {data : TimestampData} {stamp : Timeval}
    (grain : Grain data.interval) (small : data.interval.usec < 1000000)
    (epoch : data.lastTimestamp = ⟨0, 0⟩) (slots : timestampSlots data = true)
    (normal : stamp.Normalized) (after : 0 < stamp.sec)
    (counted : data.interval.usec = 0 → 0 < Timeval.roundDown data.interval stamp) :
    ∃ tested : Timeval, tested.Counted ∧ tested.micros ≤ stamp.micros ∧
      resourceTimestampCanLock { data with clock := [tested, stamp] } = true := by
  by_cases seconds : data.interval.usec = 0
  · refine ⟨stamp, ⟨normal, after.le⟩, le_refl _, ?_⟩
    let started := { data with clock := [stamp, stamp] }
    apply @canLock_of_slot started grain
    · rw [epoch]
      decide
    · exact normal
    · intro _
      rw [epoch]
    · exact slots
    · change Timeval.roundDown data.interval data.lastTimestamp <
        Timeval.roundDown data.interval stamp
      rw [epoch]
      simpa [Timeval.roundDown, Timeval.micros] using counted seconds
  · refine ⟨⟨stamp.sec - 1, 999999⟩, ⟨by simp [Timeval.Normalized], Int.le_sub_one_of_lt after⟩,
      ?_, ?_⟩
    · obtain ⟨low, high⟩ := normal
      simp only [Timeval.micros]
      omega
    · have positive : 0 < data.interval.usec := by
        cases shape : data.interval with
        | mk sec usec =>
          rw [shape] at grain seconds
          cases grain with
          | fraction usec parts positive whole => exact positive
          | seconds sec positive => exact absurd rfl seconds
      have parts : 0 < (999999 : Int).tdiv data.interval.usec := by
        rw [Int.tdiv_eq_ediv_of_nonneg (by decide)]
        exact Int.le_ediv_of_mul_le positive (by omega)
      simp only [resourceTimestampCanLock, timestampNow, epoch, List.headD_cons, positive, if_true,
        Int.zero_tdiv]
      rw [if_pos (by exact slots), decide_eq_true parts, Bool.or_true]

theorem int32_free_again (total : Int32) : total - (0 + 1 - 1) = total := by
  have zero : (0 + 1 - 1 : Int32) = 0 := by decide
  rw [zero, Int32.sub_zero]

-- Any two stamps of different intervals can follow each other: a lock, its release and a second
-- lock.
theorem differ_separates {strftime : Name → Int → Name} {name : Name} {rsrc : TimestampRsrc}
    (started : resourceTimestampInit name = .ok rsrc) (slots : 0 < rsrc.data.totalQuantity)
    (differ : TextsDiffer strftime rsrc) :
    TextSeparates strftime rsrc.data.format rsrc.data.interval 1 := by
  intro earlier later normal normal' start counted after same
  obtain ⟨grain, stamped⟩ := stamped_init started
  obtain ⟨format, total, _, _, _, rfl⟩ := resourceTimestampInit_eq started
  obtain ⟨tested, testedCounted, before, can⟩ :=
    first_test grain (timestampInterval_usec_lt format) rfl
    (by simpa [timestampSlots] using slots) normal start counted
  have order : earlier.micros < later.micros := by
    by_contra reverse
    exact absurd (roundDown_mono grain (not_lt.mp reverse)) (not_le.mpr after)
  have stamped : earlier.Counted := ⟨normal, Int.le_of_lt start⟩
  have stamped' : later.Counted :=
    ⟨normal', (Int.le_of_lt start).trans (micros_sec_le normal normal' order.le)⟩
  let held : TimestampRsrc :=
    ⟨name, ⟨format, total, 0 + 1, earlier, timestampInterval format, [⟨1, ()⟩], []⟩, []⟩
  let freed : TimestampRsrc :=
    ⟨name, ⟨format, total, 0 + 1 - 1, earlier, timestampInterval format, [], [earlier, earlier]⟩,
      []⟩
  let fresh : TimestampRsrc := ⟨name, ⟨format, total, 0, ⟨0, 0⟩, timestampInterval format, [], []⟩,
    []⟩
  have locked : _ ∧ timestampSent fresh (lockCall strftime 1 tested earlier) = _ :=
    lockCall_granted can
  have cleaned : _ ∧ timestampSent held (cleanCall strftime 1 earlier) = _ :=
    cleanCall_released rfl rfl
  have again : resourceTimestampCanLock { freed.data with clock := [later, later] } = true := by
    let data := { freed.data with clock := [later, later] }
    have free : timestampSlots data = true := by
      simp only [timestampSlots, data, freed, int32_free_again]
      exact decide_eq_true slots
    apply @canLock_of_slot data grain normal normal' _ free after
    exact fun seconds => roundDown_pos_sec grain normal (counted seconds)
  have relocked : _ ∧ timestampSent freed (lockCall strftime 2 later later) = _ :=
    lockCall_granted again
  have firstStep : resourceTimestampStep fresh (lockCall strftime 1 tested earlier) = held :=
    locked.1
  have secondStep : resourceTimestampStep held (cleanCall strftime 1 earlier) = freed := cleaned.1
  let calls := [lockCall strftime 1 tested earlier, cleanCall strftime 1 earlier,
    lockCall strftime 2 later later]
  have texts : timestampSentAlong fresh calls =
      [stampText strftime format earlier, stampText strftime format later] := by
    simp only [calls, timestampSentAlong, locked.2, firstStep, cleaned.2, secondStep, relocked.2]
    rfl
  have clock : ClockForward strftime fresh calls := by
    constructor
    · simp [calls, clockReadings, TimestampCall.env, lockCall, cleanCall, testedCounted, stamped,
        stamped']
    · simp [calls, clockReadings, TimestampCall.env, lockCall, cleanCall, before, order.le,
        before.trans order.le]
    · simp only [calls, Along, firstStep, secondStep]
      exact ⟨le_refl 2, le_refl 2, le_refl 2, trivial⟩
    · simp [calls, TimestampCall.env, lockCall, cleanCall]
  have different := differ calls clock
  rw [show timestampSentAlong _ calls = _ from texts, List.isChain_pair] at different
  exact different same

structure Ungranted (total : Int32) (logged : Logged TimestampData Timeval) : Prop where
  total : logged.state.totalQuantity = total
  locked : logged.state.lockedQuantity = 0
  holders : logged.state.holders = []
  log : logged.log = []

theorem ungranted_refuses {total : Int32} {logged : Logged TimestampData Timeval} (none : total ≤ 0)
    (ungranted : Ungranted total logged) (waiter : ConnLock Unit) :
    ¬timestampLogged.can logged waiter = true := by
  have full : timestampSlots logged.state = false := by
    rw [timestampSlots, ungranted.total, ungranted.locked, Int32.sub_zero]
    exact decide_eq_false (Int32.not_lt.mpr none)
  simp [timestampLogged, Manager.logged, timestampManager, resourceTimestampCanLock, full]

theorem ungranted_preserved {total : Int32} (none : total ≤ 0) :
    PreservedWhere timestampLogged.toOps (fun logged _ => 2 ≤ logged.state.clock.length)
      (Ungranted total) where
  take logged waiter ungranted _ can := absurd can (ungranted_refuses none ungranted waiter)
  fail logged waiter ungranted _ can := absurd can (ungranted_refuses none ungranted waiter)
  skip logged waiter ungranted := by
    simp only [timestampLogged, Manager.logged, timestampManager]
    split
    · exact { ungranted with }
    · exact ungranted

theorem ungranted_run {total : Int32} (none : total ≤ 0) {rsrc : TimestampHistory}
    {calls : List TimestampCall} (ungranted : Ungranted total rsrc.data)
    (supplied : Along resourceTimestampStep clockSupplied rsrc.unlogged calls) :
    Ungranted total (run timestampHistoryStep rsrc calls).data := by
  induction calls generalizing rsrc with
  | nil => exact ungranted
  | cons call rest ih =>
    obtain ⟨here, after⟩ := supplied
    rw [← timestampHistoryStep_unlogged] at after
    have release : ∀ logged conn freed, Ungranted total logged →
        timestampLogged.release logged conn = some freed → Ungranted total freed := by
      intro logged conn freed before released
      obtain ⟨data, found, rfl⟩ := Option.map_eq_some_iff.mp released
      obtain ⟨_, present, rfl⟩ := Option.map_eq_some_iff.mp found
      simp [rsrcConnFind, before.holders] at present
    rcases timestampHistoryStep_where (ungranted_preserved none) release { ungranted with }
        (supplied_where here) with
      same | kept
    · exact ih (same ▸ ungranted) after
    · exact ih kept after

theorem ungranted_differ {strftime : Name → Int → Name} {name : Name} {rsrc : TimestampRsrc}
    (started : resourceTimestampInit name = .ok rsrc) (none : rsrc.data.totalQuantity ≤ 0) :
    TextsDiffer strftime rsrc := by
  intro calls clock
  have fresh : Ungranted rsrc.data.totalQuantity rsrc.logging.data := by
    obtain ⟨format, total, _, _, _, rfl⟩ := resourceTimestampInit_eq started
    exact ⟨rfl, rfl, rfl, rfl⟩
  have reached := ungranted_run none fresh clock.supplied
  obtain ⟨stamps, log, texts⟩ := @timestampSentAlong_logged _ _ rsrc.logging _ clock.zone rfl
  obtain rfl : [] = stamps := by
    rw [reached.log] at log
    exact log
  rw [show timestampSentAlong rsrc calls = [] from List.sublist_nil.mp texts]
  exact List.isChain_nil

end Flom
