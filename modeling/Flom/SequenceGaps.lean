import Flom.SequenceHistory

set_option autoImplicit false

namespace Flom

open Scan Run

def sequenceServed (rsrc : SequenceRsrc) (conn : ConnId) : Nat :=
  match rsrcConnFind rsrc.data.holders conn with
  | some _ =>
    min rsrc.waitings.length (rsrc.data.totalQuantity.toInt + 1 - rsrc.data.holders.length).toNat
  | none => 0

def Delivered (rsrc : SequenceRsrc) (conn : ConnId) (sends : List Rc) : Prop :=
  ∀ send ∈ sends.take (sequenceServed rsrc conn), send = .ok

instance deliveredDecidable (rsrc : SequenceRsrc) (conn : ConnId) (sends : List Rc) :
    Decidable (Delivered rsrc conn sends) :=
  inferInstanceAs (Decidable (∀ send ∈ _, _))

def sequenceDelivers (rsrc : SequenceRsrc) : Call → Prop
  | .inmsg conn _ msg env =>
    msg.verb = .unlock → some rsrc.name = msg.unlock8.name → Delivered rsrc conn env.sends
  | .clean conn env => Delivered rsrc conn env.sends

instance sequenceDeliversDecidable (rsrc : SequenceRsrc) (call : Call) :
    Decidable (sequenceDelivers rsrc call) :=
  match call with
  | .inmsg conn _ msg env =>
    inferInstanceAs (Decidable (msg.verb = .unlock → some rsrc.name = msg.unlock8.name →
      Delivered rsrc conn env.sends))
  | .clean conn env => inferInstanceAs (Decidable (Delivered rsrc conn env.sends))

def committedValues (log : List SequenceEvent) : List UInt32 :=
  log.filterMap SequenceEvent.committed

def lostValues (log : List SequenceEvent) : List UInt32 := log.filterMap SequenceEvent.lost

theorem lostValues_append (log later : List SequenceEvent) :
    lostValues (log ++ later) = lostValues log ++ lostValues later :=
  List.filterMap_append

theorem scan_lost (logged : Logged SequenceData SequenceEvent) (queue : List (ConnLock Unit))
    (sends : List Rc) :
    (lostValues (scan sequenceLogged.toOps Rc.ok logged queue sends).state.log).length =
      (lostValues logged.log).length +
        (scan sequenceLogged.toOps Rc.ok logged queue sends).failed.toList.length := by
  induction logged, queue, sends using scan_cases sequenceLogged.toOps Rc.ok with
  | done logged sends => rfl
  | granted logged waiter rest sends can sent ih =>
    have taken : lostValues (sequenceLogged.take logged waiter).log = lostValues logged.log := by
      simp only [sequenceLogged, Manager.logged, lostValues_append]
      exact List.append_nil _
    rw [Scanned.grant_state, Scanned.grant_failed, ih, taken]
  | failed logged waiter rest sends can unsent =>
    simp only [sequenceLogged, Manager.logged, lostValues_append, List.length_append]
    rfl
  | skipped logged waiter rest sends cannot ih => exact ih

def SequenceData.free (data : SequenceData) : Nat :=
  (data.totalQuantity.toInt - data.holders.length).toNat

theorem slotted_free_iff {total : Int32} {data : SequenceData} (slotted : data.Slotted total) :
    resourceSequenceCanLock data = true ↔ 0 < data.free := by
  obtain ⟨capacity, slots⟩ := slotted
  rw [← capacity] at slots
  have room := slots.free_iff
  simp only [resourceSequenceCanLock, decide_eq_true_eq, SequenceData.free, room]
  omega

theorem scan_failed_iff_sent {total : Int32} {logged : Logged SequenceData SequenceEvent}
    (slotted : logged.state.Slotted total) (queue : List (ConnLock Unit)) (sends : List Rc) :
    (scan sequenceLogged.toOps Rc.ok logged queue sends).failed = none ↔
      ∀ send ∈ sends.take (min queue.length logged.state.free), send = .ok := by
  refine scan_failed_iff (slotted_preserved total)
    (fun state _ kept => slotted_free_iff kept) ?_ ?_ Rc.ok logged queue sends slotted
  · intro state waiter kept can
    have some_free := (slotted_free_iff kept).mp can
    have same := (resourceSequenceGet_counters state.state).1
    simp only [sequenceLogged, Manager.logged, sequenceManager, SequenceData.free, same,
      List.length_cons] at *
    omega
  · exact fun _ _ => rfl

theorem release_lost {logged freed : Logged SequenceData SequenceEvent} {conn : ConnId}
    (released : sequenceLogged.release logged conn = some freed) :
    lostValues freed.log = lostValues logged.log := by
  obtain ⟨data, _, rfl⟩ := Option.map_eq_some_iff.mp released
  have quiet : lostValues (sequenceNotes.release logged.state conn) = [] := by
    simp only [sequenceNotes]
    split
    · rfl
    · split_ifs <;> rfl
  rw [lostValues_append, quiet, List.append_nil]

theorem clean_lost {total : Int32} {rsrc : SequenceHistory}
    (slotted : rsrc.data.state.Slotted total) (conn : ConnId) (sends : List Rc) :
    (lostValues (rsrcClean sequenceLogged rsrc conn sends).rsrc.data.log).length =
      (lostValues rsrc.data.log).length + if Delivered rsrc.unlogged conn sends then 0 else 1 := by
  simp only [rsrcClean]
  cases found : rsrcConnFind rsrc.data.state.holders conn with
  | none =>
    have kept : sequenceLogged.release rsrc.data conn = none := by
      simp [sequenceLogged, Manager.logged, sequenceManager, found]
    have served : sequenceServed rsrc.unlogged conn = 0 := by
      simp [sequenceServed, Rsrc.unlogged, found]
    rw [Manager.clean_of_none _ _ _ _ _ _ kept]
    simp [Delivered, served]
  | some holder =>
    obtain ⟨freed, released⟩ : ∃ freed, sequenceLogged.release rsrc.data conn = some freed := by
      simp [sequenceLogged, Manager.logged, sequenceManager, found]
    have served : sequenceServed rsrc.unlogged conn =
        min rsrc.waitings.length freed.state.free := by
      obtain ⟨data, gone, rfl⟩ := Option.map_eq_some_iff.mp released
      obtain ⟨_, present, rfl⟩ := Option.map_eq_some_iff.mp gone
      have length := (rsrcConnFind_perm present).2.length_eq
      simp only [sequenceServed, Rsrc.unlogged, found, SequenceData.free, length, List.length_cons]
      omega
    have sent := scan_failed_iff_sent (slotted_release slotted released) rsrc.waitings sends
    rw [← served] at sent
    rw [Manager.clean_of_some _ _ _ _ _ _ _ released, scan_lost, release_lost released]
    by_cases delivered : Delivered rsrc.unlogged conn sends
    · rw [if_pos delivered, sent.mpr delivered]
      rfl
    · rw [if_neg delivered]
      cases failed : (scan sequenceLogged.toOps Rc.ok freed rsrc.waitings sends).failed with
      | none => exact absurd (sent.mp failed) delivered
      | some waiter => rfl

theorem lock_lost (request : Request (Logged SequenceData SequenceEvent) (ConnLock Unit))
    (rsrc : SequenceHistory) (lastStep : Int) (msg : Msg) :
    lostValues (rsrcLock sequenceLogged request rsrc lastStep msg).rsrc.data.log =
    lostValues rsrc.data.log := by
  obtain same | ⟨_, same⟩ | ⟨_, same⟩ := rsrcLock_rsrc sequenceLogged request rsrc lastStep msg
  · rw [same]
    rfl
  · rw [same]
    simp only [sequenceLogged, Manager.logged, lostValues_append]
    exact List.append_nil _
  · rw [same]
    rfl

theorem rsrcConnFind_mark (rollback : Bool) (conn : ConnId)
    (holders : List (ConnLock SequenceInfo)) :
    (rsrcConnFind (sequenceMark rollback conn holders) conn).isSome =
    (rsrcConnFind holders conn).isSome := by
  induction holders with
  | nil => rfl
  | cons holder rest ih =>
    unfold sequenceMark
    by_cases mine : holder.conn = conn
    · simp [mine, rsrcConnFind]
    · simpa [mine, rsrcConnFind] using ih

theorem sequenceServed_eq (rsrc : SequenceRsrc) (conn : ConnId) :
    sequenceServed rsrc conn =
      if (rsrcConnFind rsrc.data.holders conn).isSome then
        min rsrc.waitings.length
          (rsrc.data.totalQuantity.toInt + 1 - rsrc.data.holders.length).toNat
      else 0 := by
  unfold sequenceServed
  cases rsrcConnFind rsrc.data.holders conn <;> rfl

theorem delivered_marked {rsrc : SequenceHistory} {rollback : Bool} {conn : ConnId}
    {sends : List Rc} :
    Delivered (historyMarked rsrc rollback conn).unlogged conn sends ↔
    Delivered rsrc.unlogged conn sends := by
  have length : (sequenceMark rollback conn rsrc.data.state.holders).length =
      rsrc.data.state.holders.length := by
    simpa [sequenceHeld] using congrArg List.length
      (sequenceHeld_mark rollback conn rsrc.data.state.holders)
  simp only [Delivered, sequenceServed_eq, historyMarked, sequenceMarked, Rsrc.unlogged,
    rsrcConnFind_mark, length]

theorem unlock_lost {total : Int32} {rsrc : SequenceHistory}
    (slotted : rsrc.data.state.Slotted total) (conn : ConnId) (msg : Msg) (sends : List Rc)
    (same : some rsrc.name = msg.unlock8.name) :
    (lostValues (sequenceHistoryUnlock rsrc conn msg sends).data.log).length =
      (lostValues rsrc.data.log).length + if Delivered rsrc.unlogged conn sends then 0 else 1 := by
  simp only [sequenceHistoryUnlock, same, if_true]
  cases found : rsrcConnFind rsrc.data.state.holders conn with
  | some holder =>
    simp only [clean_lost (slotted_marked _ conn slotted), historyMarked_log, delivered_marked]
  | none =>
    have served : sequenceServed rsrc.unlogged conn = 0 := by
      simp [sequenceServed, Rsrc.unlogged, found]
    simp [Delivered, served]

theorem sequenceHistoryStep_lost {total : Int32} {rsrc : SequenceHistory}
    (slotted : rsrc.data.state.Slotted total) (call : Call) :
    (lostValues (sequenceHistoryStep rsrc call).data.log).length =
      (lostValues rsrc.data.log).length + if sequenceDelivers rsrc.unlogged call then 0 else 1 := by
  cases call with
  | clean conn env => exact clean_lost slotted conn env.sends
  | inmsg conn lastStep msg env =>
    by_cases unlock : msg.verb = .unlock
    · by_cases same : some rsrc.name = msg.unlock8.name
      · have delivers : sequenceDelivers rsrc.unlogged (.inmsg conn lastStep msg env) ↔
            Delivered rsrc.unlogged conn env.sends :=
          ⟨fun sent => sent unlock same, fun sent _ _ => sent⟩
        simp only [sequenceHistoryStep, unlock, delivers]
        exact unlock_lost slotted conn msg env.sends same
      · have silent : sequenceDelivers rsrc.unlogged (.inmsg conn lastStep msg env) :=
          fun _ named => absurd named same
        rw [if_pos silent]
        simp [sequenceHistoryStep, unlock, sequenceHistoryUnlock, same]
    · have silent : sequenceDelivers rsrc.unlogged (.inmsg conn lastStep msg env) :=
        fun other => absurd other unlock
      rw [if_pos silent]
      simp only [sequenceHistoryStep]
      split
      · rw [lock_lost, Nat.add_zero]
      · next verb => exact absurd verb unlock
      · rfl

theorem slotted_step {total : Int32} (rsrc : SequenceHistory) (call : Call)
    (slotted : rsrc.data.state.Slotted total) :
    (sequenceHistoryStep rsrc call).data.state.Slotted total := by
  have sound := sequenceHistoryStep_sound (slotted_preserved total)
    (fun _ _ _ kept released => slotted_release kept released)
    (fun _ rollback conn kept => slotted_marked rollback conn kept) rsrc call
      ⟨slotted, fun _ _ => trivial⟩
  exact sound.data

theorem lost_iff_delivered {total : Int32} (rsrc : SequenceHistory) (calls : List Call)
    (slotted : rsrc.data.state.Slotted total) :
    (lostValues rsrc.data.log).length ≤
    (lostValues (run sequenceHistoryStep rsrc calls).data.log).length ∧
      ((lostValues (run sequenceHistoryStep rsrc calls).data.log).length =
        (lostValues rsrc.data.log).length ↔
        Along resourceSequenceStep sequenceDelivers rsrc.unlogged calls) := by
  induction calls generalizing rsrc with
  | nil => simp [run, Along]
  | cons call rest ih =>
    have here := sequenceHistoryStep_lost slotted call
    obtain ⟨more, later⟩ := ih (sequenceHistoryStep rsrc call) (slotted_step rsrc call slotted)
    rw [sequenceHistoryStep_unlogged] at later
    simp only [run, Along, ← later]
    by_cases delivers : sequenceDelivers rsrc.unlogged call
    · simp only [if_pos delivers, Nat.add_zero] at here
      simp only [delivers, true_and, here] at more ⊢
      exact ⟨more, trivial⟩
    · simp only [if_neg delivers] at here
      simp only [delivers, false_and, iff_false]
      omega

def Recycles (logged : Logged SequenceData SequenceEvent) : Prop :=
  logged.state.rolledBack.isSome = true ∧ ∀ value, .discard value ∉ logged.log

theorem resourceSequenceGet_recycles (data : SequenceData) :
    (resourceSequenceGet data).2.rolledBack.isSome = data.rolledBack.isSome := by
  unfold resourceSequenceGet sequenceDraw
  cases queue : data.rolledBack with
  | none =>
    dsimp only
    split_ifs <;> simp
  | some values =>
    cases values with
    | nil =>
      dsimp only
      split_ifs <;> simp
    | cons value rest =>
      dsimp only
      split_ifs <;> simp

theorem recycles_preserved : Preserved sequenceLogged.toOps Recycles fun _ => True where
  take logged waiter recycles _ _ := by
    refine ⟨(resourceSequenceGet_recycles logged.state).trans recycles.1, ?_⟩
    simpa [sequenceLogged, Manager.logged, sequenceNotes] using recycles.2
  fail logged waiter recycles _ _ := by
    refine ⟨(resourceSequenceGet_recycles logged.state).trans recycles.1, ?_⟩
    simpa [sequenceLogged, Manager.logged, sequenceNotes] using recycles.2
  skip logged waiter recycles := recycles

theorem recycles_release {logged freed : Logged SequenceData SequenceEvent} {conn : ConnId}
    (recycles : Recycles logged) (released : sequenceLogged.release logged conn = some freed) :
    Recycles freed := by
  obtain ⟨data, found, rfl⟩ := Option.map_eq_some_iff.mp released
  obtain ⟨holder, present, rfl⟩ := Option.map_eq_some_iff.mp found
  obtain ⟨queue, none_discarded⟩ := recycles
  constructor
  · by_cases rolls : holder.info.rollback = true <;> simpa [rolls] using queue
  · intro value member
    simp only [sequenceNotes, present, queue, if_true] at member
    by_cases rolls : holder.info.rollback = true
    · simp only [rolls, if_true, List.append_nil] at member
      exact none_discarded value member
    · simp only [rolls, List.mem_append] at member
      simp [none_discarded value] at member

theorem sequence_recycles {name : Name} {rsrc : SequenceRsrc}
    (started : resourceSequenceInit name = .ok rsrc)
    (transactional : rsrcGetTransactional name = true) (calls : List Call) :
    Recycles (sequenceHistory rsrc calls).data := by
  refine sequenceHistory_sound recycles_preserved ?_ ?_ rsrc calls ?_
  · exact fun _ _ _ recycles released => recycles_release recycles released
  · exact fun _ _ _ recycles => recycles
  · obtain ⟨total, _, rfl⟩ := resourceSequenceInit_eq started
    exact ⟨by simp [transactional], by simp⟩

theorem count_gone {log : List SequenceEvent} (kept : ∀ value, .discard value ∉ log)
    (value : UInt32) :
    (log.filterMap SequenceEvent.gone).count value =
      (committedValues log).count value + (lostValues log).count value := by
  induction log with
  | nil => rfl
  | cons event rest ih =>
    have later := ih fun other member => kept other (List.mem_cons_of_mem _ member)
    simp only [committedValues, lostValues] at later ⊢
    cases event with
    | issue issued fresh => exact later
    | lose lost =>
      simp only [List.filterMap_cons, SequenceEvent.gone, SequenceEvent.committed,
        SequenceEvent.lost,
        List.count_cons, later]
      omega
    | commit committed =>
      simp only [List.filterMap_cons, SequenceEvent.gone, SequenceEvent.committed,
        SequenceEvent.lost,
        List.count_cons, later]
      omega
    | discard discarded => exact absurd List.mem_cons_self (kept discarded)

theorem accounted_count {logged : Logged SequenceData SequenceEvent} (accounted : Accounted logged)
    {value : UInt32} (positive : 0 < value) (given : value < logged.state.nextValue) :
    (logged.state.held ++ logged.state.rolled ++ logged.log.filterMap SequenceEvent.gone).count
      value = 1 := by
  have distinct := List.Nodup.of_map UInt32.toNat
    (accounted.conserved.nodup_iff.mpr List.nodup_range')
  have low := UInt32.lt_iff_toNat_lt.mp positive
  have high := UInt32.lt_iff_toNat_lt.mp given
  have next := accounted.next
  have inside : value.toNat ∈ List.range' 1 (drawn logged.log) := by
    rw [List.mem_range'_1]
    simp only [UInt32.toNat_zero] at low
    omega
  obtain ⟨other, member, same⟩ := List.mem_map.mp (accounted.conserved.mem_iff.mpr inside)
  rw [UInt32.toNat_inj.mp same] at member
  exact List.count_eq_one_of_mem distinct member

theorem sequence_no_gap_iff {name : Name} {rsrc : SequenceRsrc}
    (started : resourceSequenceInit name = .ok rsrc)
    (transactional : rsrcGetTransactional name = true) (calls : List Call)
    (few : drawn (sequenceHistory rsrc calls).data.log < 2 ^ 32 - 1) :
    let final := (run resourceSequenceStep rsrc calls).data
    let log := (sequenceHistory rsrc calls).data.log
    (∀ value, 0 < value → value < final.nextValue →
        final.held.count value + final.rolled.count value + (committedValues log).count value = 1) ↔
      Along resourceSequenceStep sequenceDelivers rsrc calls := by
  intro final log
  have accounted := sequence_accounted started calls few
  have same : (sequenceHistory rsrc calls).data.state = final :=
    congrArg Rsrc.data (sequenceHistory_unlogged rsrc calls)
  have gone : ∀ value, (log.filterMap SequenceEvent.gone).count value =
      (committedValues log).count value + (lostValues log).count value :=
    count_gone (sequence_recycles started transactional calls).2
  have one : ∀ value, 0 < value → value < final.nextValue →
      final.held.count value + final.rolled.count value + (committedValues log).count value +
        (lostValues log).count value = 1 := by
    intro value positive given
    have count : (final.held ++ final.rolled ++ log.filterMap SequenceEvent.gone).count value = 1 :=
      same ▸ accounted_count accounted positive (same ▸ given)
    rw [List.count_append, List.count_append, gone] at count
    omega
  have slotted : (rsrc.logging : SequenceHistory).data.state.Slotted rsrc.data.totalQuantity :=
    sequence_slotted started []
  have decided : (lostValues log).length = 0 ↔
      Along resourceSequenceStep sequenceDelivers rsrc calls :=
    (lost_iff_delivered rsrc.logging calls slotted).2
  rw [← decided, List.length_eq_zero_iff]
  constructor
  · intro whole
    rw [List.eq_nil_iff_forall_not_mem]
    intro value member
    have lost := List.count_pos_iff.mpr member
    have seen : value ∈ log.filterMap SequenceEvent.gone := by
      rw [← List.count_pos_iff, gone]
      omega
    obtain ⟨positive, given⟩ := accounted_given accounted (List.mem_append_right _ seen)
    rw [same] at given
    have both := one value positive given
    have alone := whole value positive given
    omega
  · intro empty value positive given
    have count := one value positive given
    rw [empty, List.count_nil] at count
    exact count

theorem sequence_no_gap_iff_recycled :
    Along resourceSequenceStep sequenceDelivers sequenceOne recycledCalls ∧
      ∀ value, 0 < value → value < 3 →
        [(2 : UInt32)].count value + ([] : List UInt32).count value + [(1 : UInt32)].count value =
          1 := by
  refine ⟨by decide, ?_⟩
  exact (@sequence_no_gap_iff sequenceName sequenceOne (by decide) (by decide) recycledCalls
    (by decide)).mpr (by decide)

-- The value drawn for the queued client goes with the record of that client when the answer cannot
-- be sent.
theorem sequence_value_lost :
    ∃ name rsrc calls value, resourceSequenceInit name = .ok rsrc ∧
    rsrcGetTransactional name = true ∧
      drawn (sequenceHistory rsrc calls).data.log < 2 ^ 32 - 1 ∧ 0 < value ∧
      value < (run resourceSequenceStep rsrc calls).data.nextValue ∧
      value ∉ (run resourceSequenceStep rsrc calls).data.held ∧
      value ∉ (run resourceSequenceStep rsrc calls).data.rolled ∧
      value ∉ committedValues (sequenceHistory rsrc calls).data.log := by
  refine ⟨sequenceName, sequenceOne,
    [sequenceLock 1, sequenceLock 2, sequenceUnlock 1 0 [.sendError]], 2, ?_⟩
  decide

end Flom
