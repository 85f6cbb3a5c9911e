import Flom.ResourceSequence
import Flom.RsrcHistory
import Flom.Slots
import Mathlib.Data.List.Nodup

set_option autoImplicit false

namespace Flom

open Scan Run

-- `issue` says whether the value came from the counter, `discard` a value of a client that went
-- away from a sequence without a queue of rolled back values.
inductive SequenceEvent where
  | issue (value : UInt32) (fresh : Bool)
  | lose (value : UInt32)
  | commit (value : UInt32)
  | discard (value : UInt32)
deriving DecidableEq, Repr

def sequenceFresh (data : SequenceData) : Bool :=
  match data.rolledBack with
  | some (value :: _) => value = 0
  | _ => true

def sequenceNotes : Notes SequenceData (ConnLock Unit) ConnId SequenceEvent where
  take data _ := [.issue (resourceSequenceGet data).1 (sequenceFresh data)]
  fail data _ :=
    [.issue (resourceSequenceGet data).1 (sequenceFresh data), .lose (resourceSequenceGet data).1]
  release data conn :=
    match rsrcConnFind data.holders conn with
    | none => []
    | some found =>
      if found.info.rollback then
        if data.rolledBack.isSome then [] else [.discard found.info.value]
      else [.commit found.info.value]

abbrev SequenceHistory := Rsrc (Logged SequenceData SequenceEvent) (ConnLock Unit)

def sequenceLogged : Manager (Logged SequenceData SequenceEvent) (ConnLock Unit) ConnId :=
  sequenceManager.logged sequenceNotes

def historyMarked (rsrc : SequenceHistory) (rollback : Bool) (conn : ConnId) : SequenceHistory :=
  { rsrc with data := { rsrc.data with
    state := (sequenceMarked rsrc.unlogged rollback conn).data } }

def sequenceHistoryUnlock (rsrc : SequenceHistory) (conn : ConnId) (msg : Msg) (sends : List Rc) :
    SequenceHistory :=
  if some rsrc.name = msg.unlock8.name then
    match rsrcConnFind rsrc.data.state.holders conn with
    | some _ =>
      (rsrcClean sequenceLogged (historyMarked rsrc (msg.unlock8.rollback ≠ 0) conn) conn
        sends).rsrc
    | none => rsrc
  else rsrc

def sequenceHistoryStep (rsrc : SequenceHistory) : Call → SequenceHistory
  | .inmsg conn lastStep msg env =>
    match msg.verb with
    | .lock =>
      (rsrcLock sequenceLogged ⟨⟨conn, ()⟩, msg.lock8.wait ≠ 0, .lockBusy, fun _ => none⟩ rsrc
        lastStep msg).rsrc
    | .unlock => sequenceHistoryUnlock rsrc conn msg env.sends
    | _ => rsrc
  | .clean conn env => (rsrcClean sequenceLogged rsrc conn env.sends).rsrc

theorem sequenceHistoryUnlock_unlogged (rsrc : SequenceHistory) (conn : ConnId) (msg : Msg)
    (sends : List Rc) :
    (sequenceHistoryUnlock rsrc conn msg sends).unlogged =
      (resourceSequenceUnlock rsrc.unlogged conn msg sends).rsrc := by
  unfold sequenceHistoryUnlock resourceSequenceUnlock
  by_cases same : some rsrc.name = msg.unlock8.name
  · rw [if_pos same, if_pos (show some rsrc.unlogged.name = _ from same)]
    cases found : rsrcConnFind rsrc.data.state.holders conn with
    | none =>
      have absent : rsrcConnFind rsrc.unlogged.data.holders conn = none := found
      simp [absent]
    | some holder =>
      have present : rsrcConnFind rsrc.unlogged.data.holders conn = some holder := found
      simp only [present, inmsgOfCleaned_rsrc]
      exact rsrcClean_unlogged sequenceManager sequenceNotes (historyMarked rsrc _ conn) conn sends
  · rw [if_neg same, if_neg (show ¬some rsrc.unlogged.name = _ from same), inmsgError_rsrc]

theorem sequenceHistoryStep_unlogged (rsrc : SequenceHistory) (call : Call) :
    (sequenceHistoryStep rsrc call).unlogged = resourceSequenceStep rsrc.unlogged call := by
  cases call with
  | inmsg conn lastStep msg env =>
    simp only [sequenceHistoryStep, resourceSequenceStep, resourceSequenceInmsg]
    cases verb : msg.verb with
    | lock => exact rsrcLock_unlogged sequenceManager sequenceNotes _ _ rsrc lastStep msg rfl rfl
    | unlock => exact sequenceHistoryUnlock_unlogged rsrc conn msg env.sends
    | _ => rfl
  | clean conn env => exact rsrcClean_unlogged sequenceManager sequenceNotes rsrc conn env.sends

def sequenceHistory (rsrc : SequenceRsrc) (calls : List Call) : SequenceHistory :=
  run sequenceHistoryStep rsrc.logging calls

theorem sequenceHistory_unlogged (rsrc : SequenceRsrc) (calls : List Call) :
    (sequenceHistory rsrc calls).unlogged = run resourceSequenceStep rsrc calls :=
  run_view Rsrc.unlogged sequenceHistoryStep_unlogged rsrc.logging calls

section Values

def SequenceData.held (data : SequenceData) : List UInt32 :=
  data.holders.map fun holder => holder.info.value

def SequenceData.rolled (data : SequenceData) : List UInt32 := data.rolledBack.getD []

def SequenceEvent.fresh : SequenceEvent → Bool
  | .issue _ fresh => fresh
  | _ => false

def SequenceEvent.committed : SequenceEvent → Option UInt32
  | .commit value => some value
  | _ => none

def SequenceEvent.lost : SequenceEvent → Option UInt32
  | .lose value => some value
  | _ => none

def SequenceEvent.gone : SequenceEvent → Option UInt32
  | .issue _ _ => none
  | .lose value | .commit value | .discard value => some value

def drawn (log : List SequenceEvent) : Nat := log.countP SequenceEvent.fresh

def Spent (earlier later : SequenceEvent) : Prop :=
  ∀ value fresh, earlier = .commit value → later ≠ .issue value fresh

structure Accounted (logged : Logged SequenceData SequenceEvent) : Prop where
  next : logged.state.nextValue.toNat = drawn logged.log + 1
  conserved :
    ((logged.state.held ++ logged.state.rolled ++ logged.log.filterMap SequenceEvent.gone).map
    UInt32.toNat).Perm (List.range' 1 (drawn logged.log))
  nonzero : ∀ value fresh, .issue value fresh ∈ logged.log → value ≠ 0
  once : logged.log.Pairwise Spent

def Few (log : List SequenceEvent) : Prop := drawn log < 2 ^ 32 - 1

theorem drawn_append (log later : List SequenceEvent) :
    drawn (log ++ later) = drawn log + drawn later :=
  List.countP_append

theorem few_of_append {log later : List SequenceEvent} (few : Few (log ++ later)) : Few log := by
  simp only [Few, drawn_append] at *
  omega

theorem resourceSequenceGet_cases {data : SequenceData} (nonzero : 0 ∉ data.rolled)
    (counting : data.nextValue ≠ 0) :
    (∃ value rest, data.rolledBack = some (value :: rest) ∧ sequenceFresh data = false ∧
        resourceSequenceGet data = (value, { data with rolledBack := some rest })) ∨
      (data.rolled = [] ∧ sequenceFresh data = true ∧
        resourceSequenceGet data =
          (data.nextValue, { data with nextValue := data.nextValue + 1 })) := by
  unfold resourceSequenceGet sequenceFresh
  cases queue : data.rolledBack with
  | none => simp [SequenceData.rolled, queue, sequenceDraw, counting]
  | some values =>
    cases values with
    | nil => simp [SequenceData.rolled, queue, sequenceDraw, counting]
    | cons value rest =>
      have positive : value ≠ 0 := by
        rintro rfl
        simp [SequenceData.rolled, queue] at nonzero
      simp [positive]

theorem accounted_given {logged : Logged SequenceData SequenceEvent} (accounted : Accounted logged)
    {value : UInt32} (member : value ∈ logged.state.held ++ logged.state.rolled ++
      logged.log.filterMap SequenceEvent.gone) :
    0 < value ∧ value < logged.state.nextValue := by
  have inside := accounted.conserved.mem_iff.mp (List.mem_map_of_mem member)
  rw [List.mem_range'_1] at inside
  rw [UInt32.lt_iff_toNat_lt, UInt32.lt_iff_toNat_lt, accounted.next, UInt32.toNat_zero]
  omega

def sequenceIssue (data : SequenceData) : SequenceEvent :=
  .issue (resourceSequenceGet data).1 (sequenceFresh data)

theorem drawn_issue (log : List SequenceEvent) (value : UInt32) (fresh : Bool) :
    drawn (log ++ [.issue value fresh]) = drawn log + if fresh then 1 else 0 := by
  cases fresh <;> simp [drawn, SequenceEvent.fresh]

theorem accounted_get {logged : Logged SequenceData SequenceEvent} (accounted : Accounted logged)
    (few : Few (logged.log ++ [sequenceIssue logged.state])) :
    (resourceSequenceGet logged.state).2.nextValue.toNat =
        drawn (logged.log ++ [sequenceIssue logged.state]) + 1 ∧
      (((resourceSequenceGet logged.state).1 :: ((resourceSequenceGet logged.state).2.held ++
          (resourceSequenceGet logged.state).2.rolled ++ logged.log.filterMap
            SequenceEvent.gone)).map
        UInt32.toNat).Perm
            (List.range' 1 (drawn (logged.log ++ [sequenceIssue logged.state]))) := by
  have next := accounted.next
  have nonzero : 0 ∉ logged.state.rolled := by
    intro member
    have given := accounted_given accounted
      (List.mem_append_left _ (List.mem_append_right _ member))
    exact absurd given.1 (by decide)
  have counting : logged.state.nextValue ≠ 0 := by
    intro zero
    simp [zero] at next
  simp only [sequenceIssue, drawn_issue, Few] at few ⊢
  obtain ⟨value, rest, queue, stale, got⟩ | ⟨empty, fresh, got⟩ :=
    resourceSequenceGet_cases nonzero counting
  · rw [got, stale]
    refine ⟨next, List.Perm.trans ?_ accounted.conserved⟩
    apply List.Perm.map
    simp only [SequenceData.held, SequenceData.rolled, queue, Option.getD_some, List.append_assoc,
      List.cons_append]
    exact List.perm_middle.symm
  · rw [fresh] at few
    rw [got, fresh]
    simp only [if_true] at few ⊢
    have step : (logged.state.nextValue + 1).toNat = logged.state.nextValue.toNat + 1 := by
      rw [UInt32.toNat_add, next]
      exact Nat.mod_eq_of_lt (by simp; omega)
    refine ⟨by omega, ?_⟩
    rw [List.range'_1_concat, List.map_cons, next, Nat.add_comm 1]
    exact (List.Perm.cons _ accounted.conserved).trans (List.perm_append_singleton _ _).symm

theorem gone_of_commit {log : List SequenceEvent} {value : UInt32} (member : .commit value ∈ log) :
    value ∈ log.filterMap SequenceEvent.gone :=
  List.mem_filterMap.mpr ⟨.commit value, member, rfl⟩

theorem accounted_issue {logged : Logged SequenceData SequenceEvent} (accounted : Accounted logged)
    (few : Few (logged.log ++ [sequenceIssue logged.state])) :
    (∀ value fresh, .issue value fresh ∈ logged.log ++ [sequenceIssue logged.state] → value ≠ 0) ∧
      (logged.log ++ [sequenceIssue logged.state]).Pairwise Spent := by
  have conserved := (accounted_get accounted few).2
  constructor
  · intro value fresh member
    obtain earlier | now := List.mem_append.mp member
    · exact accounted.nonzero value fresh earlier
    · obtain ⟨rfl, _⟩ := SequenceEvent.issue.inj (List.mem_singleton.mp now)
      intro zero
      have inside := conserved.mem_iff.mp (List.mem_map_of_mem List.mem_cons_self)
      simp [zero] at inside
  · rw [List.pairwise_append]
    refine ⟨accounted.once, List.pairwise_singleton _ _, ?_⟩
    rintro earlier member _ now value fresh rfl issued
    rw [List.mem_singleton.mp now] at issued
    obtain ⟨rfl, _⟩ := SequenceEvent.issue.inj issued
    have distinct := List.Nodup.of_map UInt32.toNat (conserved.nodup_iff.mpr List.nodup_range')
    exact (List.nodup_cons.mp distinct).1 (List.mem_append_right _ (gone_of_commit member))

theorem spent_append {log : List SequenceEvent} {event : SequenceEvent} (once : log.Pairwise Spent)
    (other : ∀ value fresh, event ≠ .issue value fresh) : (log ++ [event]).Pairwise Spent := by
  rw [List.pairwise_append]
  refine ⟨once, List.pairwise_singleton _ _, ?_⟩
  intro earlier _ later now value fresh _
  rw [List.mem_singleton.mp now]
  exact other value fresh

theorem accounted_take {logged : Logged SequenceData SequenceEvent} (waiter : ConnLock Unit)
    (accounted : Accounted logged) (few : Few (sequenceLogged.take logged waiter).log) :
    Accounted (sequenceLogged.take logged waiter) := by
  obtain ⟨next, conserved⟩ := accounted_get accounted few
  obtain ⟨nonzero, once⟩ := accounted_issue accounted few
  refine ⟨next, ?_, nonzero, once⟩
  have gone : (sequenceLogged.take logged waiter).log.filterMap SequenceEvent.gone =
      logged.log.filterMap SequenceEvent.gone := by
    simp [sequenceLogged, Manager.logged, sequenceNotes, List.filterMap_cons, SequenceEvent.gone]
  rw [gone]
  simpa [sequenceLogged, Manager.logged, sequenceManager, sequenceNotes, sequenceIssue,
    SequenceData.held,
    SequenceData.rolled] using conserved

theorem accounted_fail {logged : Logged SequenceData SequenceEvent} (waiter : ConnLock Unit)
    (accounted : Accounted logged) (few : Few (sequenceLogged.fail logged waiter).log) :
    Accounted (sequenceLogged.fail logged waiter) := by
  have log : (sequenceLogged.fail logged waiter).log =
      (logged.log ++ [sequenceIssue logged.state]) ++
        [.lose (resourceSequenceGet logged.state).1] := by
    simp [sequenceLogged, Manager.logged, sequenceNotes, sequenceIssue]
  have same : drawn (sequenceLogged.fail logged waiter).log = drawn
      (logged.log ++ [sequenceIssue logged.state]) := by
    rw [log, drawn_append]
    rfl
  rw [log] at few
  obtain ⟨next, conserved⟩ := accounted_get accounted (few_of_append few)
  obtain ⟨nonzero, once⟩ := accounted_issue accounted (few_of_append few)
  refine ⟨?_, ?_, ?_, ?_⟩
  · rw [same]
    exact next
  · rw [same]
    refine List.Perm.trans (List.Perm.map _ ?_) conserved
    simp only [log, List.filterMap_append]
    simp only [sequenceLogged, Manager.logged, sequenceManager, sequenceIssue, SequenceEvent.gone,
      List.filterMap_cons, List.filterMap_nil, List.append_nil, ← List.append_assoc]
    exact List.perm_append_singleton _ _
  · intro value fresh member
    rw [log] at member
    obtain earlier | now := List.mem_append.mp member
    · exact nonzero value fresh earlier
    · cases List.mem_singleton.mp now
  · rw [log]
    exact spent_append once (by simp)

theorem accounted_gone {logged : Logged SequenceData SequenceEvent} {data : SequenceData}
    {event : SequenceEvent} {value : UInt32} (accounted : Accounted logged)
    (held : logged.state.held.Perm (value :: data.held))
    (rolled : data.rolled = logged.state.rolled) (next : data.nextValue = logged.state.nextValue)
    (gone : event.gone = some value) :
    Accounted ⟨data, logged.log ++ [event]⟩ := by
  have other : ∀ issued fresh, event ≠ .issue issued fresh := by
    rintro issued fresh rfl
    cases gone
  have same : drawn (logged.log ++ [event]) = drawn logged.log := by
    cases event <;> first | exact absurd rfl (other _ _) | exact drawn_append _ _
  refine ⟨?_, ?_, ?_, spent_append accounted.once other⟩
  · rw [same, ← accounted.next, ← next]
  · rw [same]
    refine List.Perm.trans (List.Perm.map _ ?_) accounted.conserved
    simp only [List.filterMap_append, List.filterMap_cons, List.filterMap_nil, gone, rolled,
      ← List.append_assoc]
    refine (List.perm_append_singleton _ _).trans ?_
    exact ((held.append_right _).append_right _).symm
  · intro issued fresh member
    obtain earlier | now := List.mem_append.mp member
    · exact accounted.nonzero issued fresh earlier
    · exact absurd (List.mem_singleton.mp now).symm (other issued fresh)

theorem accounted_recycle {logged : Logged SequenceData SequenceEvent} {data : SequenceData}
    {value : UInt32} (accounted : Accounted logged)
    (held : logged.state.held.Perm (value :: data.held))
    (rolled : data.rolled = logged.state.rolled ++ [value])
    (next : data.nextValue = logged.state.nextValue) : Accounted ⟨data, logged.log⟩ := by
  refine ⟨?_, ?_, accounted.nonzero, accounted.once⟩
  · rw [← accounted.next, ← next]
  · refine List.Perm.trans (List.Perm.map _ ?_) accounted.conserved
    apply List.Perm.append_right
    rw [rolled, ← List.append_assoc]
    refine (List.perm_append_singleton _ _).trans ?_
    exact (held.append_right _).symm

theorem accounted_release {logged freed : Logged SequenceData SequenceEvent} {conn : ConnId}
    (accounted : Accounted logged) (released : sequenceLogged.release logged conn = some freed) :
    Accounted freed := by
  obtain ⟨data, found, rfl⟩ := Option.map_eq_some_iff.mp released
  obtain ⟨holder, present, rfl⟩ := Option.map_eq_some_iff.mp found
  have held := (rsrcConnFind_perm present).2.map fun other => other.info.value
  simp only [sequenceNotes, present]
  by_cases rolls : holder.info.rollback = true
  · cases queue : logged.state.rolledBack with
    | none =>
      simp only [rolls, if_true, Option.isSome_none, Bool.false_eq_true, if_false]
      exact accounted_gone accounted held (by simp [SequenceData.rolled, queue]) rfl rfl
    | some values =>
      simp only [rolls, if_true, Option.isSome_some, List.append_nil]
      exact accounted_recycle accounted held (by simp [SequenceData.rolled, queue]) rfl
  · simp only [rolls, Bool.false_eq_true, if_false]
    exact accounted_gone accounted held rfl rfl rfl

end Values

theorem sequenceHistoryStep_sound {inv : Logged SequenceData SequenceEvent → Prop}
    (preserved : Preserved sequenceLogged.toOps inv fun _ => True)
    (release : ∀ logged conn freed, inv logged → sequenceLogged.release logged conn = some freed →
      inv freed) (mark : ∀ (rsrc : SequenceHistory) rollback conn, inv rsrc.data →
      inv (historyMarked rsrc rollback conn).data) (rsrc : SequenceHistory) (call : Call)
    (sound : Sound inv (fun _ => True) rsrc) :
    Sound inv (fun _ => True) (sequenceHistoryStep rsrc call) := by
  cases call with
  | clean conn env => exact rsrcClean_sound preserved release rsrc conn env.sends sound
  | inmsg conn lastStep msg env =>
    simp only [sequenceHistoryStep]
    split
    · exact rsrcLock_sound preserved _ rsrc lastStep msg sound trivial
    · unfold sequenceHistoryUnlock
      split_ifs
      · split
        · exact rsrcClean_sound preserved release _ conn env.sends
            ⟨mark rsrc _ conn sound.data, fun _ _ => trivial⟩
        · exact sound
      · exact sound
    · exact sound

theorem sequenceHistory_sound {inv : Logged SequenceData SequenceEvent → Prop}
    (preserved : Preserved sequenceLogged.toOps inv fun _ => True)
    (release : ∀ logged conn freed, inv logged → sequenceLogged.release logged conn = some freed →
      inv freed) (mark : ∀ (rsrc : SequenceHistory) rollback conn, inv rsrc.data →
      inv (historyMarked rsrc rollback conn).data) (rsrc : SequenceRsrc) (calls : List Call)
    (initial : inv ⟨rsrc.data, []⟩) :
    inv (sequenceHistory rsrc calls).data := by
  have sound := run_invariant sequenceHistoryStep (Sound inv fun _ => True)
    (sequenceHistoryStep_sound preserved release mark) rsrc.logging calls
      ⟨initial, fun _ _ => trivial⟩
  exact sound.data

@[simp] theorem historyMarked_log (rsrc : SequenceHistory) (rollback : Bool) (conn : ConnId) :
    (historyMarked rsrc rollback conn).data.log = rsrc.data.log := rfl

theorem historyMarked_held (rsrc : SequenceHistory) (rollback : Bool) (conn : ConnId) :
    (historyMarked rsrc rollback conn).data.state.held = rsrc.data.state.held := by
  have same := congrArg (List.map Prod.snd)
    (sequenceHeld_mark rollback conn rsrc.data.state.holders)
  simp only [sequenceHeld, List.map_map, Function.comp_def] at same
  exact same

theorem accounted_marked {rsrc : SequenceHistory} (rollback : Bool) (conn : ConnId)
    (accounted : Accounted rsrc.data) : Accounted (historyMarked rsrc rollback conn).data := by
  refine ⟨accounted.next, ?_, accounted.nonzero, accounted.once⟩
  rw [historyMarked_held]
  exact accounted.conserved

theorem accounted_init {name : Name} {rsrc : SequenceRsrc}
    (started : resourceSequenceInit name = .ok rsrc) :
    Accounted ⟨rsrc.data, []⟩ := by
  obtain ⟨total, _, rfl⟩ := resourceSequenceInit_eq started
  have rolled :
      (if rsrcGetTransactional name then some ([] : List UInt32) else none).getD [] = [] := by
    split <;> rfl
  refine ⟨rfl, ?_, by simp, List.Pairwise.nil⟩
  simp [SequenceData.held, SequenceData.rolled, rolled, drawn]

def SequenceData.Slotted (total : Int32) (data : SequenceData) : Prop :=
  data.totalQuantity = total ∧ Slots total data.lockedQuantity data.holders.length

theorem sequence_accounted {name : Name} {rsrc : SequenceRsrc}
    (started : resourceSequenceInit name = .ok rsrc) (calls : List Call)
    (few : Few (sequenceHistory rsrc calls).data.log) :
    Accounted (sequenceHistory rsrc calls).data := by
  refine @sequenceHistory_sound (fun logged => Few logged.log → Accounted logged) ?_ ?_ ?_ rsrc
    calls ?_ few
  · constructor
    · intro logged waiter accounted _ _ later
      exact accounted_take waiter (accounted (few_of_append later)) later
    · intro logged waiter accounted _ _ later
      exact accounted_fail waiter (accounted (few_of_append later)) later
    · intro logged waiter accounted later
      exact accounted later
  · intro logged conn freed accounted released later
    refine accounted_release (accounted ?_) released
    obtain ⟨data, found, rfl⟩ := Option.map_eq_some_iff.mp released
    exact few_of_append later
  · intro rsrc rollback conn accounted later
    exact accounted_marked rollback conn (accounted later)
  · intro _
    exact accounted_init started

theorem slotted_preserved (total : Int32) :
    Preserved sequenceLogged.toOps (fun logged => logged.state.Slotted total) fun _ => True where
  take logged waiter slotted _ can := by
    obtain ⟨capacity, slots⟩ := slotted
    have free : 0 < total - logged.state.lockedQuantity := by
      simpa [sequenceLogged, Manager.logged, sequenceManager, resourceSequenceCanLock, capacity]
        using can
    refine ⟨?_, slots.take free⟩
    rw [← capacity]
    exact (resourceSequenceGet_counters logged.state).1
  fail logged waiter slotted _ _ := by
    obtain ⟨capacity, slots⟩ := slotted
    obtain ⟨kept, locked⟩ := resourceSequenceGet_counters logged.state
    refine ⟨kept.trans capacity, ?_⟩
    simpa [sequenceLogged, Manager.logged, sequenceManager, locked] using slots
  skip logged waiter slotted := slotted

theorem slotted_release {total : Int32} {logged freed : Logged SequenceData SequenceEvent}
    {conn : ConnId} (slotted : logged.state.Slotted total)
    (released : sequenceLogged.release logged conn = some freed) :
    freed.state.Slotted total := by
  obtain ⟨data, found, rfl⟩ := Option.map_eq_some_iff.mp released
  obtain ⟨holder, present, rfl⟩ := Option.map_eq_some_iff.mp found
  obtain ⟨capacity, slots⟩ := slotted
  rw [(rsrcConnFind_perm present).2.length_eq] at slots
  exact ⟨capacity, slots.release⟩

theorem slotted_marked {total : Int32} {rsrc : SequenceHistory} (rollback : Bool) (conn : ConnId)
    (slotted : rsrc.data.state.Slotted total) :
    (historyMarked rsrc rollback conn).data.state.Slotted total := by
  obtain ⟨capacity, slots⟩ := slotted
  have same : (historyMarked rsrc rollback conn).data.state.holders.length =
      rsrc.data.state.holders.length := by
    simpa [SequenceData.held] using congrArg List.length (historyMarked_held rsrc rollback conn)
  exact ⟨capacity, same ▸ slots⟩

theorem sequence_slotted {name : Name} {rsrc : SequenceRsrc}
    (started : resourceSequenceInit name = .ok rsrc) (calls : List Call) :
    (run resourceSequenceStep rsrc calls).data.Slotted rsrc.data.totalQuantity := by
  rw [← sequenceHistory_unlogged]
  refine sequenceHistory_sound (slotted_preserved rsrc.data.totalQuantity) ?_ ?_ rsrc calls ?_
  · exact fun _ _ _ slotted released => slotted_release slotted released
  · exact fun _ rollback conn slotted => slotted_marked rollback conn slotted
  · obtain ⟨total, _, rfl⟩ := resourceSequenceInit_eq started
    exact ⟨rfl, slots_init total⟩

theorem sequence_values_unique {name : Name} {rsrc : SequenceRsrc}
    (started : resourceSequenceInit name = .ok rsrc) (capacity : 0 ≤ rsrc.data.totalQuantity)
    (calls : List Call) (few : drawn (sequenceHistory rsrc calls).data.log < 2 ^ 32 - 1) :
    let final := (run resourceSequenceStep rsrc calls).data
    let log := (sequenceHistory rsrc calls).data.log
    (final.held ++ final.rolled).Nodup ∧
      (∀ earlier value later, log = earlier ++ .commit value :: later → ∀ fresh,
      .issue value fresh ∉ later) ∧
      (∀ value fresh, .issue value fresh ∈ log → value ≠ 0) ∧
      final.lockedQuantity.toInt = final.holders.length ∧
          final.lockedQuantity ≤ rsrc.data.totalQuantity := by
  intro final log
  have accounted := sequence_accounted started calls few
  have same : (sequenceHistory rsrc calls).data.state = final :=
    congrArg Rsrc.data (sequenceHistory_unlogged rsrc calls)
  obtain ⟨_, slots⟩ := sequence_slotted started calls
  refine ⟨?_, ?_, accounted.nonzero, slots.count, slots.le capacity⟩
  · have distinct := List.Nodup.of_map UInt32.toNat
      (accounted.conserved.nodup_iff.mpr List.nodup_range')
    rw [same] at distinct
    exact (List.nodup_append.mp distinct).1
  · intro earlier value later split fresh member
    have once := accounted.once
    rw [show (sequenceHistory rsrc calls).data.log = _ from split] at once
    have after := (List.pairwise_cons.mp (List.pairwise_append.mp once).2.1).1
    exact after _ member value fresh rfl rfl

def sequenceName : Name := ['_', 'S', '_', 'x', '[', '1', ']']

def sequenceOne : SequenceRsrc := ⟨sequenceName, ⟨1, 0, 1, some [], []⟩, []⟩

def sequenceLock (conn : ConnId) : Call := .inmsg conn 8 (msgLock sequenceName .ex 1 1 1) Env.fine

def sequenceUnlock (conn : ConnId) (rollback : Int) (sends : List Rc) : Call :=
  .inmsg conn 8 (msgUnlock sequenceName rollback) { Env.fine with sends }

def recycledCalls : List Call :=
  [sequenceLock 1, sequenceLock 2, sequenceUnlock 1 1 [], sequenceUnlock 2 0 [], sequenceLock 3]

theorem sequence_values_unique_recycled :
    let log : List SequenceEvent := [.issue 1 true, .issue 1 false, .commit 1, .issue 2 true]
    (sequenceHistory sequenceOne recycledCalls).data.log = log ∧
      ∀ earlier value later, log = earlier ++ .commit value :: later → ∀ fresh,
      .issue value fresh ∉ later := by
  refine ⟨by decide, ?_⟩
  exact (@sequence_values_unique sequenceName sequenceOne (by decide) (by decide) recycledCalls
    (by decide)).2.1

end Flom
