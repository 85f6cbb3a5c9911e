import Mathlib.Data.List.Basic

set_option autoImplicit false

namespace Run

variable {S E : Type}

def run (step : S → E → S) : S → List E → S
  | state, [] => state
  | state, event :: rest => run step (step state event) rest

def Along (step : S → E → S) (allowed : S → E → Prop) : S → List E → Prop
  | _, [] => True
  | state, event :: rest => allowed state event ∧ Along step allowed (step state event) rest

instance alongDecidable (step : S → E → S) (allowed : S → E → Prop)
    [decide : ∀ state event, Decidable (allowed state event)] :
    (state : S) → (events : List E) → Decidable (Along step allowed state events)
  | _, [] => isTrue trivial
  | state, event :: rest =>
    haveI := alongDecidable step allowed (step state event) rest
    inferInstanceAs (Decidable (_ ∧ _))

def Sometime (step : S → E → S) (meets : S → E → Prop) : S → List E → Prop
  | _, [] => False
  | state, event :: rest => meets state event ∨ Sometime step meets (step state event) rest

instance sometimeDecidable (step : S → E → S) (meets : S → E → Prop)
    [decide : ∀ state event, Decidable (meets state event)] :
    (state : S) → (events : List E) → Decidable (Sometime step meets state events)
  | _, [] => isFalse id
  | state, event :: rest =>
    haveI := sometimeDecidable step meets (step state event) rest
    inferInstanceAs (Decidable (_ ∨ _))

def ScanAlong (next : S → Nat → E → Option S) (allowed : S → Nat → E → Prop) : S → Nat → List E →
    Prop
  | _, _, [] => True
  | state, id, entry :: rest =>
    allowed state id entry ∧ ∀ after ∈ next state id entry,
      ScanAlong next allowed after (id + 1) rest

instance scanAlongDecidable (next : S → Nat → E → Option S) (allowed : S → Nat → E → Prop)
    [decide : ∀ state id entry, Decidable (allowed state id entry)] :
    (state : S) → (id : Nat) → (entries : List E) →
    Decidable (ScanAlong next allowed state id entries)
  | _, _, [] => isTrue trivial
  | state, id, entry :: rest =>
    haveI : Decidable (∀ after ∈ next state id entry, ScanAlong next allowed after (id + 1) rest) :=
      match next state id entry with
      | none => isTrue (by simp)
      | some after =>
        haveI := scanAlongDecidable next allowed after (id + 1) rest
        decidable_of_iff (ScanAlong next allowed after (id + 1) rest) (by simp)
    inferInstanceAs (Decidable (_ ∧ _))

theorem run_append (step : S → E → S) (state : S) (first second : List E) :
    run step state (first ++ second) = run step (run step state first) second := by
  induction first generalizing state with
  | nil => rfl
  | cons event rest ih => exact ih (step state event)

theorem run_view {T : Type} (view : S → T) {step : S → E → S} {step' : T → E → T}
    (same : ∀ state event, view (step state event) = step' (view state) event) (state : S)
    (events : List E) : view (run step state events) = run step' (view state) events := by
  induction events generalizing state with
  | nil => rfl
  | cons event rest ih => rw [run, run, ih, same]

theorem along_view_iff {T : Type} (view : S → T) {step : S → E → S} {step' : T → E → T}
    {allowed : S → E → Prop} {allowed' : T → E → Prop}
    (same : ∀ state event, view (step state event) = step' (view state) event)
    (invariant : S → Prop) (preserved : ∀ state event, invariant state →
      invariant (step state event))
    (amounts : ∀ state event, invariant state → (allowed state event ↔ allowed' (view state) event))
    {state : S} {events : List E} (initial : invariant state) :
    Along step allowed state events ↔ Along step' allowed' (view state) events := by
  induction events generalizing state with
  | nil => rfl
  | cons event rest ih =>
    rw [Along, Along, amounts state event initial, ih (preserved state event initial), same]

theorem sometime_append {step : S → E → S} {meets : S → E → Prop} {state : S}
    {first second : List E} :
    Sometime step meets state (first ++ second) ↔
      Sometime step meets state first ∨ Sometime step meets (run step state first) second := by
  induction first generalizing state with
  | nil => simp [Sometime, run]
  | cons event rest ih => simp [Sometime, run, ih, or_assoc]

theorem along_append {step : S → E → S} {allowed : S → E → Prop} {state : S}
    {first second : List E} :
    Along step allowed state (first ++ second) ↔
      Along step allowed state first ∧ Along step allowed (run step state first) second := by
  induction first generalizing state with
  | nil => simp [Along, run]
  | cons event rest ih => simp [Along, run, ih, and_assoc]

theorem along_and {step : S → E → S} {first second : S → E → Prop} {state : S} {events : List E} :
    Along step (fun state event => first state event ∧ second state event) state events ↔
      Along step first state events ∧ Along step second state events := by
  induction events generalizing state with
  | nil => simp [Along]
  | cons event rest ih => simp only [Along, ih, and_assoc, and_left_comm]

theorem along_invariant (step : S → E → S) (allowed : S → E → Prop) (invariant : S → Prop)
    (preserved : ∀ state event, invariant state → allowed state event →
      invariant (step state event)) (state : S) (events : List E) (initial : invariant state)
    (along : Along step allowed state events) : invariant (run step state events) := by
  induction events generalizing state with
  | nil => exact initial
  | cons event rest ih =>
    exact ih (step state event) (preserved state event initial along.1) along.2

theorem along_until (step : S → E → S) (allowed : S → E → Prop) (invariant : S → Prop)
    (breaks : E → Prop)
    (preserved : ∀ state event, invariant state → allowed state event → ¬breaks event →
      invariant (step state event))
    (state : S) (events : List E) (initial : invariant state)
    (along : Along step allowed state events) :
    invariant (run step state events) ∨ ∃ event ∈ events, breaks event := by
  induction events generalizing state with
  | nil => exact .inl initial
  | cons event rest ih =>
    by_cases broken : breaks event
    · exact .inr ⟨event, by simp, broken⟩
    · obtain holds | ⟨later, member, broken⟩ :=
        ih (step state event) (preserved state event initial along.1 broken) along.2
      · exact .inl holds
      · exact .inr ⟨later, List.mem_cons_of_mem _ member, broken⟩

theorem along_of_forall (step : S → E → S) (allowed : S → E → Prop) (state : S) (events : List E)
    (every : ∀ event ∈ events, ∀ current, allowed current event) :
    Along step allowed state events := by
  induction events generalizing state with
  | nil => trivial
  | cons event rest ih =>
    exact ⟨every event (by simp) state,
      ih (step state event) fun later member => every later (List.mem_cons_of_mem _ member)⟩

theorem scanAlong_of_forall {next : S → Nat → E → Option S} {allowed : S → Nat → E → Prop}
    {state : S} {id : Nat} {entries : List E}
    (every : ∀ current position entry, allowed current position entry) :
    ScanAlong next allowed state id entries := by
  induction entries generalizing state id with
  | nil => trivial
  | cons entry rest ih => exact ⟨every state id entry, fun _ _ => ih⟩

theorem along_imp {step : S → E → S} {allowed allowed' : S → E → Prop}
    (imp : ∀ state event, allowed state event → allowed' state event) {state : S} {events : List E}
    (along : Along step allowed state events) : Along step allowed' state events := by
  induction events generalizing state with
  | nil => trivial
  | cons event rest ih => exact ⟨imp state event along.1, ih along.2⟩

theorem scanAlong_imp_from {next : S → Nat → E → Option S} {allowed allowed' : S → Nat → E → Prop}
    {start : Nat} (imp : ∀ state id entry, start ≤ id → allowed state id entry →
      allowed' state id entry) {state : S} {entries : List E}
    (along : ScanAlong next allowed state start entries) :
    ScanAlong next allowed' state start entries := by
  induction entries generalizing state start with
  | nil => trivial
  | cons entry rest ih =>
    refine ⟨imp state start entry (Nat.le_refl start) along.1, fun after found => ?_⟩
    exact ih (fun state id entry behind => imp state id entry (Nat.le_of_succ_le behind))
      (along.2 after found)

theorem scanAlong_imp {next : S → Nat → E → Option S} {allowed allowed' : S → Nat → E → Prop}
    (imp : ∀ state id entry, allowed state id entry → allowed' state id entry) {state : S}
    {id : Nat} {entries : List E} (along : ScanAlong next allowed state id entries) :
    ScanAlong next allowed' state id entries :=
  scanAlong_imp_from (fun state id entry _ => imp state id entry) along

theorem scanAlong_with {next : S → Nat → E → Option S} {allowed allowed' : S → Nat → E → Prop}
    (invariant : S → Prop)
    (preserved : ∀ state id entry, invariant state → allowed state id entry →
      ∀ after ∈ next state id entry, invariant after)
    (imp : ∀ state id entry, invariant state → allowed state id entry → allowed' state id entry)
    {state : S} {id : Nat} {entries : List E} (initial : invariant state)
    (along : ScanAlong next allowed state id entries) :
    ScanAlong next allowed' state id entries := by
  induction entries generalizing state id with
  | nil => trivial
  | cons entry rest ih =>
    refine ⟨imp state id entry initial along.1, fun after found => ?_⟩
    exact ih (preserved state id entry initial along.1 after found) (along.2 after found)

theorem along_with {step : S → E → S} {allowed allowed' : S → E → Prop} (invariant : S → Prop)
    (preserved : ∀ state event, invariant state → allowed state event →
      invariant (step state event))
    (imp : ∀ state event, invariant state → allowed state event → allowed' state event) {state : S}
    {events : List E} (initial : invariant state) (along : Along step allowed state events) :
    Along step allowed' state events := by
  induction events generalizing state with
  | nil => trivial
  | cons event rest ih =>
    exact ⟨imp state event initial along.1, ih (preserved state event initial along.1) along.2⟩

theorem run_invariant (step : S → E → S) (invariant : S → Prop)
    (preserved : ∀ state event, invariant state → invariant (step state event))
    (state : S) (events : List E) (initial : invariant state) :
    invariant (run step state events) := by
  apply along_invariant step (fun _ _ => True) invariant
  · intro current event holds _
    exact preserved current event holds
  · exact initial
  · exact along_of_forall step _ state events fun _ _ _ => trivial

theorem forall_prefix_iff_along {step : S → E → S} {allowed : S → E → Prop}
    (invariant good : S → Prop) (preserved : ∀ state event, invariant state →
      invariant (step state event))
    (exact_step : ∀ state event, invariant state → good state →
      (good (step state event) ↔ allowed state event)) {state : S} {events : List E}
    (initial : invariant state) (starts : good state) :
    (∀ earlier, earlier <+: events → good (run step state earlier)) ↔
    Along step allowed state events := by
  induction events generalizing state with
  | nil => simp [Along, run, starts]
  | cons event rest ih =>
    have next := preserved state event initial
    constructor
    · intro every
      have first : good (step state event) := every [event] (by simp)
      refine ⟨(exact_step state event initial starts).mp first, (ih next first).mp ?_⟩
      intro earlier part
      exact every (event :: earlier) (List.cons_prefix_cons.mpr ⟨rfl, part⟩)
    · rintro ⟨here, later⟩ earlier part
      have first := (exact_step state event initial starts).mpr here
      cases earlier with
      | nil => exact starts
      | cons other earlier =>
        have ⟨same, shorter⟩ := List.cons_prefix_cons.mp part
        rw [same]
        exact (ih next first).mpr later earlier shorter

end Run
