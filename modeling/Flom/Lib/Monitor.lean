import Flom.Lib.Run
import Mathlib.Data.List.Induction

set_option autoImplicit false

namespace Monitor

variable {Q E S C : Type}

def watch (expect : Q → E → Option Q) : Q → List E → Option Q
  | reached, [] => some reached
  | reached, event :: rest => (expect reached event).bind fun after => watch expect after rest

def emitted (step : S → C → S × List E) : S → List C → List E
  | _, [] => []
  | state, call :: rest => (step state call).2 ++ emitted step (step state call).1 rest

variable {expect : Q → E → Option Q} {step : S → C → S × List E}

theorem watch_append (reached : Q) (first second : List E) :
    watch expect reached (first ++ second) = (watch expect reached first).bind fun after =>
    watch expect after second := by
  induction first generalizing reached with
  | nil => rfl
  | cons event rest ih =>
    simp only [List.cons_append, watch, Option.bind_assoc]
    exact Option.bind_congr fun after _ => ih after

theorem watch_trans {first second third : Q} {earlier later : List E}
    (before : watch expect first earlier = some second)
    (after : watch expect second later = some third) :
    watch expect first (earlier ++ later) = some third := by
  rw [watch_append, before]
  exact after

theorem watch_still {reached : Q} {events : List E}
    (still : ∀ event ∈ events, expect reached event = some reached) :
    watch expect reached events = some reached := by
  induction events with
  | nil => rfl
  | cons event rest ih =>
    rw [watch, still event List.mem_cons_self]
    exact ih fun later member => still later (List.mem_cons_of_mem _ member)

theorem watch_split {reached final : Q} {before behind : List E} {event : E}
    (watched : watch expect reached (before ++ event :: behind) = some final) :
    ∃ here after, watch expect reached before = some here ∧ expect here event = some after ∧
      watch expect after behind = some final := by
  rw [watch_append] at watched
  obtain ⟨here, seen, rest⟩ := Option.bind_eq_some_iff.mp watched
  obtain ⟨after, taken, behind⟩ := Option.bind_eq_some_iff.mp rest
  exact ⟨here, after, seen, taken, behind⟩

theorem watch_invariant {initial : Q} (holds : Q → List E → Prop) (start : holds initial [])
    (preserved : ∀ reached seen event after, holds reached seen →
      expect reached event = some after →
      holds after (seen ++ [event])) :
    ∀ events reached, watch expect initial events = some reached → holds reached events := by
  intro events
  induction events using List.reverseRecOn with
  | nil =>
    rintro reached ⟨⟩
    exact start
  | append_singleton earlier event ih =>
    intro reached watched
    obtain ⟨here, after, seen, taken, done⟩ := watch_split watched
    cases done
    exact preserved here earlier event reached (ih here seen) taken

-- A machine does what a monitor expects when every step takes related states to related states
-- over what it emits; then the monitor accepts every run.
theorem watch_emitted (related : S → Q → Prop)
    (follows : ∀ state call reached, related state reached →
      ∃ after, watch expect reached (step state call).2 = some after ∧
      related (step state call).1 after)
    {state : S} {reached : Q} (start : related state reached) (calls : List C) :
    ∃ after, watch expect reached (emitted step state calls) = some after ∧
      related (Run.run (fun state call => (step state call).1) state calls) after := by
  induction calls generalizing state reached with
  | nil => exact ⟨reached, rfl, start⟩
  | cons call rest ih =>
    obtain ⟨middle, seen, holds⟩ := follows state call reached start
    obtain ⟨after, later, final⟩ := ih holds
    exact ⟨after, watch_trans seen later, final⟩

theorem emitted_invariant (holds : S → List E → Prop)
    (preserved : ∀ state call seen, holds state seen →
      holds (step state call).1 (seen ++ (step state call).2)) {state : S} {seen : List E}
    (start : holds state seen) (calls : List C) :
    holds (Run.run (fun state call => (step state call).1) state calls)
      (seen ++ emitted step state calls) := by
  induction calls generalizing state seen with
  | nil => simpa [emitted, Run.run] using start
  | cons call rest ih =>
    have later := ih (preserved state call seen start)
    rwa [List.append_assoc] at later

theorem emitted_all (holds : S → Prop) (fine : E → Prop) {calls : List C}
    (preserved : ∀ state, holds state → ∀ call ∈ calls,
      holds (step state call).1 ∧ ∀ event ∈ (step state call).2, fine event)
    {state : S} (start : holds state) : ∀ event ∈ emitted step state calls, fine event := by
  induction calls generalizing state with
  | nil => exact fun event member => absurd member List.not_mem_nil
  | cons call rest ih =>
    obtain ⟨kept, first⟩ := preserved state start call List.mem_cons_self
    have later := ih (fun state holds call member =>
      preserved state holds call (List.mem_cons_of_mem _ member)) kept
    intro event member
    exact (List.mem_append.mp member).elim (first event) (later event)

end Monitor
