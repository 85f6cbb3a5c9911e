import Flom.Lib.Manager

set_option autoImplicit false

namespace Scan

variable {S W C R : Type} [DecidableEq C] [DecidableEq R]

def Quiet (ops : Ops S W) (state : S) (queue : List W) : Prop :=
  ∀ waiter ∈ queue, ops.can state waiter = false

instance (ops : Ops S W) (state : S) (queue : List W) : Decidable (Quiet ops state queue) :=
  inferInstanceAs (Decidable (∀ waiter ∈ queue, ops.can state waiter = false))

/-- Granting never enables anybody: what can be granted afterwards could be granted before. -/
structure Antitone (ops : Ops S W) (inv : S → Prop) (valid : W → Prop) : Prop
    extends Preserved ops inv valid where
  take_can : ∀ state waiter other, inv state → valid waiter → valid other →
    ops.can state waiter = true → ops.can (ops.take state waiter) other = true →
    ops.can state other = true
  fail_can : ∀ state waiter other, inv state → valid waiter → valid other →
    ops.can state waiter = true → ops.can (ops.fail state waiter) other = true →
    ops.can state other = true
  skip_can : ∀ state waiter other, ops.can (ops.skip state waiter) other = ops.can state other

def NoneBehind (ops : Ops S W) (ok : R) : S → List W → List R → Prop
  | _, [], _ => True
  | state, waiter :: rest, sends =>
    if ops.can state waiter then
      if sends.headD ok = ok then NoneBehind ops ok (ops.take state waiter) rest sends.tail
      else Quiet ops (ops.fail state waiter) rest
    else NoneBehind ops ok (ops.skip state waiter) rest sends

instance noneBehindDecidable (ops : Ops S W) (ok : R) :
    (state : S) → (queue : List W) → (sends : List R) →
    Decidable (NoneBehind ops ok state queue sends)
  | _, [], _ => isTrue trivial
  | state, waiter :: rest, sends =>
    haveI := noneBehindDecidable ops ok (ops.take state waiter) rest sends.tail
    haveI := noneBehindDecidable ops ok (ops.skip state waiter) rest sends
    inferInstanceAs (Decidable (ite _ (ite _ _ _) _))

def AllTold (ops : Ops S W) (ok : R) : S → List W → List R → Prop
  | _, [], _ => True
  | state, waiter :: rest, sends =>
    if ops.can state waiter then
      sends.headD ok = ok ∧ AllTold ops ok (ops.take state waiter) rest sends.tail
    else AllTold ops ok (ops.skip state waiter) rest sends

instance allToldDecidable (ops : Ops S W) (ok : R) :
    (state : S) → (queue : List W) → (sends : List R) → Decidable (AllTold ops ok state queue sends)
  | _, [], _ => isTrue trivial
  | state, waiter :: rest, sends =>
    haveI := allToldDecidable ops ok (ops.take state waiter) rest sends.tail
    haveI := allToldDecidable ops ok (ops.skip state waiter) rest sends
    inferInstanceAs (Decidable (ite _ (_ ∧ _) _))

omit [DecidableEq R] in
theorem allTold_of_sent (ops : Ops S W) (ok : R) (state : S) (queue : List W) (sends : List R)
    (sent : ∀ send ∈ sends, send = ok) : AllTold ops ok state queue sends := by
  induction queue generalizing state sends with
  | nil => trivial
  | cons waiter rest ih =>
    rw [AllTold]
    by_cases can : ops.can state waiter = true
    · rw [if_pos can]
      exact ⟨headD_of_sent sent, ih _ _ fun send member => sent send (List.mem_of_mem_tail member)⟩
    · rw [if_neg can]
      exact ih _ _ sent

theorem noneBehind_of_allTold (ops : Ops S W) (ok : R) (state : S) (queue : List W) (sends : List R)
    (told : AllTold ops ok state queue sends) : NoneBehind ops ok state queue sends := by
  induction queue generalizing state sends with
  | nil => trivial
  | cons waiter rest ih =>
    rw [AllTold] at told
    rw [NoneBehind]
    by_cases can : ops.can state waiter = true
    · rw [if_pos can] at told ⊢
      rw [if_pos told.1]
      exact ih _ _ told.2
    · rw [if_neg can] at told ⊢
      exact ih _ _ told

theorem quiet_push {ops : Ops S W} {state : S} {queue : List W} {waiter : W}
    (quiet : Quiet ops state queue) (cannot : ops.can state waiter = false) :
    Quiet ops state (queue ++ [waiter]) := by
  intro other member
  obtain earlier | rfl := List.mem_append.mp member |>.imp_right List.mem_singleton.mp
  · exact quiet other earlier
  · exact cannot

theorem quiet_sublist {ops : Ops S W} {state : S} {queue shorter : List W}
    (quiet : Quiet ops state queue) (sublist : shorter.Sublist queue) : Quiet ops state shorter :=
  fun waiter member => quiet waiter (sublist.subset member)

namespace Antitone

variable {ops : Ops S W} {inv : S → Prop} {valid : W → Prop} (order : Antitone ops inv valid)
include order

theorem scan_can (ok : R) (state : S) (queue : List W) (sends : List R) (other : W)
    (holds : inv state) (fits : ∀ waiter ∈ queue, valid waiter)
    (wanted : valid other)
    (can : ops.can (scan ops ok state queue sends).state other = true) :
    ops.can state other = true := by
  induction state, queue, sends using scan_cases ops ok with
  | done state sends => exact can
  | granted state waiter rest sends here sent ih =>
    have head := fits waiter (by simp)
    have later := ih (order.take state waiter holds head here)
      (fun other member => fits other (List.mem_cons_of_mem _ member)) can
    exact order.take_can state waiter other holds head wanted here later
  | failed state waiter rest sends here unsent =>
    exact order.fail_can state waiter other holds (fits waiter (by simp)) wanted here can
  | skipped state waiter rest sends cannot ih =>
    have later := ih (order.skip state waiter holds)
      (fun other member => fits other (List.mem_cons_of_mem _ member)) can
    rwa [order.skip_can] at later

theorem scan_quiet (ok : R) (state : S) (queue : List W) (sends : List R) (holds : inv state)
    (fits : ∀ waiter ∈ queue, valid waiter) :
    Quiet ops (scan ops ok state queue sends).state (scan ops ok state queue sends).queue ↔
      NoneBehind ops ok state queue sends := by
  induction state, queue, sends using scan_cases ops ok with
  | done state sends => simp [Quiet, NoneBehind]
  | granted state waiter rest sends can sent ih =>
    rw [NoneBehind, if_pos can, if_pos sent]
    exact ih (order.take state waiter holds (fits waiter (by simp)) can)
      fun other member => fits other (List.mem_cons_of_mem _ member)
  | failed state waiter rest sends can unsent => rw [NoneBehind, if_pos can, if_neg unsent]
  | skipped state waiter rest sends cannot ih =>
    have later := fun other member => fits other (List.mem_cons_of_mem waiter member)
    rw [NoneBehind, if_neg (by simp [cannot]), ← ih (order.skip state waiter holds) later]
    -- The record just passed over stays refused, because the rest of the scan only grants.
    have passed :
        ops.can (scan ops ok (ops.skip state waiter) rest sends).state waiter = false := by
      by_contra granted
      have before := order.scan_can ok (ops.skip state waiter) rest sends waiter
        (order.skip state waiter holds) later (fits waiter (by simp)) (by simpa using granted)
      rw [order.skip_can, cannot] at before
      exact Bool.false_ne_true before
    simp [Quiet, passed]

theorem take_quiet {state : S} {queue : List W} {waiter : W} (holds : inv state)
    (fits : ∀ other ∈ queue, valid other) (head : valid waiter)
    (can : ops.can state waiter = true) (quiet : Quiet ops state queue) :
    Quiet ops (ops.take state waiter) queue := by
  intro other member
  by_contra granted
  have before := order.take_can state waiter other holds head (fits other member) can
    (by simpa using granted)
  rw [quiet other member] at before
  exact Bool.false_ne_true before

end Antitone

-- A queue that holds nobody who could be served keeps that through a release: either nothing was
-- freed, or the scan that follows looked at everybody.
theorem Manager.clean_quiet (m : Manager S W C) {inv : S → Prop} {valid : W → Prop}
    (order : Antitone m.toOps inv valid)
    (release : ∀ state client freed, inv state → m.release state client = some freed → inv freed)
    (ok : R) (state : S) (queue : List W) (client : C) (sends : List R) (holds : inv state)
    (fits : ∀ waiter ∈ queue, valid waiter) (quiet : Quiet m.toOps state queue) :
    Quiet m.toOps (m.clean ok state queue client sends).state
        (m.clean ok state queue client sends).queue ↔
      ∀ freed, m.release state client = some freed → NoneBehind m.toOps ok freed queue sends := by
  cases released : m.release state client with
  | some freed =>
    rw [m.clean_of_some ok state freed queue client sends released,
      order.scan_quiet ok freed queue sends (release state client freed holds released) fits]
    simp
  | none =>
    rw [m.clean_of_none ok state queue client sends released]
    simpa using quiet_sublist quiet List.eraseP_sublist

end Scan
