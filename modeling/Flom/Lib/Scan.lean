import Mathlib.Data.List.Basic
import Mathlib.Data.List.Perm.Basic
import Mathlib.Tactic.SplitIfs

set_option autoImplicit false

namespace Scan

variable {S W C R : Type}

structure Ops (S W : Type) where
  can : S → W → Bool
  skip : S → W → S
  take : S → W → S
  fail : S → W → S

structure Scanned (S W R : Type) where
  rc : R
  state : S
  queue : List W
  granted : List (S × W)
  failed : Option W

namespace Scanned

def keep (result : Scanned S W R) (waiter : W) : Scanned S W R :=
  { result with queue := waiter :: result.queue }

def grant (result : Scanned S W R) (state : S) (waiter : W) : Scanned S W R :=
  { result with granted := (state, waiter) :: result.granted }

def keepAll (result : Scanned S W R) (skipped : List W) : Scanned S W R :=
  { result with queue := skipped ++ result.queue }

@[simp] theorem keep_rc (result : Scanned S W R) (waiter : W) :
    (result.keep waiter).rc = result.rc := rfl
@[simp] theorem keep_state (result : Scanned S W R) (waiter : W) :
    (result.keep waiter).state = result.state := rfl
@[simp] theorem keep_queue (result : Scanned S W R) (waiter : W) :
    (result.keep waiter).queue = waiter :: result.queue := rfl
@[simp] theorem keep_granted (result : Scanned S W R) (waiter : W) :
    (result.keep waiter).granted = result.granted := rfl
@[simp] theorem keep_failed (result : Scanned S W R) (waiter : W) :
    (result.keep waiter).failed = result.failed := rfl
@[simp] theorem grant_rc (result : Scanned S W R) (state : S) (waiter : W) :
    (result.grant state waiter).rc = result.rc := rfl
@[simp] theorem grant_state (result : Scanned S W R) (state : S) (waiter : W) :
    (result.grant state waiter).state = result.state := rfl
@[simp] theorem grant_queue (result : Scanned S W R) (state : S) (waiter : W) :
    (result.grant state waiter).queue = result.queue := rfl
@[simp] theorem grant_granted (result : Scanned S W R) (state : S) (waiter : W) :
    (result.grant state waiter).granted = (state, waiter) :: result.granted := rfl
@[simp] theorem grant_failed (result : Scanned S W R) (state : S) (waiter : W) :
    (result.grant state waiter).failed = result.failed := rfl

end Scanned

variable [DecidableEq R]

/-- The loop as it is written over an indexed queue: the position stays where it is after a pop.
The fuel counts the records that have not been looked at yet. -/
def indexLoop (ops : Ops S W) (ok : R) : Nat → S → List W → Nat → List R → Scanned S W R
  | 0, state, queue, _, _ => ⟨ok, state, queue, [], none⟩
  | fuel + 1, state, queue, position, sends =>
    match queue[position]? with
    | none => ⟨ok, state, queue, [], none⟩
    | some waiter =>
      if ops.can state waiter then
        let rest := queue.eraseIdx position
        if sends.headD ok = ok then
          (indexLoop ops ok fuel (ops.take state waiter) rest position sends.tail).grant state
            waiter
        else
          ⟨sends.headD ok, ops.fail state waiter, rest, [], some waiter⟩
      else
        indexLoop ops ok fuel (ops.skip state waiter) queue (position + 1) sends

def indexScan (ops : Ops S W) (ok : R) (state : S) (queue : List W) (sends : List R) :
    Scanned S W R :=
  indexLoop ops ok queue.length state queue 0 sends

def scan (ops : Ops S W) (ok : R) : S → List W → List R → Scanned S W R
  | state, [], _ => ⟨ok, state, [], [], none⟩
  | state, waiter :: rest, sends =>
    if ops.can state waiter then
      if sends.headD ok = ok then
        (scan ops ok (ops.take state waiter) rest sends.tail).grant state waiter
      else
        ⟨sends.headD ok, ops.fail state waiter, rest, [], some waiter⟩
    else
      (scan ops ok (ops.skip state waiter) rest sends).keep waiter

theorem indexLoop_append (ops : Ops S W) (ok : R) (state : S) (skipped rest : List W)
    (sends : List R) :
    indexLoop ops ok rest.length state (skipped ++ rest) skipped.length sends =
      (scan ops ok state rest sends).keepAll skipped := by
  induction rest generalizing state skipped sends with
  | nil => simp [indexLoop, scan, Scanned.keepAll]
  | cons waiter rest ih =>
    have here : (skipped ++ waiter :: rest)[skipped.length]? = some waiter := by simp
    have popped : (skipped ++ waiter :: rest).eraseIdx skipped.length = skipped ++ rest := by
      simp [List.eraseIdx_append_of_length_le]
    simp only [List.length_cons, indexLoop, here, popped, scan]
    by_cases can : ops.can state waiter
    · by_cases sent : sends.headD ok = ok
      · simp only [can, sent, if_true, ih]
        rfl
      · simp only [can, sent, if_true, if_false, Scanned.keepAll]
    · have next := ih (ops.skip state waiter) (skipped ++ [waiter]) sends
      simp only [List.append_assoc, List.singleton_append, List.length_append,
        List.length_singleton] at next
      simp [can, next, Scanned.keepAll, Scanned.keep]

theorem indexScan_eq_scan (ops : Ops S W) (ok : R) (state : S) (queue : List W) (sends : List R) :
    indexScan ops ok state queue sends = scan ops ok state queue sends := by
  exact indexLoop_append ops ok state [] queue sends

-- The four outcomes of looking at the head of the queue, as one case rule for every proof below.
theorem scan_cases {motive : S → List W → List R → Scanned S W R → Prop} (ops : Ops S W) (ok : R)
    (done : ∀ state sends, motive state [] sends ⟨ok, state, [], [], none⟩)
    (granted : ∀ state waiter rest sends, ops.can state waiter = true → sends.headD ok = ok →
      motive (ops.take state waiter) rest sends.tail
        (scan ops ok (ops.take state waiter) rest sends.tail) →
      motive state (waiter :: rest) sends
        ((scan ops ok (ops.take state waiter) rest sends.tail).grant state waiter))
    (failed : ∀ state waiter rest sends, ops.can state waiter = true → sends.headD ok ≠ ok →
      motive state (waiter :: rest) sends
        ⟨sends.headD ok, ops.fail state waiter, rest, [], some waiter⟩)
    (skipped : ∀ state waiter rest sends, ops.can state waiter = false →
      motive (ops.skip state waiter) rest sends (scan ops ok (ops.skip state waiter) rest sends) →
      motive state (waiter :: rest) sends
        ((scan ops ok (ops.skip state waiter) rest sends).keep waiter))
    (state : S) (queue : List W) (sends : List R) :
    motive state queue sends (scan ops ok state queue sends) := by
  induction queue generalizing state sends with
  | nil => exact done state sends
  | cons waiter rest ih =>
    rw [scan]
    by_cases can : ops.can state waiter = true
    · by_cases sent : sends.headD ok = ok
      · rw [if_pos can, if_pos sent]
        exact granted state waiter rest sends can sent (ih _ _)
      · rw [if_pos can, if_neg sent]
        exact failed state waiter rest sends can sent
    · rw [if_neg can]
      exact skipped state waiter rest sends (Bool.eq_false_iff.mpr can) (ih _ _)

theorem scan_rc_ok_iff (ops : Ops S W) (ok : R) (state : S) (queue : List W) (sends : List R) :
    (scan ops ok state queue sends).rc = ok ↔ (scan ops ok state queue sends).failed = none := by
  induction state, queue, sends using scan_cases ops ok with
  | done state sends => simp
  | granted state waiter rest sends can sent ih => exact ih
  | failed state waiter rest sends can unsent => simpa using unsent
  | skipped state waiter rest sends cannot ih => exact ih

omit [DecidableEq R] in
theorem headD_of_sent {ok : R} {sends : List R} (sent : ∀ send ∈ sends, send = ok) :
    sends.headD ok = ok := by
  cases sends with
  | nil => rfl
  | cons send later => exact sent send (by simp)

theorem scan_rc_ok_of_sent (ops : Ops S W) (ok : R) (state : S) (queue : List W) (sends : List R)
    (sent : ∀ send ∈ sends, send = ok) : (scan ops ok state queue sends).rc = ok := by
  induction state, queue, sends using scan_cases ops ok with
  | done state sends => rfl
  | granted state waiter rest sends can head ih =>
    exact ih fun send member => sent send (List.mem_of_mem_tail member)
  | failed state waiter rest sends can unsent => exact absurd (headD_of_sent sent) unsent
  | skipped state waiter rest sends cannot ih => exact ih sent

theorem scan_of_sent (ops : Ops S W) (ok : R) (state : S) (queue : List W) (sends : List R)
    (fail : S → W → S) (sent : ∀ send ∈ sends, send = ok) :
    scan ops ok state queue sends = scan { ops with fail := fail } ok state queue sends := by
  induction queue generalizing state sends with
  | nil => rfl
  | cons waiter rest ih =>
    rw [scan, scan]
    simp only [headD_of_sent sent, if_true, ih _ _ sent]
    rw [ih _ _ fun send member => sent send (List.mem_of_mem_tail member)]

theorem scan_queue_perm (ops : Ops S W) (ok : R) (state : S) (queue : List W) (sends : List R) :
    queue.Perm ((scan ops ok state queue sends).granted.map Prod.snd ++
      (scan ops ok state queue sends).failed.toList ++ (scan ops ok state queue sends).queue) := by
  induction state, queue, sends using scan_cases ops ok with
  | done state sends => simp
  | granted state waiter rest sends can sent ih => simpa using ih
  | failed state waiter rest sends can unsent => simp
  | skipped state waiter rest sends cannot ih =>
    simp only [Scanned.keep_granted, Scanned.keep_failed, Scanned.keep_queue]
    exact (ih.cons waiter).trans List.perm_middle.symm

theorem scan_granted_subset (ops : Ops S W) (ok : R) (state : S) (queue : List W) (sends : List R) :
    (scan ops ok state queue sends).granted.map Prod.snd ⊆ queue := by
  intro waiter member
  rw [(scan_queue_perm ops ok state queue sends).mem_iff, List.append_assoc]
  exact List.mem_append_left _ member

theorem scan_queue_sublist (ops : Ops S W) (ok : R) (state : S) (queue : List W) (sends : List R) :
    (scan ops ok state queue sends).queue.Sublist queue := by
  induction state, queue, sends using scan_cases ops ok with
  | done state sends => exact List.Sublist.refl _
  | granted state waiter rest sends can sent ih => exact ih.cons waiter
  | failed state waiter rest sends can unsent => exact List.sublist_cons_self waiter rest
  | skipped state waiter rest sends cannot ih => exact ih.cons_cons waiter

structure Preserved (ops : Ops S W) (inv : S → Prop) (valid : W → Prop) : Prop where
  take : ∀ state waiter, inv state → valid waiter → ops.can state waiter = true →
    inv (ops.take state waiter)
  fail : ∀ state waiter, inv state → valid waiter → ops.can state waiter = true →
    inv (ops.fail state waiter)
  skip : ∀ state waiter, inv state → inv (ops.skip state waiter)

theorem scan_preserved {ops : Ops S W} {inv : S → Prop} {valid : W → Prop}
    (preserved : Preserved ops inv valid) (ok : R) (state : S) (queue : List W) (sends : List R)
    (holds : inv state) (fits : ∀ waiter ∈ queue, valid waiter) :
    inv (scan ops ok state queue sends).state := by
  induction state, queue, sends using scan_cases ops ok with
  | done state sends => exact holds
  | granted state waiter rest sends can sent ih =>
    exact ih (preserved.take state waiter holds (fits waiter (by simp)) can)
      fun other member => fits other (List.mem_cons_of_mem _ member)
  | failed state waiter rest sends can unsent =>
    exact preserved.fail state waiter holds (fits waiter (by simp)) can
  | skipped state waiter rest sends cannot ih =>
    exact ih (preserved.skip state waiter holds)
      fun other member => fits other (List.mem_cons_of_mem _ member)

theorem scan_granted_preserved {ops : Ops S W} {inv : S → Prop} {valid : W → Prop}
    (preserved : Preserved ops inv valid) (ok : R) (state : S) (queue : List W) (sends : List R)
    (holds : inv state) (fits : ∀ waiter ∈ queue, valid waiter) :
    ∀ grant ∈ (scan ops ok state queue sends).granted, inv grant.1 := by
  induction state, queue, sends using scan_cases ops ok with
  | done state sends => simp
  | granted state waiter rest sends can sent ih =>
    rw [Scanned.grant_granted, List.forall_mem_cons]
    exact ⟨holds, ih (preserved.take state waiter holds (fits waiter (by simp)) can)
      fun other member => fits other (List.mem_cons_of_mem _ member)⟩
  | failed state waiter rest sends can unsent => simp
  | skipped state waiter rest sends cannot ih =>
    exact ih (preserved.skip state waiter holds)
      fun other member => fits other (List.mem_cons_of_mem _ member)

theorem scan_failed_iff {ops : Ops S W} {inv : S → Prop} {free : S → Nat}
    (preserved : Preserved ops inv fun _ => True)
    (can : ∀ state waiter, inv state → (ops.can state waiter = true ↔ 0 < free state))
    (take : ∀ state waiter, inv state → ops.can state waiter = true →
      free (ops.take state waiter) + 1 = free state)
    (skip : ∀ state waiter, free (ops.skip state waiter) = free state)
    (ok : R) (state : S) (queue : List W) (sends : List R) (holds : inv state) :
    (scan ops ok state queue sends).failed = none ↔
      ∀ send ∈ sends.take (min queue.length (free state)), send = ok := by
  induction state, queue, sends using scan_cases ops ok with
  | done state sends => simp
  | granted state waiter rest sends room sent ih =>
    have one := take state waiter holds room
    have next := ih (preserved.take state waiter holds trivial room)
    have length : min (waiter :: rest).length (free state) = min rest.length
        (free (ops.take state waiter)) + 1 := by
      rw [List.length_cons]
      omega
    rw [Scanned.grant_failed, next, length]
    cases sends with
    | nil => simp
    | cons send later =>
      have first : send = ok := sent
      simp [first]
  | failed state waiter rest sends room unsent =>
    have some_room := (can state waiter holds).mp room
    have length : min (waiter :: rest).length (free state) = min rest.length
        (free state - 1) + 1 := by
      rw [List.length_cons]
      omega
    rw [length]
    cases sends with
    | nil => exact absurd rfl unsent
    | cons send later =>
      have first : send ≠ ok := unsent
      simp [first]
  | skipped state waiter rest sends full ih =>
    have none_free : free state = 0 := by
      have := can state waiter holds
      simp only [full, Bool.false_eq_true, false_iff] at this
      omega
    rw [Scanned.keep_failed, ih (preserved.skip state waiter holds), skip, none_free]
    simp

def Visits (ops : Ops S W) (ok : R) (P : S → W → Prop) : S → List W → List R → Prop
  | _, [], _ => True
  | state, waiter :: rest, sends =>
    P state waiter ∧
      if ops.can state waiter then
        if sends.headD ok = ok then Visits ops ok P
          (ops.take state waiter) rest sends.tail else True
      else Visits ops ok P (ops.skip state waiter) rest sends

instance visitsDecidable (ops : Ops S W) (ok : R) (P : S → W → Prop)
    [decide : ∀ state waiter, Decidable (P state waiter)] :
    (state : S) → (queue : List W) → (sends : List R) →
    Decidable (Visits ops ok P state queue sends)
  | _, [], _ => isTrue trivial
  | state, waiter :: rest, sends =>
    haveI := visitsDecidable ops ok P (ops.take state waiter) rest sends.tail
    haveI := visitsDecidable ops ok P (ops.skip state waiter) rest sends
    inferInstanceAs (Decidable (P state waiter ∧
      if ops.can state waiter then
        if sends.headD ok = ok then Visits ops ok P
          (ops.take state waiter) rest sends.tail else True
      else Visits ops ok P (ops.skip state waiter) rest sends))

theorem visits_of_preserved {ops : Ops S W} {inv : S → Prop} {valid : W → Prop}
    {P : S → W → Prop} (preserved : Preserved ops inv valid)
    (every : ∀ state waiter, inv state → valid waiter → P state waiter) (ok : R) (state : S)
    (queue : List W) (sends : List R) (holds : inv state) (fits : ∀ waiter ∈ queue, valid waiter) :
    Visits ops ok P state queue sends := by
  induction queue generalizing state sends with
  | nil => trivial
  | cons waiter rest ih =>
    have head := fits waiter (by simp)
    have later : ∀ other ∈ rest, valid other :=
      fun other member => fits other (List.mem_cons_of_mem _ member)
    refine ⟨every state waiter holds head, ?_⟩
    split_ifs with can sent
    · exact ih _ _ (preserved.take state waiter holds head can) later
    · exact ih _ _ (preserved.skip state waiter holds) later

structure PreservedWhere (ops : Ops S W) (P : S → W → Prop) (inv : S → Prop) : Prop where
  take : ∀ state waiter, inv state → P state waiter → ops.can state waiter = true →
    inv (ops.take state waiter)
  fail : ∀ state waiter, inv state → P state waiter → ops.can state waiter = true →
    inv (ops.fail state waiter)
  skip : ∀ state waiter, inv state → inv (ops.skip state waiter)

theorem scan_preserved_where {ops : Ops S W} {P : S → W → Prop} {inv : S → Prop}
    (preserved : PreservedWhere ops P inv) (ok : R) (state : S) (queue : List W) (sends : List R)
    (holds : inv state) (visits : Visits ops ok P state queue sends) :
    inv (scan ops ok state queue sends).state := by
  induction state, queue, sends using scan_cases ops ok with
  | done state sends => exact holds
  | granted state waiter rest sends can sent ih =>
    obtain ⟨here, later⟩ := visits
    rw [if_pos can, if_pos sent] at later
    exact ih (preserved.take state waiter holds here can) later
  | failed state waiter rest sends can unsent =>
    exact preserved.fail state waiter holds visits.1 can
  | skipped state waiter rest sends cannot ih =>
    have later := visits.2
    rw [if_neg (by simp [cannot])] at later
    exact ih (preserved.skip state waiter holds) later

def EverySent (ops : Ops S W) (ok : R) : S → List W → List R → Prop
  | _, [], _ => True
  | state, waiter :: rest, sends =>
    if ops.can state waiter then
      sends.headD ok = ok ∧ EverySent ops ok (ops.take state waiter) rest sends.tail
    else EverySent ops ok (ops.skip state waiter) rest sends

instance everySentDecidable (ops : Ops S W) (ok : R) :
    (state : S) → (queue : List W) → (sends : List R) →
    Decidable (EverySent ops ok state queue sends)
  | _, [], _ => isTrue trivial
  | state, waiter :: rest, sends =>
    haveI := everySentDecidable ops ok (ops.take state waiter) rest sends.tail
    haveI := everySentDecidable ops ok (ops.skip state waiter) rest sends
    inferInstanceAs (Decidable (if ops.can state waiter then
      sends.headD ok = ok ∧ EverySent ops ok (ops.take state waiter) rest sends.tail
    else EverySent ops ok (ops.skip state waiter) rest sends))

theorem everySent_iff (ops : Ops S W) (ok : R) (state : S) (queue : List W) (sends : List R) :
    EverySent ops ok state queue sends ↔ (scan ops ok state queue sends).failed = none := by
  induction state, queue, sends using scan_cases ops ok with
  | done state sends => simp [EverySent]
  | granted state waiter rest sends can sent ih =>
    rw [EverySent, if_pos can, Scanned.grant_failed, ← ih]
    exact and_iff_right sent
  | failed state waiter rest sends can unsent =>
    rw [EverySent, if_pos can]
    simp only [reduceCtorEq, iff_false, not_and]
    exact fun sent => absurd sent unsent
  | skipped state waiter rest sends cannot ih =>
    rw [EverySent, if_neg (by simp [cannot]), Scanned.keep_failed, ih]

end Scan
