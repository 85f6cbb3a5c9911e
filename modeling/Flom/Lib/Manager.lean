import Flom.Lib.Scan

set_option autoImplicit false

namespace Scan

/-- A queue in front of a state whose holders are released one client at a time. -/
structure Manager (S W C : Type) extends Ops S W where
  conn : W → C
  release : S → C → Option S

variable {S W C R H : Type} [DecidableEq C] [DecidableEq R]

def Manager.clean (m : Manager S W C) (ok : R) (state : S) (queue : List W) (client : C)
    (sends : List R) : Scanned S W R :=
  match m.release state client with
  | some freed => indexScan m.toOps ok freed queue sends
  | none => ⟨ok, state, queue.eraseP fun waiter => m.conn waiter = client, [], none⟩

theorem Manager.clean_of_some (m : Manager S W C) (ok : R) (state freed : S) (queue : List W)
    (client : C) (sends : List R) (released : m.release state client = some freed) :
    m.clean ok state queue client sends = scan m.toOps ok freed queue sends := by
  simp only [Manager.clean, released, indexScan_eq_scan]

theorem Manager.clean_of_none (m : Manager S W C) (ok : R) (state : S) (queue : List W)
    (client : C) (sends : List R) (kept : m.release state client = none) :
    m.clean ok state queue client sends =
      ⟨ok, state, queue.eraseP fun waiter => m.conn waiter = client, [], none⟩ := by
  simp only [Manager.clean, kept]

-- While every send succeeds the failure branch is dead, so it may be taken to be anything.
theorem Manager.clean_of_sent (m : Manager S W C) (ok : R) (state : S) (queue : List W) (client : C)
    (sends : List R) (sent : ∀ send ∈ sends, send = ok) :
    m.clean ok state queue client sends =
      { m with fail := m.take }.clean ok state queue client sends := by
  cases released : m.release state client with
  | some freed =>
    simp only [Manager.clean, released, indexScan_eq_scan]
    exact scan_of_sent m.toOps ok freed queue sends m.take sent
  | none => simp only [Manager.clean, released]

theorem Manager.clean_queue_sublist (m : Manager S W C) (ok : R) (state : S) (queue : List W)
    (client : C) (sends : List R) :
    (m.clean ok state queue client sends).queue.Sublist queue := by
  cases released : m.release state client with
  | some freed =>
    rw [m.clean_of_some ok state freed queue client sends released]
    exact scan_queue_sublist m.toOps ok freed queue sends
  | none =>
    rw [m.clean_of_none ok state queue client sends released]
    exact List.eraseP_sublist

theorem Manager.clean_granted_subset (m : Manager S W C) (ok : R) (state : S) (queue : List W)
    (client : C) (sends : List R) :
    (m.clean ok state queue client sends).granted.map Prod.snd ⊆ queue := by
  cases released : m.release state client with
  | some freed =>
    rw [m.clean_of_some ok state freed queue client sends released]
    exact scan_granted_subset m.toOps ok freed queue sends
  | none =>
    rw [m.clean_of_none ok state queue client sends released]
    simp

theorem Manager.clean_preserved (m : Manager S W C) {inv : S → Prop} {valid : W → Prop}
    (preserved : Preserved m.toOps inv valid)
    (release : ∀ state client freed, inv state → m.release state client = some freed → inv freed)
    (ok : R) (state : S) (queue : List W) (client : C) (sends : List R) (holds : inv state)
    (fits : ∀ waiter ∈ queue, valid waiter) :
    inv (m.clean ok state queue client sends).state := by
  cases released : m.release state client with
  | some freed =>
    rw [m.clean_of_some ok state freed queue client sends released]
    exact scan_preserved preserved ok freed queue sends
      (release state client freed holds released) fits
  | none =>
    rw [m.clean_of_none ok state queue client sends released]
    exact holds

structure Ledger (m : Manager S W C) (H : Type) where
  held : S → List (C × H)
  item : S → W → H
  take_held : ∀ state waiter, m.can state waiter = true →
    (held (m.take state waiter)).Perm ((m.conn waiter, item state waiter) :: held state)
  skip_held : ∀ state waiter, held (m.skip state waiter) = held state
  fail_held : ∀ state waiter, m.can state waiter = true →
    (held (m.fail state waiter)).Perm (held state) ∨
      (held (m.fail state waiter)).Perm ((m.conn waiter, item state waiter) :: held state)
  release_held : ∀ state client freed, m.release state client = some freed →
    ∃ held_item, (held state).Perm ((client, held_item) :: held freed)

namespace Ledger

variable {m : Manager S W C} (l : Ledger m H)

def heldBy (state : S) (client : C) : List (C × H) :=
  (l.held state).filter fun entry => entry.1 = client

def waitingBy (m : Manager S W C) (queue : List W) (client : C) : List W :=
  queue.filter fun waiter => m.conn waiter = client

def grantedTo (m : Manager S W C) (granted : List (S × W)) (client : C) : List (S × W) :=
  granted.filter fun grant => m.conn grant.2 = client

def records (state : S) (queue : List W) (client : C) : Nat :=
  (l.heldBy state client).length + (waitingBy m queue client).length

theorem records_eq_count (state : S) (queue : List W) (client : C) :
    l.records state queue client =
      ((l.held state).map Prod.fst).count client + (queue.map m.conn).count client := by
  simp only [records, heldBy, waitingBy, List.count, List.countP_map,
    ← List.countP_eq_length_filter]
  rfl

theorem take_heldBy (state : S) (waiter : W) (client : C) (can : m.can state waiter = true) :
    (l.heldBy (m.take state waiter) client).Perm
      ((if m.conn waiter = client then [(m.conn waiter, l.item state waiter)] else []) ++
        l.heldBy state client) := by
  have same := (l.take_held state waiter can).filter fun entry => entry.1 = client
  by_cases mine : m.conn waiter = client <;> simpa [heldBy, mine] using same

theorem waitingBy_cons (waiter : W) (queue : List W) (client : C) :
    waitingBy m (waiter :: queue) client =
      (if m.conn waiter = client then [waiter] else []) ++ waitingBy m queue client := by
  by_cases mine : m.conn waiter = client <;> simp [waitingBy, mine]

theorem grantedTo_cons (state : S) (waiter : W) (granted : List (S × W)) (client : C) :
    grantedTo m ((state, waiter) :: granted) client =
      (if m.conn waiter = client then [(state, waiter)] else []) ++ grantedTo m granted client := by
  by_cases mine : m.conn waiter = client <;> simp [grantedTo, mine]

structure Untouched (granted : List (S × W)) (state : S) (queue : List W) (state' : S)
    (queue' : List W) (client : C) : Prop where
  held : (l.heldBy state' client).Perm
    ((grantedTo m granted client).map (fun grant => (m.conn grant.2, l.item grant.1 grant.2)) ++
      l.heldBy state client)
  waiting : (waitingBy m queue client).Perm
    ((grantedTo m granted client).map Prod.snd ++ waitingBy m queue' client)

theorem untouched_refl (state : S) (queue : List W) (client : C) :
    l.Untouched [] state queue state queue client := by
  constructor <;> simp [grantedTo]

theorem untouched_trans {granted granted' : List (S × W)} {first second third : S}
    {queue₁ queue₂ queue₃ : List W} {client : C}
    (before : l.Untouched granted first queue₁ second queue₂ client)
    (after : l.Untouched granted' second queue₂ third queue₃ client) :
    l.Untouched (granted ++ granted') first queue₁ third queue₃ client := by
  constructor
  · have both := after.held.trans (before.held.append_left _)
    simp only [grantedTo, List.filter_append, List.map_append, List.append_assoc] at both ⊢
    exact both.trans (List.perm_append_comm_assoc _ _ _)
  · have both := before.waiting.trans (after.waiting.append_left _)
    simpa only [grantedTo, List.filter_append, List.map_append, List.append_assoc] using both

theorem untouched_records {granted : List (S × W)} {state state' : S} {queue queue' : List W}
    {client : C} (same : l.Untouched granted state queue state' queue' client) :
    l.records state' queue' client = l.records state queue client := by
  have held := same.held.length_eq
  have waiting := same.waiting.length_eq
  simp only [List.length_append, List.length_map] at held waiting
  simp only [records]
  omega

theorem untouched_of_held {state state' : S} {client : C} (queue : List W)
    (same : (l.heldBy state' client).Perm (l.heldBy state client)) :
    l.Untouched [] state queue state' queue client := by
  constructor <;> simp [grantedTo, same]

theorem fail_heldBy (state : S) (waiter : W) (client : C) (can : m.can state waiter = true)
    (other : m.conn waiter ≠ client) :
    (l.heldBy (m.fail state waiter) client).Perm (l.heldBy state client) := by
  obtain same | same := l.fail_held state waiter can
  · exact same.filter _
  · simpa [heldBy, other] using same.filter fun entry => entry.1 = client

theorem scan_untouched (ok : R) (state : S) (queue : List W) (sends : List R) (client : C)
    (other : ∀ waiter ∈ (scan m.toOps ok state queue sends).failed, m.conn waiter ≠ client) :
    l.Untouched (scan m.toOps ok state queue sends).granted state queue
      (scan m.toOps ok state queue sends).state
          (scan m.toOps ok state queue sends).queue client := by
  induction state, queue, sends using scan_cases m.toOps ok with
  | done state sends => exact l.untouched_refl state [] client
  | granted state waiter rest sends can sent ih =>
    have later := ih other
    have here := l.take_heldBy state waiter client can
    constructor
    · refine later.held.trans ((here.append_left _).trans ?_)
      by_cases mine : m.conn waiter = client
      · simp [grantedTo_cons, mine]
      · simp [grantedTo_cons, mine]
    · simp only [Scanned.grant_granted, Scanned.grant_queue, grantedTo_cons, waitingBy_cons]
      by_cases mine : m.conn waiter = client
      · simpa [mine] using later.waiting
      · simpa [mine] using later.waiting
  | failed state waiter rest sends can unsent =>
    have foreign := other waiter rfl
    have held := l.fail_heldBy state waiter client can foreign
    constructor
    · simpa [grantedTo] using held
    · simp [grantedTo, waitingBy_cons, foreign]
  | skipped state waiter rest sends cannot ih =>
    have later := ih other
    constructor
    · simpa [heldBy, l.skip_held] using later.held
    · simp only [Scanned.keep_granted, Scanned.keep_queue, waitingBy_cons]
      exact (later.waiting.append_left _).trans (List.perm_append_comm_assoc _ _ _)

omit [DecidableEq C] in
theorem scan_held_subset (ok : R) (state : S) (queue : List W) (sends : List R) :
    l.held state ⊆ l.held (scan m.toOps ok state queue sends).state := by
  induction state, queue, sends using scan_cases m.toOps ok with
  | done state sends => exact List.Subset.refl _
  | granted state waiter rest sends can sent ih =>
    intro entry member
    exact ih ((l.take_held state waiter can).mem_iff.mpr (List.mem_cons_of_mem _ member))
  | failed state waiter rest sends can unsent =>
    intro entry member
    obtain same | same := l.fail_held state waiter can
    · exact same.mem_iff.mpr member
    · exact same.mem_iff.mpr (List.mem_cons_of_mem _ member)
  | skipped state waiter rest sends cannot ih =>
    rwa [l.skip_held] at ih

omit [DecidableEq C] in
theorem scan_held (ok : R) (state : S) (queue : List W) (sends : List R)
    (told : (scan m.toOps ok state queue sends).failed = none) :
    ((l.held (scan m.toOps ok state queue sends).state).map Prod.fst).Perm
      ((scan m.toOps ok state queue sends).granted.map (fun grant => m.conn grant.2) ++
        (l.held state).map Prod.fst) := by
  induction state, queue, sends using scan_cases m.toOps ok with
  | done state sends => exact List.Perm.refl _
  | granted state waiter rest sends can sent ih =>
    have taken := ((l.take_held state waiter can).map Prod.fst).append_left
      ((scan m.toOps ok (m.take state waiter) rest sends.tail).granted.map fun grant =>
        m.conn grant.2)
    exact ((ih told).trans taken).trans List.perm_middle
  | failed state waiter rest sends can unsent => cases told
  | skipped state waiter rest sends cannot ih =>
    have later := ih told
    rwa [l.skip_held] at later

omit [DecidableEq C] in
theorem scan_granted_held (ok : R) (state : S) (queue : List W) (sends : List R) :
    ∀ grant ∈ (scan m.toOps ok state queue sends).granted,
      m.conn grant.2 ∈ (l.held (scan m.toOps ok state queue sends).state).map Prod.fst := by
  induction state, queue, sends using scan_cases m.toOps ok with
  | done state sends => simp
  | granted state waiter rest sends can sent ih =>
    simp only [Scanned.grant_granted, Scanned.grant_state, List.forall_mem_cons]
    refine ⟨?_, ih⟩
    have taken := (l.take_held state waiter can).mem_iff.mpr List.mem_cons_self
    exact List.mem_map_of_mem (l.scan_held_subset ok (m.take state waiter) rest sends.tail taken)
  | failed state waiter rest sends can unsent => simp
  | skipped state waiter rest sends cannot ih => exact ih

theorem clean_granted_held (ok : R) (state : S) (queue : List W) (client : C) (sends : List R) :
    ∀ grant ∈ (m.clean ok state queue client sends).granted,
      m.conn grant.2 ∈ (l.held (m.clean ok state queue client sends).state).map Prod.fst := by
  cases released : m.release state client with
  | some freed =>
    rw [m.clean_of_some ok state freed queue client sends released]
    exact l.scan_granted_held ok freed queue sends
  | none =>
    rw [m.clean_of_none ok state queue client sends released]
    simp

theorem release_heldBy {state freed : S} {client : C} (other : C)
    (released : m.release state client = some freed) :
    (l.heldBy state other).length =
      (l.heldBy freed other).length + (if client = other then 1 else 0) := by
  obtain ⟨held_item, same⟩ := l.release_held state client freed released
  have length := (same.filter fun entry => entry.1 = other).length_eq
  by_cases mine : client = other <;> simpa [heldBy, mine] using length

theorem release_heldBy_other {state freed : S} {client other : C} (foreign : client ≠ other)
    (released : m.release state client = some freed) :
    (l.heldBy freed other).Perm (l.heldBy state other) := by
  obtain ⟨held_item, same⟩ := l.release_held state client freed released
  simpa [heldBy, foreign] using (same.filter fun entry => entry.1 = other).symm

theorem waitingBy_eraseP_other (queue : List W) {client other : C} (foreign : client ≠ other) :
    waitingBy m (queue.eraseP fun waiter => m.conn waiter = client) other =
    waitingBy m queue other := by
  induction queue with
  | nil => rfl
  | cons waiter rest ih =>
    by_cases mine : m.conn waiter = client
    · rw [List.eraseP_cons_of_pos (by simpa using mine), waitingBy_cons, if_neg (mine ▸ foreign)]
      rfl
    · rw [List.eraseP_cons_of_neg (by simpa using mine), waitingBy_cons, waitingBy_cons, ih]

theorem waitingBy_eraseP_self (queue : List W) (client : C) :
    (waitingBy m (queue.eraseP fun waiter => m.conn waiter = client) client).length =
      (waitingBy m queue client).length - 1 := by
  induction queue with
  | nil => rfl
  | cons waiter rest ih =>
    by_cases mine : m.conn waiter = client
    · rw [List.eraseP_cons_of_pos (by simpa using mine), waitingBy_cons, if_pos mine]
      simp
    · rw [List.eraseP_cons_of_neg (by simpa using mine), waitingBy_cons, waitingBy_cons,
        if_neg mine]
      simpa using ih

theorem clean_untouched (ok : R) (state : S) (queue : List W) (client other : C) (sends : List R)
    (foreign : client ≠ other)
    (alive : ∀ waiter ∈ (m.clean ok state queue client sends).failed, m.conn waiter ≠ other) :
    l.Untouched (m.clean ok state queue client sends).granted state queue
      (m.clean ok state queue client sends).state
          (m.clean ok state queue client sends).queue other := by
  cases released : m.release state client with
  | some freed =>
    rw [m.clean_of_some ok state freed queue client sends released] at alive ⊢
    have freeing := l.untouched_of_held queue (l.release_heldBy_other foreign released)
    exact l.untouched_trans freeing (l.scan_untouched ok freed queue sends other alive)
  | none =>
    rw [m.clean_of_none ok state queue client sends released]
    constructor
    · simp [grantedTo]
    · simp [grantedTo, waitingBy_eraseP_other queue foreign]

theorem clean_records (ok : R) (state : S) (queue : List W) (client : C) (sends : List R)
    (done : (m.clean ok state queue client sends).rc = ok) :
    l.records (m.clean ok state queue client sends).state
        (m.clean ok state queue client sends).queue client = 0 ↔
      l.records state queue client ≤ 1 ∧
        (m.release state client = none → l.heldBy state client = []) := by
  cases released : m.release state client with
  | some freed =>
    rw [m.clean_of_some ok state freed queue client sends released] at done ⊢
    have unfailed := (scan_rc_ok_iff m.toOps ok freed queue sends).mp done
    have same := l.untouched_records
      (l.scan_untouched ok freed queue sends client (by simp [unfailed]))
    have one := l.release_heldBy client released
    simp only [if_true] at one
    have before : l.records state queue client = l.records freed queue client + 1 := by
      simp only [records]
      omega
    simp only [same, before, reduceCtorEq, false_implies, and_true]
    omega
  | none =>
    rw [m.clean_of_none ok state queue client sends released]
    have erased := waitingBy_eraseP_self (m := m) queue client
    simp only [records, true_implies, ← List.length_eq_zero_iff] at erased ⊢
    omega

end Ledger

end Scan
