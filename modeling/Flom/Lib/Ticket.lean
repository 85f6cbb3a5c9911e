import Flom.Lib.Logged

set_option autoImplicit false

namespace Scan

variable {S W C R : Type}

def Manager.ticketed (m : Manager S W C) : Manager S (Nat × W) C where
  can state waiter := m.can state waiter.2
  skip state waiter := m.skip state waiter.2
  take state waiter := m.take state waiter.2
  fail state waiter := m.fail state waiter.2
  conn waiter := m.conn waiter.2
  release := m.release

def Scanned.unticketed (scanned : Scanned S (Nat × W) R) : Scanned S W R :=
  ⟨scanned.rc, scanned.state, scanned.queue.map Prod.snd, scanned.granted.map fun grant =>
    (grant.1, grant.2.2),
    scanned.failed.map Prod.snd⟩

section

variable [DecidableEq R]

theorem scan_unticketed (m : Manager S W C) (ok : R) (state : S) (queue : List (Nat × W))
    (sends : List R) :
    (scan m.ticketed.toOps ok state queue sends).unticketed =
      scan m.toOps ok state (queue.map Prod.snd) sends := by
  induction queue generalizing state sends with
  | nil => rfl
  | cons waiter rest ih =>
    have granted := ih (m.take state waiter.2) sends.tail
    have skipped := ih (m.skip state waiter.2) sends
    rw [List.map_cons, scan, scan]
    simp only [Manager.ticketed] at granted skipped ⊢
    by_cases can : m.can state waiter.2 = true
    · by_cases sent : sends.headD ok = ok
      · simp only [can, sent, if_true, ← granted]
        rfl
      · simp only [can, sent, if_true, if_false]
        rfl
    · simp only [can, if_false, Bool.false_eq_true, ← skipped]
      rfl

theorem eraseP_unticketed (accept : W → Bool) (queue : List (Nat × W)) :
    (queue.eraseP fun waiter => accept waiter.2).map Prod.snd =
    (queue.map Prod.snd).eraseP accept := by
  rw [List.eraseP_map]
  rfl

theorem Manager.clean_unticketed [DecidableEq C] (m : Manager S W C) (ok : R) (state : S)
    (queue : List (Nat × W)) (client : C) (sends : List R) :
    (m.ticketed.clean ok state queue client sends).unticketed =
      m.clean ok state (queue.map Prod.snd) client sends := by
  cases released : m.release state client with
  | some freed =>
    rw [Manager.clean_of_some m.ticketed ok state freed queue client sends released,
      m.clean_of_some ok state freed _ client sends released, scan_unticketed]
  | none =>
    have erased := eraseP_unticketed (fun waiter => decide (m.conn waiter = client)) queue
    rw [Manager.clean_of_none m.ticketed ok state queue client sends released,
      m.clean_of_none ok state _ client sends released, ← erased]
    rfl

def ticketNotes : Notes S (Nat × W) C Nat where
  take _ waiter := [waiter.1]
  fail _ _ := []
  release _ _ := []

theorem scan_tickets (m : Manager S (Nat × W) C) (ok : R) (logged : Logged S Nat)
    (queue : List (Nat × W)) (sends : List R) :
    (scan (m.logged ticketNotes).toOps ok logged queue sends).state.log =
      logged.log ++ (scan m.toOps ok logged.state queue sends).granted.map fun grant =>
      grant.2.1 := by
  induction queue generalizing logged sends with
  | nil => simp [scan]
  | cons waiter rest ih =>
    have granted := ih ((m.logged ticketNotes).take logged waiter) sends.tail
    have skipped := ih ((m.logged ticketNotes).skip logged waiter) sends
    simp only [Manager.logged, ticketNotes] at granted skipped ⊢
    rw [scan, scan]
    by_cases can : m.can logged.state waiter = true
    · by_cases sent : sends.headD ok = ok
      · simp only [can, sent, if_true, Scanned.grant_state, Scanned.grant_granted, granted,
          List.map_cons,
          List.append_assoc, List.singleton_append]
      · simp only [can, sent, if_true, if_false, List.map_nil]
    · simp only [can, if_false, Bool.false_eq_true, Scanned.keep_state, Scanned.keep_granted,
        skipped]

theorem Manager.clean_tickets [DecidableEq C] (m : Manager S (Nat × W) C) (ok : R)
    (logged : Logged S Nat) (queue : List (Nat × W)) (client : C) (sends : List R) :
    ((m.logged ticketNotes).clean ok logged queue client sends).state.log =
      logged.log ++ (m.clean ok logged.state queue client sends).granted.map fun grant =>
      grant.2.1 := by
  cases released : m.release logged.state client with
  | some freed =>
    have noted : (m.logged ticketNotes).release logged client = some ⟨freed, logged.log⟩ := by
      simp [Manager.logged, released, ticketNotes]
    rw [m.clean_of_some ok logged.state freed queue client sends released,
      Manager.clean_of_some _ ok logged _ queue client sends noted, scan_tickets]
  | none =>
    have noted : (m.logged ticketNotes).release logged client = none := by
      simp [Manager.logged, released]
    rw [m.clean_of_none ok logged.state queue client sends released,
      Manager.clean_of_none _ ok logged queue client sends noted]
    simp

def Refuses (ops : Ops S W) (ok : R) : S → List W → List R → Prop
  | _, [], _ => True
  | state, waiter :: rest, sends =>
    if ops.can state waiter then sends.headD ok ≠ ok else Refuses ops ok
      (ops.skip state waiter) rest sends

def InTurn (ops : Ops S W) (ok : R) : S → List W → List R → Prop
  | _, [], _ => True
  | state, waiter :: rest, sends =>
    if ops.can state waiter then
      if sends.headD ok = ok then InTurn ops ok (ops.take state waiter) rest sends.tail else True
    else Refuses ops ok (ops.skip state waiter) rest sends

instance refusesDecidable (ops : Ops S W) (ok : R) :
    (state : S) → (queue : List W) → (sends : List R) → Decidable (Refuses ops ok state queue sends)
  | _, [], _ => isTrue trivial
  | state, waiter :: rest, sends =>
    haveI := refusesDecidable ops ok (ops.skip state waiter) rest sends
    inferInstanceAs (Decidable (if ops.can state waiter then sends.headD ok ≠ ok
      else Refuses ops ok (ops.skip state waiter) rest sends))

instance inTurnDecidable (ops : Ops S W) (ok : R) :
    (state : S) → (queue : List W) → (sends : List R) → Decidable (InTurn ops ok state queue sends)
  | _, [], _ => isTrue trivial
  | state, waiter :: rest, sends =>
    haveI := inTurnDecidable ops ok (ops.take state waiter) rest sends.tail
    inferInstanceAs (Decidable (if ops.can state waiter then
      if sends.headD ok = ok then InTurn ops ok (ops.take state waiter) rest sends.tail else True
      else Refuses ops ok (ops.skip state waiter) rest sends))

theorem refuses_iff (ops : Ops S W) (ok : R) (state : S) (queue : List W) (sends : List R) :
    Refuses ops ok state queue sends ↔ (scan ops ok state queue sends).granted = [] := by
  induction state, queue, sends using scan_cases ops ok with
  | done state sends => simp [Refuses]
  | granted state waiter rest sends can sent ih =>
    rw [Refuses, if_pos can]
    simp only [Scanned.grant_granted, reduceCtorEq, iff_false, not_not]
    exact sent
  | failed state waiter rest sends can unsent =>
    rw [Refuses, if_pos can]
    exact iff_of_true unsent rfl
  | skipped state waiter rest sends cannot ih =>
    rw [Refuses, if_neg (by simp [cannot]), Scanned.keep_granted, ih]

omit [DecidableEq R] in
theorem refuses_unticketed {m : Manager S W C} {ok : R} {state : S} {queue : List (Nat × W)}
    {sends : List R} :
    Refuses m.ticketed.toOps ok state queue sends ↔
    Refuses m.toOps ok state (queue.map Prod.snd) sends := by
  induction queue generalizing state with
  | nil => rfl
  | cons waiter rest ih =>
    simp only [List.map_cons, Refuses, ih]
    rfl

theorem inTurn_unticketed {m : Manager S W C} {ok : R} {state : S} {queue : List (Nat × W)}
    {sends : List R} :
    InTurn m.ticketed.toOps ok state queue sends ↔
    InTurn m.toOps ok state (queue.map Prod.snd) sends := by
  induction queue generalizing state sends with
  | nil => rfl
  | cons waiter rest ih =>
    simp only [List.map_cons, InTurn, ih, refuses_unticketed]
    rfl

end

def ServedInOrder (waiting granted : List Nat) : Prop :=
  ∀ front ticket back, granted = front ++ ticket :: back → ∀ earlier ∈ waiting, earlier < ticket →
    earlier ∈ front

theorem servedInOrder_nil (waiting : List Nat) : ServedInOrder waiting [] := by
  intro front ticket back split
  cases front <;> cases split

theorem servedInOrder_cons {first : Nat} {waiting granted : List Nat}
    (later : ∀ ticket ∈ waiting, first < ticket) :
    ServedInOrder (first :: waiting) (first :: granted) ↔ ServedInOrder waiting granted := by
  constructor
  · intro served front ticket back split earlier member before
    have listed := served (first :: front) ticket back (by rw [split, List.cons_append]) earlier
      (List.mem_cons_of_mem _ member) before
    obtain rfl | found := List.mem_cons.mp listed
    · exact absurd (later _ member) (Nat.lt_irrefl _)
    · exact found
  · intro served front ticket back split earlier member before
    cases front with
    | nil =>
      obtain ⟨rfl, _⟩ := List.cons.inj split
      obtain rfl | waits := List.mem_cons.mp member
      · exact absurd before (Nat.lt_irrefl _)
      · exact absurd before (Nat.lt_asymm (later _ waits))
    | cons head front =>
      obtain ⟨rfl, rest⟩ := List.cons.inj split
      obtain rfl | waits := List.mem_cons.mp member
      · exact List.mem_cons_self
      · exact List.mem_cons_of_mem _ (served front ticket back rest earlier waits before)

theorem servedInOrder_newcomer {ticket : Nat} {waiting : List Nat}
    (older : ∀ earlier ∈ waiting, earlier < ticket) :
    ServedInOrder waiting [ticket] ↔ waiting = [] := by
  constructor
  · intro served
    cases waiting with
    | nil => rfl
    | cons first rest =>
      cases served [] ticket [] rfl first List.mem_cons_self (older first List.mem_cons_self)
  · rintro rfl front other back _ earlier member
    cases member

theorem servedInOrder_skipped {first : Nat} {waiting granted : List Nat}
    (later : ∀ ticket ∈ waiting, first < ticket) (listed : granted ⊆ waiting) :
    ServedInOrder (first :: waiting) granted ↔ granted = [] := by
  constructor
  · intro served
    cases granted with
    | nil => rfl
    | cons ticket rest =>
      have before := later ticket (listed List.mem_cons_self)
      cases served [] ticket rest rfl first List.mem_cons_self before
  · rintro rfl
    exact servedInOrder_nil _

section

variable [DecidableEq R]

theorem scan_inOrder_iff (ops : Ops S (Nat × W)) (ok : R) (state : S) (queue : List (Nat × W))
    (sends : List R) (sorted : (queue.map Prod.fst).Pairwise (· < ·)) :
    ServedInOrder (queue.map Prod.fst)
      ((scan ops ok state queue sends).granted.map fun grant => grant.2.1) ↔
        InTurn ops ok state queue sends := by
  induction state, queue, sends using scan_cases ops ok with
  | done state sends => exact iff_of_true (servedInOrder_nil _) trivial
  | granted state waiter rest sends can sent ih =>
    obtain ⟨first, sorted⟩ := List.pairwise_cons.mp sorted
    rw [InTurn, if_pos can, if_pos sent, ← ih sorted]
    exact servedInOrder_cons first
  | failed state waiter rest sends can unsent =>
    rw [InTurn, if_pos can, if_neg unsent]
    exact iff_of_true (servedInOrder_nil _) trivial
  | skipped state waiter rest sends cannot ih =>
    obtain ⟨first, _⟩ := List.pairwise_cons.mp sorted
    rw [InTurn, if_neg (by simp [cannot]), refuses_iff, Scanned.keep_granted, List.map_cons,
      servedInOrder_skipped first]
    · exact List.map_eq_nil_iff
    · intro ticket member
      obtain ⟨grant, granted, rfl⟩ := List.mem_map.mp member
      have subset := scan_granted_subset ops ok (ops.skip state waiter) rest sends
      exact List.mem_map_of_mem (subset (List.mem_map_of_mem granted))

end

end Scan
