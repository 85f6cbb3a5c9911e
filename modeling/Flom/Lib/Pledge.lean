import Flom.Lib.Manager

set_option autoImplicit false

namespace Scan

variable {S W C R H : Type} [DecidableEq C] [DecidableEq R] {m : Manager S W C}

structure Ledger.Owes (l : Ledger m H) (stands : H → Prop) (hopes : W → Prop) (state : S)
    (queue : List W)
    (client : C) : Prop where
  single : l.records state queue client ≤ 1
  held : ∀ entry ∈ l.held state, entry.1 = client → stands entry.2
  queued : ∀ waiter ∈ queue, m.conn waiter = client → hopes waiter

namespace Ledger

variable {l : Ledger m H} {stands : H → Prop} {hopes : W → Prop} {state : S} {queue : List W}
  {client : C}

omit [DecidableEq R] in
theorem records_queue (state : S) (waiter : W) (rest : List W) (client : C) :
    l.records state (waiter :: rest) client =
      l.records state rest client + if m.conn waiter = client then 1 else 0 := by
  unfold records
  rw [waitingBy_cons, List.length_append]
  split_ifs
  · simp only [List.length_singleton]
    omega
  · simp

omit [DecidableEq R] in
theorem records_take (waiter : W) (can : m.can state waiter = true) (queue : List W) (client : C) :
    l.records (m.take state waiter) queue client =
      l.records state queue client + if m.conn waiter = client then 1 else 0 := by
  have length := (l.take_heldBy state waiter client can).length_eq
  unfold records
  rw [length, List.length_append]
  split_ifs
  · simp only [List.length_singleton]
    omega
  · simp

omit [DecidableEq R] in
theorem records_skip (waiter : W) (queue : List W) (client : C) :
    l.records (m.skip state waiter) queue client = l.records state queue client := by
  rw [records, heldBy, l.skip_held]
  rfl

omit [DecidableEq R] in
theorem records_fail (waiter : W) (can : m.can state waiter = true) (queue : List W) (client : C) :
    l.records (m.fail state waiter) queue client ≤
      l.records state queue client + if m.conn waiter = client then 1 else 0 := by
  unfold records heldBy
  obtain same | same := l.fail_held state waiter can
  · have length := (same.filter fun entry => entry.1 = client).length_eq
    omega
  · have length := (same.filter fun entry => entry.1 = client).length_eq
    by_cases mine : m.conn waiter = client
    · simp only [mine, decide_true, List.filter_cons_of_pos, List.length_cons] at length
      rw [length, if_pos mine]
      omega
    · rw [List.filter_cons_of_neg (by simpa using mine)] at length
      omega

theorem scan_records (ok : R) (state : S) (queue : List W) (sends : List R) (client : C) :
    l.records (scan m.toOps ok state queue sends).state
      (scan m.toOps ok state queue sends).queue client ≤
        l.records state queue client := by
  induction state, queue, sends using scan_cases m.toOps ok with
  | done state sends => exact Nat.le_refl _
  | granted state waiter rest sends can sent ih =>
    rw [records_queue, ← records_take waiter can]
    exact ih
  | failed state waiter rest sends can unsent =>
    rw [records_queue]
    exact records_fail waiter can rest client
  | skipped state waiter rest sends cannot ih =>
    rw [Scanned.keep_queue, records_queue, records_queue]
    have later := ih
    rw [records_skip] at later
    exact Nat.add_le_add_right later _

omit [DecidableEq C] in
theorem scan_held_from (ok : R) (state : S) (queue : List W) (sends : List R) :
    ∀ entry ∈ l.held (scan m.toOps ok state queue sends).state,
      entry ∈ l.held state ∨ ∃ reached, ∃ waiter ∈ queue,
      entry = (m.conn waiter, l.item reached waiter) := by
  induction state, queue, sends using scan_cases m.toOps ok with
  | done state sends => exact fun entry member => .inl member
  | granted state waiter rest sends can sent ih =>
    intro entry member
    obtain old | ⟨reached, later, queued, same⟩ := ih entry member
    · obtain rfl | before := List.mem_cons.mp ((l.take_held state waiter can).mem_iff.mp old)
      · exact .inr ⟨state, waiter, List.mem_cons_self, rfl⟩
      · exact .inl before
    · exact .inr ⟨reached, later, List.mem_cons_of_mem _ queued, same⟩
  | failed state waiter rest sends can unsent =>
    intro entry member
    obtain same | same := l.fail_held state waiter can
    · exact .inl (same.mem_iff.mp member)
    · obtain rfl | before := List.mem_cons.mp (same.mem_iff.mp member)
      · exact .inr ⟨state, waiter, List.mem_cons_self, rfl⟩
      · exact .inl before
  | skipped state waiter rest sends cannot ih =>
    intro entry member
    obtain old | ⟨reached, later, queued, same⟩ := ih entry member
    · exact .inl (l.skip_held state waiter ▸ old)
    · exact .inr ⟨reached, later, List.mem_cons_of_mem _ queued, same⟩

theorem Owes.scan (items : ∀ state waiter, hopes waiter → stands (l.item state waiter))
    (owes : l.Owes stands hopes state queue client) (ok : R) (sends : List R) :
    l.Owes stands hopes (Scan.scan m.toOps ok state queue sends).state
      (Scan.scan m.toOps ok state queue sends).queue client where
  single := Nat.le_trans (scan_records ok state queue sends client) owes.single
  held := by
    intro entry member mine
    obtain old | ⟨reached, waiter, queued, rfl⟩ := scan_held_from ok state queue sends entry member
    · exact owes.held entry old mine
    · exact items reached waiter (owes.queued waiter queued mine)
  queued := fun waiter member => owes.queued waiter
    ((scan_queue_sublist m.toOps ok state queue sends).subset member)

omit [DecidableEq R] in
theorem Owes.skip (owes : l.Owes stands hopes state queue client) (waiter : W) :
    l.Owes stands hopes (m.skip state waiter) queue client where
  single := by
    rw [records_skip]
    exact owes.single
  held := fun entry member => owes.held entry (l.skip_held state waiter ▸ member)
  queued := owes.queued

theorem Owes.clean (items : ∀ state waiter, hopes waiter → stands (l.item state waiter))
    (owes : l.Owes stands hopes state queue client) (ok : R) (other : C) (sends : List R) :
    l.Owes stands hopes (m.clean ok state queue other sends).state
      (m.clean ok state queue other sends).queue
        client := by
  cases released : m.release state other with
  | some freed =>
    rw [m.clean_of_some ok state freed queue other sends released]
    refine Owes.scan items ⟨?_, ?_, owes.queued⟩ ok sends
    · have fewer := l.release_heldBy client released
      have single := owes.single
      unfold records at single ⊢
      omega
    · obtain ⟨gone, same⟩ := l.release_held state other freed released
      exact fun entry member => owes.held entry (same.mem_iff.mpr (List.mem_cons_of_mem _ member))
  | none =>
    rw [m.clean_of_none ok state queue other sends released]
    have shorter := @List.eraseP_sublist _ (fun waiter => decide (m.conn waiter = other)) queue
    refine ⟨?_, owes.held, fun waiter member => owes.queued waiter (shorter.subset member)⟩
    have fewer := (shorter.filter fun waiter => decide (m.conn waiter = client)).length_le
    exact Nat.le_trans (Nat.add_le_add_left fewer _) owes.single

structure Fresh (l : Ledger m H) (hopes : W → Prop) (state : S) (queue : List W) (client : C)
    (waiter : W) : Prop where
  room : m.conn waiter = client → l.records state queue client = 0
  hopes : m.conn waiter = client → hopes waiter

omit [DecidableEq R] in
theorem Owes.take (items : ∀ state waiter, hopes waiter → stands (l.item state waiter))
    (owes : l.Owes stands hopes state queue client) {waiter : W} (can : m.can state waiter = true)
    (fresh : l.Fresh hopes state queue client waiter) :
    l.Owes stands hopes (m.take state waiter) queue client where
  single := by
    rw [records_take waiter can]
    split_ifs with mine
    · simp [fresh.room mine]
    · exact owes.single
  held := by
    intro entry member mine
    obtain rfl | before := List.mem_cons.mp ((l.take_held state waiter can).mem_iff.mp member)
    · exact items state waiter (fresh.hopes mine)
    · exact owes.held entry before mine
  queued := owes.queued

omit [DecidableEq R] in
theorem Owes.enqueue (owes : l.Owes stands hopes state queue client) {waiter : W}
    (fresh : l.Fresh hopes state queue client waiter) :
    l.Owes stands hopes state (queue ++ [waiter]) client where
  single := by
    have rotated : l.records state (queue ++ [waiter]) client = l.records state
        (waiter :: queue) client := by
      rw [records_eq_count, records_eq_count]
      simp only [List.map_append, List.map_cons, List.map_nil, List.count_append, List.count_cons,
        List.count_nil]
      omega
    rw [rotated, records_queue]
    split_ifs with mine
    · simp [fresh.room mine]
    · exact owes.single
  held := owes.held
  queued := by
    intro other member mine
    obtain old | new := List.mem_append.mp member
    · exact owes.queued other old mine
    · obtain rfl := List.mem_singleton.mp new
      exact fresh.hopes mine

end Ledger

end Scan
