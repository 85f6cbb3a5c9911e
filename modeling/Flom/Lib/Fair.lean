import Flom.Lib.Quiet

set_option autoImplicit false

namespace Scan

variable {S W C R : Type} [DecidableEq C] [DecidableEq R]

def Precedes (first second : C) : List C → Prop
  | [] => True
  | event :: rest => event = first ∨ event ≠ second ∧ Precedes first second rest

omit [DecidableEq C] in
theorem precedes_of_not_mem {first second : C} {events : List C} (never : second ∉ events) :
    Precedes first second events := by
  induction events with
  | nil => trivial
  | cons event rest ih =>
    rw [List.mem_cons, not_or] at never
    exact .inr ⟨Ne.symm never.1, ih never.2⟩

omit [DecidableEq C] in
theorem precedes_append {first second : C} {events later : List C}
    (now : Precedes first second events) (next : Precedes first second later) :
    Precedes first second (events ++ later) := by
  induction events with
  | nil => exact next
  | cons event rest ih =>
    apply now.imp_right
    exact fun still => ⟨still.1, ih still.2⟩

omit [DecidableEq C] in
theorem precedes_append_of_mem {first second : C} {events : List C} (later : List C)
    (now : Precedes first second events) (happened : first ∈ events) :
    Precedes first second (events ++ later) := by
  induction events with
  | nil => cases happened
  | cons event rest ih =>
    obtain here | ⟨other, still⟩ := now
    · exact .inl here
    · obtain rfl | behind := List.mem_cons.mp happened
      · exact .inl rfl
      · exact .inr ⟨other, ih still behind⟩

omit [DecidableEq C] in
theorem precedes_iff {first second : C} {events : List C} (different : first ≠ second) :
    Precedes first second events ↔ ∀ front rest, events = front ++ second :: rest →
    first ∈ front := by
  induction events with
  | nil => simp [Precedes]
  | cons event rest ih =>
    rw [Precedes, ih]
    constructor
    · rintro (rfl | ⟨other, later⟩) front tail split
      · cases front with
        | nil => exact absurd (List.cons.inj split).1 different
        | cons head front =>
          rw [(List.cons.inj split).1]
          exact List.mem_cons_self
      · cases front with
        | nil => exact absurd (List.cons.inj split).1 other
        | cons head front => exact List.mem_cons_of_mem _ (later front tail (List.cons.inj split).2)
    · intro every
      by_cases here : event = first
      · exact .inl here
      · refine .inr ⟨?_, fun front tail split => ?_⟩
        · rintro rfl
          exact absurd (every [] rest rfl) List.not_mem_nil
        · have inside := every (event :: front) tail (by rw [split, List.cons_append])
          exact (List.mem_cons.mp inside).resolve_left (Ne.symm here)

def Alike (ops : Ops S W) (one other : W) : Prop := ∀ state, ops.can state one = ops.can state other

def Ahead (ops : Ops S W) (conn : W → C) (first second : C) : List W → Prop
  | [] => False
  | waiter :: rest =>
    (conn waiter = first ∧ ∀ other ∈ rest, conn other = second → Alike ops waiter other) ∨
      (conn waiter ≠ second ∧ Ahead ops conn first second rest)

section

variable {ops : Ops S W} {conn : W → C} {first second : C}

omit [DecidableEq C] in
theorem Ahead.mem {queue : List W} (ahead : Ahead ops conn first second queue) :
    first ∈ queue.map conn := by
  induction queue with
  | nil => cases ahead
  | cons waiter rest ih =>
    obtain ⟨here, _⟩ | ⟨_, later⟩ := ahead
    · rw [← here]
      exact List.mem_cons_self
    · exact List.mem_cons_of_mem _ (ih later)

omit [DecidableEq C] in
theorem ahead_of_mem {queue : List W} {waiter : W} (mine : conn waiter = first)
    (member : waiter ∈ queue) (none : second ∉ queue.map conn) :
    Ahead ops conn first second queue := by
  induction queue with
  | nil => cases member
  | cons head rest ih =>
    rw [List.map_cons, List.mem_cons, not_or] at none
    obtain rfl | inside := List.mem_cons.mp member
    · exact .inl ⟨mine, fun other behind same =>
        absurd (List.mem_map.mpr ⟨other, behind, same⟩) none.2⟩
    · exact .inr ⟨Ne.symm none.1, ih inside none.2⟩

omit [DecidableEq C] in
theorem Ahead.push_other {queue : List W} {waiter : W} (ahead : Ahead ops conn first second queue)
    (other : conn waiter ≠ second) : Ahead ops conn first second (queue ++ [waiter]) := by
  induction queue with
  | nil => cases ahead
  | cons head rest ih =>
    obtain ⟨here, alike⟩ | ⟨here, later⟩ := ahead
    · refine .inl ⟨here, fun behind member same => ?_⟩
      obtain earlier | rfl := List.mem_append.mp member |>.imp_right List.mem_singleton.mp
      · exact alike behind earlier same
      · exact absurd same other
    · exact .inr ⟨here, ih later⟩

omit [DecidableEq C] in
theorem ahead_push {queue : List W} {waiter arrived : W} (mine : conn waiter = first)
    (member : waiter ∈ queue) (none : second ∉ queue.map conn) (alike : Alike ops waiter arrived) :
    Ahead ops conn first second (queue ++ [arrived]) := by
  induction queue with
  | nil => cases member
  | cons head rest ih =>
    rw [List.map_cons, List.mem_cons, not_or] at none
    obtain rfl | inside := List.mem_cons.mp member
    · refine .inl ⟨mine, fun behind member same => ?_⟩
      obtain earlier | rfl := List.mem_append.mp member |>.imp_right List.mem_singleton.mp
      · exact absurd (List.mem_map.mpr ⟨behind, earlier, same⟩) none.2
      · exact alike
    · exact .inr ⟨Ne.symm none.1, ih inside none.2⟩

theorem Ahead.erase {queue : List W} {client : C} (ahead : Ahead ops conn first second queue)
    (other : client ≠ first) :
    Ahead ops conn first second (queue.eraseP fun waiter => conn waiter = client) := by
  induction queue with
  | nil => cases ahead
  | cons waiter rest ih =>
    rw [List.eraseP_cons]
    obtain ⟨here, alike⟩ | ⟨here, later⟩ := ahead
    · have kept : decide (conn waiter = client) = false := by
        rw [here]
        exact decide_eq_false (Ne.symm other)
      rw [kept]
      exact .inl ⟨here, fun behind member => alike behind (List.mem_of_mem_eraseP member)⟩
    · cases decide (conn waiter = client) with
      | true => exact later
      | false => exact .inr ⟨here, ih later⟩

end

namespace Antitone

variable {m : Manager S W C} {inv : S → Prop} {valid : W → Prop}
  (order : Antitone m.toOps inv valid)
include order

omit [DecidableEq C] in
theorem scan_granted_can (ok : R) (state : S) (queue : List W) (sends : List R) (holds : inv state)
    (fits : ∀ waiter ∈ queue, valid waiter) :
    ∀ grant ∈ (scan m.toOps ok state queue sends).granted, m.can state grant.2 = true := by
  induction state, queue, sends using scan_cases m.toOps ok with
  | done state sends => exact fun _ none => absurd none List.not_mem_nil
  | granted state waiter rest sends can sent ih =>
    have head := fits waiter List.mem_cons_self
    have tail := fun other member => fits other (List.mem_cons_of_mem waiter member)
    intro grant member
    obtain rfl | later := List.mem_cons.mp member
    · exact can
    · have wanted : valid grant.2 :=
        tail _ (scan_granted_subset m.toOps ok _ rest sends.tail (List.mem_map_of_mem later))
      have after := ih (order.take state waiter holds head can) tail grant later
      exact order.take_can state waiter grant.2 holds head wanted can after
  | failed state waiter rest sends can unsent => exact fun _ none => absurd none List.not_mem_nil
  | skipped state waiter rest sends cannot ih =>
    intro grant member
    have after := ih (order.skip state waiter holds)
      (fun other member => fits other (List.mem_cons_of_mem waiter member)) grant member
    rwa [order.skip_can] at after

omit [DecidableEq C] in
theorem scan_ahead {first second : C} (ok : R) (state : S) (queue : List W) (sends : List R)
    (holds : inv state) (fits : ∀ waiter ∈ queue, valid waiter) (sent : ∀ send ∈ sends, send = ok)
    (ahead : Ahead m.toOps m.conn first second queue) :
    let scanned := scan m.toOps ok state queue sends
    Precedes first second (scanned.granted.map fun grant => m.conn grant.2) ∧
      (first ∈ (scanned.granted.map fun grant => m.conn grant.2) ∨
      Ahead m.toOps m.conn first second scanned.queue) := by
  induction state, queue, sends using scan_cases m.toOps ok with
  | done state sends => cases ahead
  | granted state waiter rest sends can told ih =>
    have next := ih (order.take state waiter holds (fits waiter List.mem_cons_self) can)
      (fun other member => fits other (List.mem_cons_of_mem waiter member))
      fun send member => sent send (List.mem_of_mem_tail member)
    obtain ⟨here, _⟩ | ⟨here, later⟩ := ahead
    · refine ⟨.inl here, .inl ?_⟩
      rw [← here]
      exact List.mem_cons_self
    · obtain ⟨precedes, kept⟩ := next later
      exact ⟨.inr ⟨here, precedes⟩, kept.imp_left (List.mem_cons_of_mem _)⟩
  | failed state waiter rest sends can unsent => exact absurd (headD_of_sent sent) unsent
  | skipped state waiter rest sends cannot ih =>
    have skipped := order.skip state waiter holds
    have tail := fun other member => fits other (List.mem_cons_of_mem waiter member)
    obtain ⟨here, alike⟩ | ⟨here, later⟩ := ahead
    · -- The record in front was refused, so none of those like it can be served by this scan.
      have never : second ∉
          (scan m.toOps ok (m.skip state waiter) rest sends).granted.map fun grant =>
              m.conn grant.2 := by
        intro told
        obtain ⟨grant, granted, same⟩ := List.mem_map.mp told
        have can := order.scan_granted_can ok _ rest sends skipped tail grant granted
        have inside := scan_granted_subset m.toOps ok _ rest sends (List.mem_map_of_mem granted)
        rw [order.skip_can, ← alike grant.2 inside same state, cannot] at can
        exact Bool.false_ne_true can
      refine ⟨precedes_of_not_mem never, .inr (.inl ⟨here, fun other member => ?_⟩)⟩
      exact alike other ((scan_queue_sublist m.toOps ok _ rest sends).subset member)
    · obtain ⟨precedes, kept⟩ := ih skipped tail sent later
      exact ⟨precedes, kept.imp_right fun still => .inr ⟨here, still⟩⟩

end Antitone

theorem Manager.clean_ahead (m : Manager S W C) {inv : S → Prop} {valid : W → Prop}
    (order : Antitone m.toOps inv valid)
    (release : ∀ state client freed, inv state → m.release state client = some freed → inv freed)
    {first second client : C} (ok : R) (state : S) (queue : List W) (sends : List R)
    (holds : inv state) (fits : ∀ waiter ∈ queue, valid waiter) (sent : ∀ send ∈ sends, send = ok)
    (other : client ≠ first) (ahead : Ahead m.toOps m.conn first second queue) :
    let cleaned := m.clean ok state queue client sends
    Precedes first second (cleaned.granted.map fun grant => m.conn grant.2) ∧
      (first ∈ (cleaned.granted.map fun grant => m.conn grant.2) ∨
      Ahead m.toOps m.conn first second cleaned.queue) := by
  cases released : m.release state client with
  | some freed =>
    rw [m.clean_of_some ok state freed queue client sends released]
    exact order.scan_ahead ok freed queue sends
      (release state client freed holds released) fits sent ahead
  | none =>
    rw [m.clean_of_none ok state queue client sends released]
    exact ⟨trivial, .inr (ahead.erase other)⟩

end Scan
