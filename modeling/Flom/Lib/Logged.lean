import Flom.Lib.Manager

set_option autoImplicit false

namespace Scan

variable {S W C R E : Type}

structure Logged (S E : Type) where
  state : S
  log : List E
deriving DecidableEq, Repr

structure Notes (S W C E : Type) where
  take : S → W → List E
  fail : S → W → List E
  release : S → C → List E

def Manager.logged (m : Manager S W C) (notes : Notes S W C E) : Manager (Logged S E) W C where
  can logged waiter := m.can logged.state waiter
  skip logged waiter := { logged with state := m.skip logged.state waiter }
  take logged waiter := ⟨m.take logged.state waiter, logged.log ++ notes.take logged.state waiter⟩
  fail logged waiter := ⟨m.fail logged.state waiter, logged.log ++ notes.fail logged.state waiter⟩
  conn := m.conn
  release logged client :=
    (m.release logged.state client).map fun freed =>
      ⟨freed, logged.log ++ notes.release logged.state client⟩

def Scanned.unlogged (scanned : Scanned (Logged S E) W R) : Scanned S W R :=
  ⟨scanned.rc, scanned.state.state, scanned.queue, scanned.granted.map fun grant =>
    (grant.1.state, grant.2),
    scanned.failed⟩

variable [DecidableEq R]

theorem scan_unlogged (m : Manager S W C) (notes : Notes S W C E) (ok : R) (logged : Logged S E)
    (queue : List W) (sends : List R) :
    (scan (m.logged notes).toOps ok logged queue sends).unlogged =
      scan m.toOps ok logged.state queue sends := by
  induction queue generalizing logged sends with
  | nil => rfl
  | cons waiter rest ih =>
    have granted := ih ((m.logged notes).take logged waiter) sends.tail
    have skipped := ih ((m.logged notes).skip logged waiter) sends
    simp only [Manager.logged] at granted skipped
    rw [scan, scan]
    by_cases can : m.can logged.state waiter = true
    · by_cases sent : sends.headD ok = ok
      · simp only [Manager.logged, can, sent, if_true, ← granted]
        rfl
      · simp only [Manager.logged, can, sent, if_true, if_false]
        rfl
    · simp only [Manager.logged, can, if_false, Bool.false_eq_true, ← skipped]
      rfl

theorem Manager.clean_unlogged [DecidableEq C] (m : Manager S W C) (notes : Notes S W C E) (ok : R)
    (logged : Logged S E) (queue : List W) (client : C) (sends : List R) :
    ((m.logged notes).clean ok logged queue client sends).unlogged =
      m.clean ok logged.state queue client sends := by
  cases released : m.release logged.state client with
  | some freed =>
    have noted : (m.logged notes).release logged client =
        some ⟨freed, logged.log ++ notes.release logged.state client⟩ := by
      simp [Manager.logged, released]
    rw [m.clean_of_some ok logged.state freed queue client sends released,
      Manager.clean_of_some _ ok logged _ queue client sends noted, scan_unlogged]
  | none =>
    have noted : (m.logged notes).release logged client = none := by simp [Manager.logged, released]
    rw [m.clean_of_none ok logged.state queue client sends released,
      Manager.clean_of_none _ ok logged queue client sends noted]
    rfl

theorem scan_logged_granted (m : Manager S W C) (notes : Notes S W C E) (ok : R)
    (logged : Logged S E) (queue : List W) (sends : List R) :
    ∃ added, (scan (m.logged notes).toOps ok logged queue sends).state.log = logged.log ++ added ∧
      ((scan m.toOps ok logged.state queue sends).granted.flatMap fun grant =>
      notes.take grant.1 grant.2).Sublist
        added := by
  induction queue generalizing logged sends with
  | nil => exact ⟨[], by simp [scan], by simp [scan]⟩
  | cons waiter rest ih =>
    have granted := ih ((m.logged notes).take logged waiter) sends.tail
    have skipped := ih ((m.logged notes).skip logged waiter) sends
    simp only [Manager.logged] at granted skipped ⊢
    rw [scan, scan]
    by_cases can : m.can logged.state waiter = true
    · by_cases sent : sends.headD ok = ok
      · obtain ⟨added, log, listed⟩ := granted
        simp only [can, sent, if_true, Scanned.grant_state, Scanned.grant_granted,
          List.flatMap_cons]
        exact ⟨notes.take logged.state waiter ++
          added, by rw [log, List.append_assoc], listed.append_left _⟩
      · simp only [can, sent, if_true, if_false, List.flatMap_nil]
        exact ⟨notes.fail logged.state waiter, rfl, List.nil_sublist _⟩
    · simp only [can, if_false, Bool.false_eq_true, Scanned.keep_state, Scanned.keep_granted]
      exact skipped

theorem Manager.clean_logged_granted [DecidableEq C] (m : Manager S W C) (notes : Notes S W C E)
    (ok : R) (logged : Logged S E) (queue : List W) (client : C) (sends : List R) :
    ∃ added, ((m.logged notes).clean ok logged queue client sends).state.log = logged.log ++ added ∧
      ((m.clean ok logged.state queue client sends).granted.flatMap fun grant =>
        notes.take grant.1 grant.2).Sublist added := by
  cases released : m.release logged.state client with
  | some freed =>
    have noted : (m.logged notes).release logged client =
        some ⟨freed, logged.log ++ notes.release logged.state client⟩ := by
      simp [Manager.logged, released]
    rw [m.clean_of_some ok logged.state freed queue client sends released,
      Manager.clean_of_some _ ok logged _ queue client sends noted]
    obtain ⟨added, log, listed⟩ := scan_logged_granted m notes ok
      ⟨freed, logged.log ++ notes.release logged.state client⟩ queue sends
    exact ⟨notes.release logged.state client ++ added, by rw [log, List.append_assoc],
      listed.trans (List.sublist_append_right _ _)⟩
  | none =>
    have noted : (m.logged notes).release logged client = none := by simp [Manager.logged, released]
    rw [m.clean_of_none ok logged.state queue client sends released,
      Manager.clean_of_none _ ok logged queue client sends noted]
    exact ⟨[], by simp, by simp⟩

theorem visits_logged {m : Manager S W C} {notes : Notes S W C E} {P : S → W → Prop} {ok : R}
    {logged : Logged S E} {queue : List W} {sends : List R} :
    Visits (m.logged notes).toOps ok (fun logged waiter => P logged.state waiter) logged queue
      sends ↔
        Visits m.toOps ok P logged.state queue sends := by
  induction queue generalizing logged sends with
  | nil => rfl
  | cons waiter rest ih =>
    simp only [Visits, ih]
    rfl

end Scan
