import Flom.HierUnlock
import Flom.Resource

set_option autoImplicit false

namespace Flom

open Scan

def Resource.Kept (before after : Resource) (client : ConnId) : Prop :=
  match before, after with
  | .simple rsrc, .simple rsrc' =>
    ∃ granted, simpleLedger.Untouched granted rsrc.data rsrc.waitings rsrc'.data rsrc'.waitings
      client
  | .numeric rsrc, .numeric rsrc' =>
    ∃ granted, numericLedger.Untouched granted rsrc.data rsrc.waitings rsrc'.data rsrc'.waitings
      client
  | .set rsrc, .set rsrc' =>
    ∃ granted, setLedger.Untouched granted rsrc.data rsrc.waitings rsrc'.data rsrc'.waitings client
  | .hier rsrc, .hier rsrc' =>
    ∃ granted, (hierLedger rsrc.name).Untouched granted rsrc.data rsrc.waitings rsrc'.data
      rsrc'.waitings client
  | .sequence rsrc, .sequence rsrc' =>
    ∃ granted, sequenceLedger.Untouched granted rsrc.data rsrc.waitings rsrc'.data rsrc'.waitings
      client
  | .timestamp rsrc, .timestamp rsrc' =>
    ∃ granted, timestampLedger.Untouched granted rsrc.data rsrc.waitings rsrc'.data rsrc'.waitings
      client
  | _, _ => False

/-- A record of the client is still linked although it was freed: reading it is undefined. -/
def Resource.dangling : Resource → ConnId → Prop
  | .hier rsrc, conn => ∃ entry ∈ rsrc.data.root.entries, entry.2.conn = conn ∧ entry.2.freed = true
  | _, _ => False

def Resource.isHier : Resource → Bool
  | .hier _ => true
  | _ => false

theorem Resource.kept_refl (resource : Resource) (client : ConnId) :
    resource.Kept resource client := by
  cases resource <;> exact ⟨[], Ledger.untouched_refl _ _ _ client⟩

theorem Resource.Kept.trans {first second third : Resource} {client : ConnId}
    (before : first.Kept second client) (after : second.Kept third client) :
    first.Kept third client := by
  cases first <;> cases second <;> cases third <;> simp only [Resource.Kept] at before after ⊢ <;>
    obtain ⟨granted, before⟩ := before <;> obtain ⟨granted', after⟩ := after
  · exact ⟨_, simpleLedger.untouched_trans before after⟩
  · exact ⟨_, numericLedger.untouched_trans before after⟩
  · exact ⟨_, setLedger.untouched_trans before after⟩
  · exact ⟨_, (hierLedger _).untouched_trans before ⟨after.held, after.waiting⟩⟩
  · exact ⟨_, sequenceLedger.untouched_trans before after⟩
  · exact ⟨_, timestampLedger.untouched_trans before after⟩

section

variable {Data Wait H : Type} {m : Manager Data Wait ConnId} (l : Ledger m H)
include l

theorem rsrcClean_untouched (rsrc : Rsrc Data Wait) (conn client : ConnId) (sends : List Rc)
    (foreign : conn ≠ client)
    (alive : (rsrcClean m rsrc conn sends).failed.map m.conn ≠ some client) :
    ∃ granted, l.Untouched granted rsrc.data rsrc.waitings (rsrcClean m rsrc conn sends).rsrc.data
      (rsrcClean m rsrc conn sends).rsrc.waitings client := by
  refine ⟨_, l.clean_untouched Rc.ok rsrc.data rsrc.waitings conn client sends foreign ?_⟩
  intro waiter failed same
  exact alive (Option.map_eq_some_iff.mpr ⟨waiter, failed, same⟩)

end

theorem hierCollect_held (cleaned : Cleaned HierData HierWait) :
    hierHeld (hierCollect cleaned).rsrc.data.root = hierHeld cleaned.rsrc.data.root := by
  rw [hierHeld, hierHeld, hierCollect_entries]

theorem resourceClean_kept (resource : Resource) (conn client : ConnId) (env : Env)
    (foreign : conn ≠ client) (alive : (resourceClean resource conn env).failed ≠ some client) :
    resource.Kept (resourceClean resource conn env).resource client := by
  cases resource with
  | simple rsrc => exact rsrcClean_untouched simpleLedger rsrc conn client env.sends foreign alive
  | numeric rsrc => exact rsrcClean_untouched numericLedger rsrc conn client env.sends foreign alive
  | set rsrc => exact rsrcClean_untouched setLedger rsrc conn client env.sends foreign alive
  | sequence rsrc =>
    exact rsrcClean_untouched sequenceLedger rsrc conn client env.sends foreign alive
  | hier rsrc =>
    simp only [resourceClean, replyOfCleaned, resourceHierClean, hierCollect_failed] at alive
    obtain ⟨granted, same⟩ := rsrcClean_untouched (hierLedger rsrc.name) rsrc conn client env.sends
      foreign alive
    have held := hierCollect_held (rsrcClean (hierManager rsrc.name) rsrc conn env.sends)
    have waitings := hierCollect_waitings (rsrcClean (hierManager rsrc.name) rsrc conn env.sends)
    refine ⟨granted, ?_, ?_⟩
    · refine (List.Perm.of_eq ?_).trans same.held
      exact congrArg (List.filter fun entry => entry.1 = client) held
    · refine same.waiting.trans (List.Perm.of_eq ?_)
      exact congrArg (fun queue => _ ++ Ledger.waitingBy (hierManager rsrc.name) queue client)
        waitings.symm
  | timestamp rsrc =>
    obtain ⟨granted, same⟩ := rsrcClean_untouched timestampLedger (timestampSetClock rsrc env.clock)
      conn client env.sends foreign alive
    exact ⟨granted, same.held, same.waiting⟩

theorem unlocking_kept {resource target : Resource} {conn : ConnId} {msg : Msg} (client : ConnId)
    (accepted : resource.unlocking conn msg = some target) : resource.Kept target client := by
  obtain rfl | ⟨rsrc, name, rfl, rfl, _⟩ | ⟨rsrc, _, rfl, rfl, _⟩ := unlocking_cases accepted
  · exact target.kept_refl client
  · exact ⟨[], (hierLedger rsrc.name).untouched_refl rsrc.data rsrc.waitings client⟩
  · refine ⟨[], sequenceLedger.untouched_of_held rsrc.waitings (List.Perm.of_eq ?_)⟩
    exact congrArg (List.filter fun entry => entry.1 = client) (sequenceHeld_mark _ conn _)

theorem hierScan_entries (name : Name) (data : HierData) (queue : List HierWait) (sends : List Rc) :
    let scanned := scan (hierManager name).toOps Rc.ok data queue sends
    (∀ entry ∈ data.root.entries, entry ∈ scanned.state.root.entries) ∧
      ∀ waiter ∈ scanned.failed, ∃ entry ∈ scanned.state.root.entries,
        entry.2.conn = waiter.conn ∧ entry.2.freed = true := by
  have linked := hierScan_perm name data queue sends
  refine ⟨fun entry member => linked.subset (List.mem_append_left _ member),
    fun waiter failed => ?_⟩
  have last : hierLinked data.root true waiter ∈
      hierGranted data.root (scan (hierManager name).toOps Rc.ok data queue sends).granted
        (scan (hierManager name).toOps Rc.ok data queue sends).failed := by
    rw [failed, hierGranted]
    exact List.mem_append_right _ (List.mem_singleton_self _)
  exact ⟨_, linked.subset (List.mem_append_right _ last), rfl, rfl⟩

theorem hierRelease_foreign {name : Name} {data freed : HierData} {conn : ConnId}
    (released : hierRelease name data conn = some freed) (entry : List Name × HierLock)
    (foreign : entry.2.conn ≠ conn) (member : entry ∈ data.root.entries) :
    entry ∈ freed.root.entries := by
  obtain ⟨path, removed, mine, perm⟩ := hierRelease_entries released
  obtain rfl | kept := List.mem_cons.mp (perm.mem_iff.mp member)
  · exact absurd mine foreign
  · exact kept

theorem resourceHierClean_entries (rsrc : HierRsrc) (conn : ConnId) (sends : List Rc) :
    (∀ entry ∈ rsrc.data.root.entries, entry.2.conn ≠ conn →
        entry ∈ (resourceHierClean rsrc conn sends).rsrc.data.root.entries) ∧
      ∀ waiter ∈ (resourceHierClean rsrc conn sends).failed,
        ∃ entry ∈ (resourceHierClean rsrc conn sends).rsrc.data.root.entries,
          entry.2.conn = waiter.conn ∧ entry.2.freed = true := by
  rw [resourceHierClean, hierCollect_entries, hierCollect_failed, rsrcClean]
  cases released : (hierManager rsrc.name).release rsrc.data conn with
  | some freed =>
    rw [(hierManager rsrc.name).clean_of_some Rc.ok rsrc.data freed rsrc.waitings conn sends
      released]
    obtain ⟨kept, failed⟩ := hierScan_entries rsrc.name freed rsrc.waitings sends
    exact ⟨fun entry member foreign => kept entry
      (hierRelease_foreign released entry foreign member),
      failed⟩
  | none =>
    rw [(hierManager rsrc.name).clean_of_none Rc.ok rsrc.data rsrc.waitings conn sends released]
    exact ⟨fun entry member _ => member, by simp⟩

theorem rsrcClean_rc_iff {Data Wait : Type} (m : Manager Data Wait ConnId) (rsrc : Rsrc Data Wait)
    (conn : ConnId) (sends : List Rc) :
    (rsrcClean m rsrc conn sends).rc = .ok ↔ (rsrcClean m rsrc conn sends).failed = none := by
  cases released : m.release rsrc.data conn with
  | some freed =>
    rw [rsrcClean, m.clean_of_some Rc.ok rsrc.data freed rsrc.waitings conn sends released]
    exact scan_rc_ok_iff m.toOps Rc.ok freed rsrc.waitings sends
  | none => simp [rsrcClean, m.clean_of_none Rc.ok rsrc.data rsrc.waitings conn sends released]

theorem resourceClean_rc_iff (resource : Resource) (conn : ConnId) (env : Env) :
    (resourceClean resource conn env).rc = .ok ↔
      (resourceClean resource conn env).failed = none := by
  cases resource with
  | hier rsrc =>
    simp only [resourceClean, replyOfCleaned, resourceHierClean, hierCollect_rc, hierCollect_failed,
      Option.map_eq_none_iff]
    exact rsrcClean_rc_iff _ rsrc conn env.sends
  | timestamp rsrc =>
    simp only [resourceClean, replyOfCleaned, Option.map_eq_none_iff]
    exact rsrcClean_rc_iff _ (timestampSetClock rsrc env.clock) conn env.sends
  | simple rsrc | numeric rsrc | set rsrc | sequence rsrc =>
    simp only [resourceClean, replyOfCleaned, Option.map_eq_none_iff]
    exact rsrcClean_rc_iff _ rsrc conn env.sends

-- A send that fails in the hierarchical manager leaves a freed record linked, and cleaning anybody
-- else does not unlink it.
theorem resourceClean_dangling (resource : Resource) (conn other : ConnId) (env : Env)
    (hier : resource.isHier = true)
    (failed : (resourceClean resource conn env).failed = some other) :
    (resourceClean resource conn env).resource.dangling other := by
  cases resource with
  | hier rsrc =>
    obtain ⟨waiter, failing, rfl⟩ := Option.map_eq_some_iff.mp failed
    exact (resourceHierClean_entries rsrc conn env.sends).2 waiter failing
  | simple rsrc | numeric rsrc | set rsrc | sequence rsrc | timestamp rsrc => cases hier

theorem resourceClean_dangling_kept (resource : Resource) (conn other : ConnId) (env : Env)
    (foreign : other ≠ conn) (dangling : resource.dangling other) :
    (resourceClean resource conn env).resource.dangling other := by
  cases resource with
  | hier rsrc =>
    obtain ⟨entry, linked, rfl, freed⟩ := dangling
    exact ⟨entry, (resourceHierClean_entries rsrc conn env.sends).1 entry linked foreign, rfl,
      freed⟩
  | simple rsrc | numeric rsrc | set rsrc | sequence rsrc | timestamp rsrc => exact dangling

theorem resourceClean_isHier (resource : Resource) (conn : ConnId) (env : Env) :
    (resourceClean resource conn env).resource.isHier = resource.isHier := by
  cases resource <;> rfl

theorem unlocking_isHier {resource target : Resource} {conn : ConnId} {msg : Msg}
    (accepted : resource.unlocking conn msg = some target) : target.isHier = resource.isHier := by
  obtain rfl | ⟨_, _, rfl, rfl, _⟩ | ⟨_, _, rfl, rfl, _⟩ := unlocking_cases accepted <;> rfl

theorem dangling_isHier {resource : Resource} {conn : ConnId} (dangling : resource.dangling conn) :
    resource.isHier = true := by
  cases resource <;> first | rfl | exact dangling.elim

end Flom
