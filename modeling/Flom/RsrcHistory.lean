import Flom.Lib.Ticket
import Flom.Rsrc

set_option autoImplicit false

namespace Flom

open Scan

variable {Data Wait Event : Type}

def Rsrc.logging (rsrc : Rsrc Data Wait) : Rsrc (Logged Data Event) Wait :=
  { rsrc with data := ⟨rsrc.data, []⟩ }

def Rsrc.unlogged (rsrc : Rsrc (Logged Data Event) Wait) : Rsrc Data Wait :=
  { rsrc with data := rsrc.data.state }

theorem rsrcClean_unlogged (m : Manager Data Wait ConnId) (notes : Notes Data Wait ConnId Event)
    (rsrc : Rsrc (Logged Data Event) Wait) (conn : ConnId) (sends : List Rc) :
    (rsrcClean (m.logged notes) rsrc conn sends).rsrc.unlogged =
    (rsrcClean m rsrc.unlogged conn sends).rsrc := by
  have same := m.clean_unlogged notes Rc.ok rsrc.data rsrc.waitings conn sends
  simp only [rsrcClean, Rsrc.unlogged, ← same, Scanned.unlogged]

theorem rsrcWaitings_unlogged (m : Manager Data Wait ConnId) (notes : Notes Data Wait ConnId Event)
    (rsrc : Rsrc (Logged Data Event) Wait) (sends : List Rc) :
    (rsrcWaitings (m.logged notes) rsrc sends).rsrc.unlogged =
    (rsrcWaitings m rsrc.unlogged sends).rsrc := by
  have same := scan_unlogged m notes Rc.ok rsrc.data rsrc.waitings sends
  simp only [rsrcWaitings, Rsrc.unlogged, indexScan_eq_scan, ← same, Scanned.unlogged]

theorem rsrcLock_unlogged (m : Manager Data Wait ConnId) (notes : Notes Data Wait ConnId Event)
    (request : Request Data Wait) (logged : Request (Logged Data Event) Wait)
    (rsrc : Rsrc (Logged Data Event) Wait) (lastStep : Int) (msg : Msg)
    (waiter : logged.waiter = request.waiter) (wait : logged.wait = request.wait) :
    (rsrcLock (m.logged notes) logged rsrc lastStep msg).rsrc.unlogged =
      (rsrcLock m request rsrc.unlogged lastStep msg).rsrc := by
  unfold rsrcLock
  rw [waiter, wait]
  split
  · by_cases can : m.can rsrc.data.state request.waiter = true
    · simp [Manager.logged, Rsrc.unlogged, can]
    · by_cases waits : request.wait = true
      · simp [Manager.logged, Rsrc.unlogged, can, waits]
      · simp [Manager.logged, Rsrc.unlogged, can, waits]
  · rfl

def Rsrc.unticketed (rsrc : Rsrc Data (Nat × Wait)) : Rsrc Data Wait :=
  { rsrc with waitings := rsrc.waitings.map Prod.snd }

theorem rsrcClean_unticketed (m : Manager Data Wait ConnId) (rsrc : Rsrc Data (Nat × Wait))
    (conn : ConnId) (sends : List Rc) :
    (rsrcClean m.ticketed rsrc conn sends).rsrc.unticketed =
    (rsrcClean m rsrc.unticketed conn sends).rsrc := by
  have same := m.clean_unticketed Rc.ok rsrc.data rsrc.waitings conn sends
  simp only [rsrcClean, Rsrc.unticketed, ← same, Scanned.unticketed]

theorem rsrcWaitings_unticketed (m : Manager Data Wait ConnId) (rsrc : Rsrc Data (Nat × Wait))
    (sends : List Rc) :
    (rsrcWaitings m.ticketed rsrc sends).rsrc.unticketed =
    (rsrcWaitings m rsrc.unticketed sends).rsrc := by
  have same := scan_unticketed m Rc.ok rsrc.data rsrc.waitings sends
  simp only [rsrcWaitings, Rsrc.unticketed, indexScan_eq_scan, ← same, Scanned.unticketed]

theorem rsrcLock_unticketed (m : Manager Data Wait ConnId) (request : Request Data Wait)
    (ticketed : Request Data (Nat × Wait)) (rsrc : Rsrc Data (Nat × Wait)) (lastStep : Int)
    (msg : Msg) (waiter : ticketed.waiter.2 = request.waiter)
    (wait : ticketed.wait = request.wait) :
    (rsrcLock m.ticketed ticketed rsrc lastStep msg).rsrc.unticketed =
      (rsrcLock m request rsrc.unticketed lastStep msg).rsrc := by
  rw [rsrcLock_rsrc_eq, rsrcLock_rsrc_eq, wait, ← waiter]
  have test : m.ticketed.can rsrc.data ticketed.waiter =
    m.can rsrc.unticketed.data ticketed.waiter.2 := rfl
  rw [test]
  split_ifs
  · rfl
  · simp [Manager.ticketed, Rsrc.unticketed]
  · rfl

end Flom
