import Flom.Lib.Lists
import Flom.Lib.Quiet
import Flom.Msg

set_option autoImplicit false

namespace Flom

open Lists Scan

structure Rsrc (Data Wait : Type) where
  name : Name
  data : Data
  waitings : List Wait
deriving DecidableEq, Repr

structure Cleaned (Data Wait : Type) where
  rc : Rc
  rsrc : Rsrc Data Wait
  granted : List (Data × Wait)
  failed : Option Wait

/-- What the network, the clock and strftime answer while a call is being served: one result for
each send, every further one succeeding, and one reading for each look at the clock. -/
structure Env where
  sends : List Rc
  clock : List Timeval
  strftime : Name → Int → Name

inductive Call where
  | inmsg (conn : ConnId) (lastStep : Int) (msg : Msg) (env : Env)
  | clean (conn : ConnId) (env : Env)

def Env.fine : Env := ⟨[], [], fun format _ => format⟩

/-- What inmsg leaves behind: the message object holds the answer when its state is ready. -/
structure Inmsg (Data Wait : Type) where
  rc : Rc
  rsrc : Rsrc Data Wait
  msg : Msg
  granted : List (Data × Wait)
  failed : Option Wait

structure Request (Data Wait : Type) where
  waiter : Wait
  wait : Bool
  refusal : Rc
  element : Data → Option Name

variable {Data Wait : Type}

def rsrcClean (m : Manager Data Wait ConnId) (rsrc : Rsrc Data Wait) (conn : ConnId)
    (sends : List Rc) : Cleaned Data Wait :=
  let scanned := m.clean Rc.ok rsrc.data rsrc.waitings conn sends
  ⟨scanned.rc, { rsrc with data := scanned.state, waitings := scanned.queue }, scanned.granted,
    scanned.failed⟩

def rsrcWaitings (m : Manager Data Wait ConnId) (rsrc : Rsrc Data Wait) (sends : List Rc) :
    Cleaned Data Wait :=
  let scanned := indexScan m.toOps Rc.ok rsrc.data rsrc.waitings sends
  ⟨scanned.rc, { rsrc with data := scanned.state, waitings := scanned.queue }, scanned.granted,
    scanned.failed⟩

def rsrcLock (m : Manager Data Wait ConnId) (request : Request Data Wait) (rsrc : Rsrc Data Wait)
    (lastStep : Int) (msg : Msg) : Inmsg Data Wait :=
  let refused := { rsrc with data := m.skip rsrc.data request.waiter }
  let answer (rc : Rc) (element : Option Name) :=
    msgBuildAnswer msgInit .lock (lastStep + msgStepIncr) rc element
  match msgFree msg with
  | (.ok, _) =>
    if m.can rsrc.data request.waiter then
      let built := answer .ok (request.element rsrc.data)
      ⟨built.1, { rsrc with data := m.take rsrc.data request.waiter }, built.2, [], none⟩
    else if request.wait then
      let built := answer .lockEnqueued none
      ⟨built.1, { refused with waitings := rsrc.waitings ++ [request.waiter] }, built.2, [], none⟩
    else
      let built := answer request.refusal none
      ⟨built.1, refused, built.2, [], none⟩
  | (rc, spent) => ⟨rc, refused, spent, [], none⟩

def inmsgOfCleaned (cleaned : Cleaned Data Wait) (msg : Msg) : Inmsg Data Wait :=
  if cleaned.rc = .ok then
    match msgFree msg with
    | (.ok, _) => ⟨.ok, cleaned.rsrc, msgInit, cleaned.granted, cleaned.failed⟩
    | (rc, spent) => ⟨rc, cleaned.rsrc, spent, cleaned.granted, cleaned.failed⟩
  else ⟨cleaned.rc, cleaned.rsrc, msg, cleaned.granted, cleaned.failed⟩

def inmsgError (rc : Rc) (rsrc : Rsrc Data Wait) (msg : Msg) : Inmsg Data Wait :=
  ⟨rc, rsrc, msg, [], none⟩

def unlockRefusal (msg : Msg) : Rc := if msg.body.first.stray then .crash else .invalidOption

@[simp] theorem unlockRefusal_ne_ok (msg : Msg) : unlockRefusal msg ≠ .ok := by
  unfold unlockRefusal
  split_ifs <;> simp

def rsrcUnlock (cleaned : Cleaned Data Wait) (rsrc : Rsrc Data Wait) (msg : Msg) :
    Inmsg Data Wait :=
  if some rsrc.name = msg.unlock8.name then inmsgOfCleaned cleaned msg
  else inmsgError (unlockRefusal msg) rsrc msg

@[simp] theorem inmsgOfCleaned_rsrc (cleaned : Cleaned Data Wait) (msg : Msg) :
    (inmsgOfCleaned cleaned msg).rsrc = cleaned.rsrc := by
  unfold inmsgOfCleaned
  split
  · split <;> rfl
  · rfl

@[simp] theorem inmsgOfCleaned_granted (cleaned : Cleaned Data Wait) (msg : Msg) :
    (inmsgOfCleaned cleaned msg).granted = cleaned.granted := by
  unfold inmsgOfCleaned
  split
  · split <;> rfl
  · rfl

@[simp] theorem inmsgOfCleaned_failed (cleaned : Cleaned Data Wait) (msg : Msg) :
    (inmsgOfCleaned cleaned msg).failed = cleaned.failed := by
  unfold inmsgOfCleaned
  split
  · split <;> rfl
  · rfl

@[simp] theorem inmsgError_rsrc (rc : Rc) (rsrc : Rsrc Data Wait) (msg : Msg) :
    (inmsgError rc rsrc msg).rsrc = rsrc := rfl

theorem rsrcUnlock_rsrc_named {motive : Rsrc Data Wait → Prop} {cleaned : Cleaned Data Wait}
    {rsrc : Rsrc Data Wait} (msg : Msg) (same : motive rsrc)
    (freed : some rsrc.name = msg.unlock8.name → motive cleaned.rsrc) :
    motive (rsrcUnlock cleaned rsrc msg).rsrc := by
  unfold rsrcUnlock
  split
  · next named =>
    rw [inmsgOfCleaned_rsrc]
    exact freed named
  · exact same

theorem rsrcUnlock_rsrc {motive : Rsrc Data Wait → Prop} {cleaned : Cleaned Data Wait}
    {rsrc : Rsrc Data Wait} (msg : Msg) (same : motive rsrc) (freed : motive cleaned.rsrc) :
    motive (rsrcUnlock cleaned rsrc msg).rsrc :=
  rsrcUnlock_rsrc_named msg same fun _ => freed

theorem rsrcLock_rsrc (m : Manager Data Wait ConnId) (request : Request Data Wait)
    (rsrc : Rsrc Data Wait) (lastStep : Int) (msg : Msg) :
    (rsrcLock m request rsrc lastStep msg).rsrc =
        { rsrc with data := m.skip rsrc.data request.waiter } ∨
      (m.can rsrc.data request.waiter = true ∧
        (rsrcLock m request rsrc lastStep msg).rsrc =
          { rsrc with data := m.take rsrc.data request.waiter }) ∨
      (m.can rsrc.data request.waiter = false ∧
        (rsrcLock m request rsrc lastStep msg).rsrc =
          { rsrc with
            data := m.skip rsrc.data request.waiter
            waitings := rsrc.waitings ++ [request.waiter] }) := by
  unfold rsrcLock
  split
  · by_cases can : m.can rsrc.data request.waiter = true
    · simp [can]
    · by_cases waits : request.wait = true
      · simp [can, waits]
      · simp [can, waits]
  · simp

theorem rsrcLock_rsrc_eq (m : Manager Data Wait ConnId) (request : Request Data Wait)
    (rsrc : Rsrc Data Wait) (lastStep : Int) (msg : Msg) :
    (rsrcLock m request rsrc lastStep msg).rsrc =
      if (msgFree msg).1 = .ok ∧ m.can rsrc.data request.waiter = true then
        { rsrc with data := m.take rsrc.data request.waiter }
      else if (msgFree msg).1 = .ok ∧ request.wait = true then
        { rsrc with
          data := m.skip rsrc.data request.waiter
          waitings := rsrc.waitings ++ [request.waiter] }
      else { rsrc with data := m.skip rsrc.data request.waiter } := by
  unfold rsrcLock
  split
  · next freed =>
    by_cases can : m.can rsrc.data request.waiter = true
    · simp [freed, can]
    · by_cases waits : request.wait = true
      · simp [freed, can, waits]
      · simp [freed, can, waits]
  · next rc spent unfreed kept =>
    have failed : rc ≠ .ok := unfreed
    simp [kept, failed]

theorem rsrcLock_element {m : Manager Data Wait ConnId} {request : Request Data Wait}
    {rsrc : Rsrc Data Wait} {lastStep : Int} {msg : Msg}
    (answered : (rsrcLock m request rsrc lastStep msg).rc = .ok) :
    (msgFree msg).1 = .ok ∧ (msgAnswer (rsrcLock m request rsrc lastStep msg).msg).element =
      if m.can rsrc.data request.waiter = true then request.element rsrc.data else none := by
  unfold rsrcLock at answered ⊢
  split at answered
  · next freed =>
    refine ⟨by rw [freed], ?_⟩
    by_cases can : m.can rsrc.data request.waiter = true
    · simp only [can, if_true] at answered ⊢
      rw [msgBuildAnswer_answer _ _ _ _ _ answered]
    · by_cases waits : request.wait = true
      · simp only [can, waits, if_true, if_false, Bool.false_eq_true] at answered ⊢
        rw [msgBuildAnswer_answer _ _ _ _ _ answered]
      · simp only [can, waits, if_false, Bool.false_eq_true] at answered ⊢
        rw [msgBuildAnswer_answer _ _ _ _ _ answered]
  · next _ _ unfreed _ => exact absurd answered unfreed

theorem rsrcLock_unfreed {m : Manager Data Wait ConnId} (request : Request Data Wait)
    (rsrc : Rsrc Data Wait) (lastStep : Int) (msg : Msg) (failed : (msgFree msg).1 ≠ .ok) :
    (rsrcLock m request rsrc lastStep msg).rsrc =
    { rsrc with data := m.skip rsrc.data request.waiter } := by
  unfold rsrcLock
  split
  · next freed => exact absurd (by rw [freed]) failed
  · rfl

theorem rsrcLock_name (m : Manager Data Wait ConnId) (request : Request Data Wait)
    (rsrc : Rsrc Data Wait) (lastStep : Int) (msg : Msg) :
    (rsrcLock m request rsrc lastStep msg).rsrc.name = rsrc.name := by
  obtain same | ⟨_, same⟩ | ⟨_, same⟩ := rsrcLock_rsrc m request rsrc lastStep msg <;> rw [same]

theorem rsrcClean_of_some (m : Manager Data Wait ConnId) (rsrc : Rsrc Data Wait) (conn : ConnId)
    (sends : List Rc) (freed : Data) (released : m.release rsrc.data conn = some freed) :
    rsrcClean m rsrc conn sends = rsrcWaitings m { rsrc with data := freed } sends := by
  simp [rsrcClean, rsrcWaitings, Manager.clean, released]

structure Sound (inv : Data → Prop) (valid : Wait → Prop) (rsrc : Rsrc Data Wait) : Prop where
  data : inv rsrc.data
  waitings : ∀ waiter ∈ rsrc.waitings, valid waiter

theorem rsrcLock_sound {m : Manager Data Wait ConnId} {inv : Data → Prop} {valid : Wait → Prop}
    (preserved : Preserved m.toOps inv valid) (request : Request Data Wait) (rsrc : Rsrc Data Wait)
    (lastStep : Int) (msg : Msg) (sound : Sound inv valid rsrc) (fits : valid request.waiter) :
    Sound inv valid (rsrcLock m request rsrc lastStep msg).rsrc := by
  obtain same | ⟨can, same⟩ | ⟨cannot, same⟩ := rsrcLock_rsrc m request rsrc lastStep msg
  · rw [same]
    exact ⟨preserved.skip _ _ sound.data, sound.waitings⟩
  · rw [same]
    exact ⟨preserved.take _ _ sound.data fits can, sound.waitings⟩
  · rw [same]
    refine ⟨preserved.skip _ _ sound.data, ?_⟩
    intro waiter member
    obtain earlier | rfl := List.mem_append.mp member |>.imp_right List.mem_singleton.mp
    · exact sound.waitings waiter earlier
    · exact fits

theorem rsrcClean_sound {m : Manager Data Wait ConnId} {inv : Data → Prop} {valid : Wait → Prop}
    (preserved : Preserved m.toOps inv valid)
    (release : ∀ data conn freed, inv data → m.release data conn = some freed → inv freed)
    (rsrc : Rsrc Data Wait) (conn : ConnId) (sends : List Rc) (sound : Sound inv valid rsrc) :
    Sound inv valid (rsrcClean m rsrc conn sends).rsrc := by
  constructor
  · exact m.clean_preserved preserved release .ok rsrc.data rsrc.waitings conn sends sound.data
      sound.waitings
  · intro waiter member
    have shorter := m.clean_queue_sublist Rc.ok rsrc.data rsrc.waitings conn sends
    exact sound.waitings waiter (shorter.subset member)

def rsrcConnFind {Info : Type} (holders : List (ConnLock Info)) (conn : ConnId) :
    Option (ConnLock Info) :=
  holders.find? fun holder => holder.conn = conn

def rsrcConnRemove {Info : Type} (holders : List (ConnLock Info)) (conn : ConnId) :
    List (ConnLock Info) :=
  holders.eraseP fun holder => holder.conn = conn

theorem rsrcConnFind_perm {Info : Type} {holders : List (ConnLock Info)} {conn : ConnId}
    {found : ConnLock Info} (present : rsrcConnFind holders conn = some found) :
    found.conn = conn ∧ holders.Perm (found :: rsrcConnRemove holders conn) :=
  ⟨by simpa using List.find?_some present, find_eraseP_perm present⟩

theorem rsrcConnFind_eq_none {Info : Type} {holders : List (ConnLock Info)} {conn : ConnId} :
    rsrcConnFind holders conn = none ↔ ∀ holder ∈ holders, holder.conn ≠ conn := by
  simp [rsrcConnFind]

def heldPairs {Info : Type} (holders : List (ConnLock Info)) : List (ConnId × Info) :=
  holders.map fun holder => (holder.conn, holder.info)

end Flom
