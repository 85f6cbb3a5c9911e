import Flom.Lib.Run
import Flom.Rsrc
import Flom.RsrcName

set_option autoImplicit false

namespace Flom

open Scan

structure SequenceInfo where
  value : UInt32
  rollback : Bool
deriving DecidableEq, Repr

structure SequenceData where
  totalQuantity : Int32
  lockedQuantity : Int32
  nextValue : UInt32
  rolledBack : Option (List UInt32)
  holders : List (ConnLock SequenceInfo)
deriving DecidableEq, Repr

abbrev SequenceRsrc := Rsrc SequenceData (ConnLock Unit)

def resourceSequenceCanLock (data : SequenceData) : Bool :=
  0 < data.totalQuantity - data.lockedQuantity

/-- A fresh value, skipping zero, which the queue of rolled back values cannot store. -/
def sequenceDraw (data : SequenceData) : UInt32 × SequenceData :=
  if data.nextValue = 0 then (data.nextValue + 1, { data with nextValue := data.nextValue + 2 })
  else (data.nextValue, { data with nextValue := data.nextValue + 1 })

def resourceSequenceGet (data : SequenceData) : UInt32 × SequenceData :=
  match data.rolledBack with
  | some (value :: rest) =>
    let popped := { data with rolledBack := some rest }
    if value = 0 then sequenceDraw popped else (value, popped)
  | _ => sequenceDraw data

def sequenceElement (data : SequenceData) : Name :=
  Nat.toDigits 10 (resourceSequenceGet data).1.toNat

def resourceSequenceInit (name : Name) : Except Rc SequenceRsrc := do
  let totalQuantity ← rsrcGetNumber name .sequence
  let rolledBack := if rsrcGetTransactional name then some [] else none
  return ⟨name, ⟨totalQuantity, 0, 1, rolledBack, []⟩, []⟩

theorem resourceSequenceInit_error {name : Name} {rc : Rc}
    (failed : resourceSequenceInit name = .error rc) : rc = .regexecError :=
  error_of_number failed

def sequenceManager : Manager SequenceData (ConnLock Unit) ConnId where
  can data _ := resourceSequenceCanLock data
  skip data _ := data
  take data waiter :=
    let got := resourceSequenceGet data
    { got.2 with
      holders := ⟨waiter.conn, ⟨got.1, true⟩⟩ :: data.holders
      lockedQuantity := data.lockedQuantity + 1 }
  fail data _ := (resourceSequenceGet data).2
  conn := ConnLock.conn
  release data conn :=
    (rsrcConnFind data.holders conn).map fun found =>
      { data with
        rolledBack :=
          if found.info.rollback then data.rolledBack.map (· ++ [found.info.value])
          else data.rolledBack
        holders := rsrcConnRemove data.holders conn
        lockedQuantity := data.lockedQuantity - 1 }

def resourceSequenceWaitings (rsrc : SequenceRsrc) (sends : List Rc) :
    Cleaned SequenceData (ConnLock Unit) :=
  rsrcWaitings sequenceManager rsrc sends

def resourceSequenceClean (rsrc : SequenceRsrc) (conn : ConnId) (sends : List Rc) :
    Cleaned SequenceData (ConnLock Unit) :=
  rsrcClean sequenceManager rsrc conn sends

def sequenceMark (rollback : Bool) (conn : ConnId) :
    List (ConnLock SequenceInfo) → List (ConnLock SequenceInfo)
  | [] => []
  | holder :: rest =>
    if holder.conn = conn then { holder with info := { holder.info with rollback } } :: rest
    else holder :: sequenceMark rollback conn rest

def sequenceMarked (rsrc : SequenceRsrc) (rollback : Bool) (conn : ConnId) : SequenceRsrc :=
  { rsrc with data := { rsrc.data with holders := sequenceMark rollback conn rsrc.data.holders } }

/-- Unlike the other managers this one refuses an UNLOCK from a connection that holds nothing. -/
def resourceSequenceUnlock (rsrc : SequenceRsrc) (conn : ConnId) (msg : Msg) (sends : List Rc) :
    Inmsg SequenceData (ConnLock Unit) :=
  if some rsrc.name = msg.unlock8.name then
    match rsrcConnFind rsrc.data.holders conn with
    | some _ =>
      let marked := sequenceMarked rsrc (msg.unlock8.rollback ≠ 0) conn
      inmsgOfCleaned (resourceSequenceClean marked conn sends) msg
    | none => inmsgError .objCorrupted rsrc msg
  else inmsgError (unlockRefusal msg) rsrc msg

def resourceSequenceInmsg (rsrc : SequenceRsrc) (conn : ConnId) (lastStep : Int) (msg : Msg)
    (sends : List Rc) : Inmsg SequenceData (ConnLock Unit) :=
  match msg.verb with
  | .lock =>
    rsrcLock sequenceManager
      ⟨⟨conn, ()⟩, msg.lock8.wait ≠ 0, .lockBusy, fun data => some (sequenceElement data)⟩
      rsrc lastStep msg
  | .unlock => resourceSequenceUnlock rsrc conn msg sends
  | _ => inmsgError .protocolError rsrc msg

def resourceSequenceStep (rsrc : SequenceRsrc) : Call → SequenceRsrc
  | .inmsg conn lastStep msg env => (resourceSequenceInmsg rsrc conn lastStep msg env.sends).rsrc
  | .clean conn env => (resourceSequenceClean rsrc conn env.sends).rsrc

@[simp] theorem sequenceDraw_holders (data : SequenceData) :
    (sequenceDraw data).2.holders = data.holders := by
  unfold sequenceDraw
  split <;> rfl

@[simp] theorem resourceSequenceGet_holders (data : SequenceData) :
    (resourceSequenceGet data).2.holders = data.holders := by
  unfold resourceSequenceGet
  split
  · dsimp only
    split <;> simp
  · simp

@[simp] theorem resourceSequenceGet_counters (data : SequenceData) :
    (resourceSequenceGet data).2.totalQuantity = data.totalQuantity ∧
      (resourceSequenceGet data).2.lockedQuantity = data.lockedQuantity := by
  unfold resourceSequenceGet sequenceDraw
  split
  · dsimp only
    split_ifs <;> exact ⟨rfl, rfl⟩
  · split_ifs <;> exact ⟨rfl, rfl⟩

def sequenceHeld (holders : List (ConnLock SequenceInfo)) : List (ConnId × UInt32) :=
  holders.map fun holder => (holder.conn, holder.info.value)

theorem sequenceHeld_mark (rollback : Bool) (conn : ConnId)
    (holders : List (ConnLock SequenceInfo)) :
    sequenceHeld (sequenceMark rollback conn holders) = sequenceHeld holders := by
  induction holders with
  | nil => rfl
  | cons holder rest ih =>
    unfold sequenceMark
    split
    · rfl
    · simpa [sequenceHeld] using ih

theorem sequenceManager_release {data freed : SequenceData} {conn : ConnId}
    (released : sequenceManager.release data conn = some freed) :
    ∃ found : ConnLock SequenceInfo,
      found.conn = conn ∧ data.holders.Perm (found :: freed.holders) := by
  obtain ⟨found, present, rfl⟩ := Option.map_eq_some_iff.mp released
  obtain ⟨same, perm⟩ := rsrcConnFind_perm present
  exact ⟨found, same, perm⟩

theorem sequence_antitone : Antitone sequenceManager.toOps (fun _ => True) fun _ => True where
  take _ _ _ _ _ := trivial
  fail _ _ _ _ _ := trivial
  skip _ _ _ := trivial
  take_can _ _ _ _ _ _ can _ := can
  fail_can _ _ _ _ _ _ can _ := can
  skip_can _ _ _ := rfl

def sequenceLedger : Ledger sequenceManager UInt32 where
  held data := sequenceHeld data.holders
  item data _ := (resourceSequenceGet data).1
  take_held _ _ _ := List.Perm.refl _
  skip_held _ _ := rfl
  fail_held data _ _ := .inl (by simp [sequenceManager])
  release_held data conn freed released := by
    obtain ⟨found, same, perm⟩ := sequenceManager_release released
    exact ⟨found.info.value, same ▸ perm.map _⟩

theorem resourceSequenceInit_eq {name : Name} {rsrc : SequenceRsrc}
    (started : resourceSequenceInit name = .ok rsrc) :
    ∃ total, rsrcGetNumber name .sequence = .ok total ∧
      rsrc = ⟨name, ⟨total, 0, 1, if rsrcGetTransactional name then some [] else none, []⟩,
      []⟩ := by
  unfold resourceSequenceInit at started
  cases number : rsrcGetNumber name .sequence with
  | error rc => simp [number, bind, Except.bind] at started
  | ok total =>
    simp only [number, bind, Except.bind, pure, Except.pure, Except.ok.injEq] at started
    exact ⟨total, rfl, started.symm⟩

theorem resourceSequenceInit_ok {name : Name} {rsrc : SequenceRsrc}
    (started : resourceSequenceInit name = .ok rsrc) : rsrc.name = name ∧ rsrc.waitings = [] := by
  obtain ⟨total, _, rfl⟩ := resourceSequenceInit_eq started
  exact ⟨rfl, rfl⟩

end Flom
