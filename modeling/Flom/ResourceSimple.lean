import Flom.Lib.Run
import Flom.Rsrc

set_option autoImplicit false

namespace Flom

open Scan

structure SimpleData where
  holders : List (ConnLock LockMode)
deriving DecidableEq, Repr

abbrev SimpleRsrc := Rsrc SimpleData (ConnLock LockMode)

def resourceSimpleCanLock (data : SimpleData) (lock : LockMode) : Bool :=
  data.holders.all fun holder => lockTable holder.info lock

def resourceSimpleInit (name : Name) : SimpleRsrc := ⟨name, ⟨[]⟩, []⟩

def simpleManager : Manager SimpleData (ConnLock LockMode) ConnId where
  can data waiter := resourceSimpleCanLock data waiter.info
  skip data _ := data
  take data waiter := { data with holders := waiter :: data.holders }
  fail data _ := data
  conn := ConnLock.conn
  release data conn :=
    (rsrcConnFind data.holders conn).map fun _ =>
      { data with holders := rsrcConnRemove data.holders conn }

def resourceSimpleWaitings (rsrc : SimpleRsrc) (sends : List Rc) :
    Cleaned SimpleData (ConnLock LockMode) :=
  rsrcWaitings simpleManager rsrc sends

def resourceSimpleClean (rsrc : SimpleRsrc) (conn : ConnId) (sends : List Rc) :
    Cleaned SimpleData (ConnLock LockMode) :=
  rsrcClean simpleManager rsrc conn sends

def resourceSimpleInmsg (rsrc : SimpleRsrc) (conn : ConnId) (lastStep : Int) (msg : Msg)
    (sends : List Rc) : Inmsg SimpleData (ConnLock LockMode) :=
  match msg.verb with
  | .lock =>
    rsrcLock simpleManager
      ⟨⟨conn, msg.lock8.mode⟩, msg.lock8.wait ≠ 0, .lockBusy, fun _ => none⟩ rsrc lastStep msg
  | .unlock => rsrcUnlock (resourceSimpleClean rsrc conn sends) rsrc msg
  | _ => inmsgError .protocolError rsrc msg

def resourceSimpleStep (rsrc : SimpleRsrc) : Call → SimpleRsrc
  | .inmsg conn lastStep msg env => (resourceSimpleInmsg rsrc conn lastStep msg env.sends).rsrc
  | .clean conn env => (resourceSimpleClean rsrc conn env.sends).rsrc

def ModesCompatible (first second : LockMode) : Prop :=
  lockTable first second = true ∧ lockTable second first = true

def SimpleExclusive (data : SimpleData) : Prop :=
  data.holders.Pairwise fun first second => ModesCompatible first.info second.info

theorem simpleManager_release {data freed : SimpleData} {conn : ConnId}
    (released : simpleManager.release data conn = some freed) :
    ∃ found : ConnLock LockMode,
      found.conn = conn ∧ data.holders.Perm (found :: freed.holders) ∧
        freed.holders.Sublist data.holders := by
  obtain ⟨found, present, rfl⟩ := Option.map_eq_some_iff.mp released
  obtain ⟨same, perm⟩ := rsrcConnFind_perm present
  exact ⟨found, same, perm, List.eraseP_sublist⟩

theorem simple_antitone : Antitone simpleManager.toOps (fun _ => True) fun _ => True where
  take _ _ _ _ _ := trivial
  fail _ _ _ _ _ := trivial
  skip _ _ _ := trivial
  take_can data waiter other _ _ _ _ later := by
    simp only [simpleManager, resourceSimpleCanLock, List.all_cons, Bool.and_eq_true] at later
    exact later.2
  fail_can _ _ _ _ _ _ _ later := later
  skip_can _ _ _ := rfl

def simpleLedger : Ledger simpleManager LockMode where
  held data := heldPairs data.holders
  item _ waiter := waiter.info
  take_held _ _ _ := List.Perm.refl _
  skip_held _ _ := rfl
  fail_held _ _ _ := .inl (List.Perm.refl _)
  release_held data conn freed released := by
    obtain ⟨found, same, perm, _⟩ := simpleManager_release released
    exact ⟨found.info, same ▸ perm.map _⟩

theorem simple_exclusive_take (data : SimpleData) (waiter : ConnLock LockMode)
    (exclusive : SimpleExclusive data) (can : simpleManager.can data waiter = true) :
    SimpleExclusive (simpleManager.take data waiter) := by
  refine List.Pairwise.cons ?_ exclusive
  intro holder member
  have compatible : lockTable holder.info waiter.info = true :=
    List.all_eq_true.mp can holder member
  exact ⟨by rw [lockTable_symm, compatible], compatible⟩

theorem simple_exclusive_preserved :
    Preserved simpleManager.toOps SimpleExclusive fun _ => True where
  take data waiter exclusive _ can := simple_exclusive_take data waiter exclusive can
  fail _ _ exclusive _ _ := exclusive
  skip _ _ exclusive := exclusive

theorem simple_exclusive_release (data : SimpleData) (conn : ConnId) (freed : SimpleData)
    (exclusive : SimpleExclusive data) (released : simpleManager.release data conn = some freed) :
    SimpleExclusive freed := by
  obtain ⟨_, _, _, sublist⟩ := simpleManager_release released
  exact exclusive.sublist sublist

theorem resourceSimpleStep_exclusive (rsrc : SimpleRsrc) (call : Call)
    (sound : Sound SimpleExclusive (fun _ => True) rsrc) :
    Sound SimpleExclusive (fun _ => True) (resourceSimpleStep rsrc call) := by
  have cleaned := fun conn sends => rsrcClean_sound simple_exclusive_preserved
    simple_exclusive_release rsrc conn sends sound
  cases call with
  | inmsg conn lastStep msg env =>
    simp only [resourceSimpleStep, resourceSimpleInmsg]
    split
    · exact rsrcLock_sound simple_exclusive_preserved _ rsrc lastStep msg sound trivial
    · exact rsrcUnlock_rsrc msg sound (cleaned conn env.sends)
    · exact sound
  | clean conn env => exact cleaned conn env.sends

theorem simple_mutual_exclusion (name : Name) (calls : List Call) :
    (Run.run resourceSimpleStep (resourceSimpleInit name) calls).data.holders.Pairwise
      fun first second => lockTable first.info second.info = true ∧
        lockTable second.info first.info = true := by
  have sound := Run.run_invariant resourceSimpleStep (Sound SimpleExclusive fun _ => True)
    resourceSimpleStep_exclusive (resourceSimpleInit name) calls
    ⟨List.Pairwise.nil, fun _ _ => trivial⟩
  exact sound.data

end Flom
