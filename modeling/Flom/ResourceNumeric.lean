import Flom.Lib.Run
import Flom.Rsrc
import Flom.RsrcName
import Flom.Slots
import Mathlib.Algebra.BigOperators.Group.List.Basic
import Mathlib.Algebra.Order.BigOperators.Group.List

set_option autoImplicit false

namespace Flom

open Scan

structure NumericData where
  totalQuantity : Int32
  lockedQuantity : Int32
  holders : List (ConnLock Int32)
deriving DecidableEq, Repr

abbrev NumericRsrc := Rsrc NumericData (ConnLock Int32)

def resourceNumericCanLock (data : NumericData) (quantity : Int32) : Bool :=
  quantity ≤ data.totalQuantity - data.lockedQuantity

def resourceNumericInit (name : Name) : Except Rc NumericRsrc := do
  let totalQuantity ← rsrcGetNumber name .numeric
  return ⟨name, ⟨totalQuantity, 0, []⟩, []⟩

theorem resourceNumericInit_error {name : Name} {rc : Rc}
    (failed : resourceNumericInit name = .error rc) :
    rc = .regexecError :=
  error_of_number failed

def numericManager : Manager NumericData (ConnLock Int32) ConnId where
  can data waiter := resourceNumericCanLock data waiter.info
  skip data _ := data
  take data waiter :=
    { data with
      holders := waiter :: data.holders
      lockedQuantity := data.lockedQuantity + waiter.info }
  fail data _ := data
  conn := ConnLock.conn
  release data conn :=
    (rsrcConnFind data.holders conn).map fun found =>
      { data with
        holders := rsrcConnRemove data.holders conn
        lockedQuantity := data.lockedQuantity - found.info }

def resourceNumericWaitings (rsrc : NumericRsrc) (sends : List Rc) :
    Cleaned NumericData (ConnLock Int32) :=
  rsrcWaitings numericManager rsrc sends

def resourceNumericClean (rsrc : NumericRsrc) (conn : ConnId) (sends : List Rc) :
    Cleaned NumericData (ConnLock Int32) :=
  rsrcClean numericManager rsrc conn sends

def numericRequest (rsrc : NumericRsrc) (conn : ConnId) (msg : Msg) :
    Request NumericData (ConnLock Int32) :=
  let impossible := rsrc.data.totalQuantity < msg.lock8.quantity
  { waiter := ⟨conn, msg.lock8.quantity⟩
    wait := if impossible then false else msg.lock8.wait ≠ 0
    refusal := if impossible then .lockImpossible else .lockBusy
    element := fun _ => none }

def resourceNumericInmsg (rsrc : NumericRsrc) (conn : ConnId) (lastStep : Int) (msg : Msg)
    (sends : List Rc) : Inmsg NumericData (ConnLock Int32) :=
  match msg.verb with
  | .lock => rsrcLock numericManager (numericRequest rsrc conn msg) rsrc lastStep msg
  | .unlock => rsrcUnlock (resourceNumericClean rsrc conn sends) rsrc msg
  | _ => inmsgError .protocolError rsrc msg

def resourceNumericStep (rsrc : NumericRsrc) : Call → NumericRsrc
  | .inmsg conn lastStep msg env => (resourceNumericInmsg rsrc conn lastStep msg env.sends).rsrc
  | .clean conn env => (resourceNumericClean rsrc conn env.sends).rsrc

def heldQuantity (holders : List (ConnLock Int32)) : Int :=
  (holders.map fun holder => holder.info.toInt).sum

structure NumericConserved (total : Int32) (data : NumericData) : Prop where
  capacity : data.totalQuantity = total
  sum : data.lockedQuantity.toInt = heldQuantity data.holders
  bound : data.lockedQuantity.toInt ≤ total.toInt
  nonneg : ∀ holder ∈ data.holders, 0 ≤ holder.info.toInt

theorem heldQuantity_nonneg {holders : List (ConnLock Int32)}
    (nonneg : ∀ holder ∈ holders, 0 ≤ holder.info.toInt) : 0 ≤ heldQuantity holders := by
  apply List.sum_nonneg
  intro quantity member
  obtain ⟨holder, present, rfl⟩ := List.mem_map.mp member
  exact nonneg holder present

theorem NumericConserved.locked_nonneg {total : Int32} {data : NumericData}
    (conserved : NumericConserved total data) : 0 ≤ data.lockedQuantity.toInt := by
  rw [conserved.sum]
  exact heldQuantity_nonneg conserved.nonneg

theorem NumericConserved.sub_fits {total : Int32} {data : NumericData}
    (conserved : NumericConserved total data) :
    gintFits (data.totalQuantity.toInt - data.lockedQuantity.toInt) := by
  have low := conserved.locked_nonneg
  have high := total.toInt_lt
  have bound := conserved.bound
  rw [conserved.capacity]
  constructor <;> omega

theorem NumericConserved.can_iff {total : Int32} {data : NumericData}
    (conserved : NumericConserved total data) (quantity : Int32) :
    resourceNumericCanLock data quantity = true ↔
      data.lockedQuantity.toInt + quantity.toInt ≤ total.toInt := by
  have subtracted := int32_sub_toInt conserved.sub_fits
  rw [conserved.capacity] at subtracted
  simp only [resourceNumericCanLock, decide_eq_true_eq, Int32.le_iff_toInt_le, conserved.capacity,
    subtracted]
  omega

theorem NumericConserved.add_fits {total : Int32} {data : NumericData}
    (conserved : NumericConserved total data) {quantity : Int32} (positive : 0 ≤ quantity.toInt)
    (can : resourceNumericCanLock data quantity = true) :
    gintFits (data.lockedQuantity.toInt + quantity.toInt) := by
  have fits := (conserved.can_iff quantity).mp can
  have low := conserved.locked_nonneg
  have high := total.toInt_lt
  constructor <;> omega

theorem numeric_conserved_take {total : Int32} (data : NumericData) (waiter : ConnLock Int32)
    (conserved : NumericConserved total data) (positive : 0 ≤ waiter.info.toInt)
    (can : numericManager.can data waiter = true) :
    NumericConserved total (numericManager.take data waiter) := by
  have added := int32_add_toInt (conserved.add_fits positive can)
  constructor
  · exact conserved.capacity
  · simp only [numericManager, added, heldQuantity, List.map_cons, List.sum_cons, conserved.sum]
    omega
  · exact added ▸ (conserved.can_iff waiter.info).mp can
  · intro holder member
    obtain rfl | held := List.mem_cons.mp member
    · exact positive
    · exact conserved.nonneg holder held

theorem numeric_conserved_preserved (total : Int32) :
    Preserved numericManager.toOps (NumericConserved total) fun waiter =>
    0 ≤ waiter.info.toInt where
  take data waiter conserved positive can :=
    numeric_conserved_take data waiter conserved positive can
  fail _ _ conserved _ _ := conserved
  skip _ _ conserved := conserved

theorem numericManager_release {data freed : NumericData} {conn : ConnId}
    (released : numericManager.release data conn = some freed) :
    ∃ found : ConnLock Int32, found.conn = conn ∧ data.holders.Perm (found :: freed.holders) ∧
      freed.totalQuantity = data.totalQuantity ∧
      freed.lockedQuantity = data.lockedQuantity - found.info := by
  obtain ⟨found, present, rfl⟩ := Option.map_eq_some_iff.mp released
  obtain ⟨same, perm⟩ := rsrcConnFind_perm present
  exact ⟨found, same, perm, rfl, rfl⟩

theorem numeric_conserved_release {total : Int32} (data : NumericData) (conn : ConnId)
    (freed : NumericData) (conserved : NumericConserved total data)
    (released : numericManager.release data conn = some freed) : NumericConserved total freed := by
  obtain ⟨found, _, perm, sameTotal, locked⟩ := numericManager_release released
  have members : ∀ holder, holder ∈ found :: freed.holders → 0 ≤ holder.info.toInt :=
    fun holder member => conserved.nonneg holder (perm.mem_iff.mpr member)
  have rest := heldQuantity_nonneg fun holder member =>
    members holder (List.mem_cons_of_mem _ member)
  have positive := members found (by simp)
  have split : heldQuantity data.holders = found.info.toInt + heldQuantity freed.holders := by
    simpa [heldQuantity] using (perm.map fun holder => holder.info.toInt).sum_eq
  have sum := conserved.sum
  have bound := conserved.bound
  have high := total.toInt_lt
  have subtracted : freed.lockedQuantity.toInt = data.lockedQuantity.toInt - found.info.toInt := by
    rw [locked]
    exact int32_sub_toInt ⟨by omega, by omega⟩
  exact
    { capacity := sameTotal.trans conserved.capacity
      sum := by omega
      bound := by omega
      nonneg := fun holder member => members holder (List.mem_cons_of_mem _ member) }

theorem numeric_antitone (total : Int32) :
    Antitone numericManager.toOps (NumericConserved total) fun waiter => 0 ≤ waiter.info.toInt where
  toPreserved := numeric_conserved_preserved total
  take_can data waiter other conserved positive _ can later := by
    have taken := numeric_conserved_take data waiter conserved positive can
    have fits := (taken.can_iff other.info).mp later
    have added : (numericManager.take data waiter).lockedQuantity.toInt =
        data.lockedQuantity.toInt + waiter.info.toInt :=
      int32_add_toInt (conserved.add_fits positive can)
    exact (conserved.can_iff other.info).mpr (by omega)
  fail_can _ _ _ _ _ _ _ later := later
  skip_can _ _ _ := rfl

def numericLedger : Ledger numericManager Int32 where
  held data := heldPairs data.holders
  item _ waiter := waiter.info
  take_held _ _ _ := List.Perm.refl _
  skip_held _ _ := rfl
  fail_held _ _ _ := .inl (List.Perm.refl _)
  release_held data conn freed released := by
    obtain ⟨found, same, perm, _⟩ := numericManager_release released
    exact ⟨found.info, same ▸ perm.map _⟩

def numericArithmetic (data : NumericData) (waiter : ConnLock Int32) : Prop :=
  gintFits (data.totalQuantity.toInt - data.lockedQuantity.toInt) ∧
    (resourceNumericCanLock data waiter.info = true →
      gintFits (data.lockedQuantity.toInt + waiter.info.toInt))

def numericCleanSafe (rsrc : NumericRsrc) (conn : ConnId) (sends : List Rc) : Prop :=
  ∀ freed, numericManager.release rsrc.data conn = some freed →
    Visits numericManager.toOps Rc.ok numericArithmetic freed rsrc.waitings sends

def numericCallSafe (rsrc : NumericRsrc) : Call → Prop
  | .inmsg conn _ msg env =>
    (msg.verb = .lock → numericArithmetic rsrc.data ⟨conn, msg.lock8.quantity⟩) ∧
      (msg.verb = .unlock → numericCleanSafe rsrc conn env.sends)
  | .clean conn env => numericCleanSafe rsrc conn env.sends

structure NumericLaw (total : Int32) (rsrc : NumericRsrc) (next : Call) : Prop where
  sum : rsrc.data.lockedQuantity.toInt = heldQuantity rsrc.data.holders
  low : 0 ≤ rsrc.data.lockedQuantity.toInt
  high : rsrc.data.lockedQuantity.toInt ≤ total.toInt
  safe : numericCallSafe rsrc next

def Call.quantityNonneg : Call → Prop
  | .inmsg _ _ msg _ => msg.verb = .lock → 0 ≤ msg.lock8.quantity.toInt
  | .clean _ _ => True

instance (call : Call) : Decidable call.quantityNonneg :=
  match call with
  | .inmsg _ _ msg _ =>
    inferInstanceAs (Decidable (msg.verb = .lock → 0 ≤ msg.lock8.quantity.toInt))
  | .clean _ _ => inferInstanceAs (Decidable True)

def NumericSound (total : Int32) : NumericRsrc → Prop :=
  Sound (NumericConserved total) fun waiter => 0 ≤ waiter.info.toInt

theorem resourceNumericStep_sound (total : Int32) (rsrc : NumericRsrc) (call : Call)
    (sound : NumericSound total rsrc) (nonneg : call.quantityNonneg) :
    NumericSound total (resourceNumericStep rsrc call) := by
  have preserved := numeric_conserved_preserved total
  have cleaned := fun conn sends => rsrcClean_sound preserved numeric_conserved_release rsrc conn
    sends sound
  cases call with
  | inmsg conn lastStep msg env =>
    simp only [resourceNumericStep, resourceNumericInmsg]
    split
    · next locking => exact rsrcLock_sound preserved _ rsrc lastStep msg sound (nonneg locking)
    · exact rsrcUnlock_rsrc msg sound (cleaned conn env.sends)
    · exact sound
  | clean conn env => exact cleaned conn env.sends

theorem NumericConserved.arithmetic {total : Int32} {data : NumericData}
    (conserved : NumericConserved total data) (waiter : ConnLock Int32)
    (positive : 0 ≤ waiter.info.toInt) : numericArithmetic data waiter :=
  ⟨conserved.sub_fits, fun can => conserved.add_fits positive can⟩

theorem numericCleanSafe_of_sound {total : Int32} {rsrc : NumericRsrc}
    (sound : NumericSound total rsrc) (conn : ConnId) (sends : List Rc) :
    numericCleanSafe rsrc conn sends := by
  intro freed released
  have conserved := numeric_conserved_release rsrc.data conn freed sound.data released
  exact visits_of_preserved (numeric_conserved_preserved total)
    (fun _ waiter conserved positive => conserved.arithmetic waiter positive)
    .ok freed rsrc.waitings sends conserved sound.waitings

theorem NumericSound.law {total : Int32} {rsrc : NumericRsrc} (sound : NumericSound total rsrc)
    (next : Call) (nonneg : next.quantityNonneg) : NumericLaw total rsrc next := by
  refine ⟨sound.data.sum, sound.data.locked_nonneg, sound.data.bound, ?_⟩
  cases next with
  | inmsg conn lastStep msg env =>
    exact ⟨fun locking => sound.data.arithmetic _ (nonneg locking),
      fun _ => numericCleanSafe_of_sound sound conn env.sends⟩
  | clean conn env => exact numericCleanSafe_of_sound sound conn env.sends

theorem resourceNumericInit_ok {name : Name} {rsrc : NumericRsrc}
    (started : resourceNumericInit name = .ok rsrc) :
    ∃ total, rsrcGetNumber name .numeric = .ok total ∧ rsrc = ⟨name, ⟨total, 0, []⟩, []⟩ := by
  unfold resourceNumericInit at started
  cases number : rsrcGetNumber name .numeric with
  | error rc => simp [number, bind, Except.bind] at started
  | ok total =>
    simp only [number, bind, Except.bind, pure, Except.pure, Except.ok.injEq] at started
    exact ⟨total, rfl, started.symm⟩

theorem resourceNumericInit_sound {name : Name} {rsrc : NumericRsrc}
    (started : resourceNumericInit name = .ok rsrc) (positive : 0 ≤ rsrc.data.totalQuantity) :
    NumericSound rsrc.data.totalQuantity rsrc := by
  have total := Int32.le_iff_toInt_le.mp positive
  obtain ⟨quantity, _, rfl⟩ := resourceNumericInit_ok started
  refine ⟨⟨rfl, rfl, total, ?_⟩, ?_⟩ <;> simp

theorem numeric_conservation (name : Name) (rsrc : NumericRsrc)
    (started : resourceNumericInit name = .ok rsrc) (positive : 0 ≤ rsrc.data.totalQuantity)
    (calls : List Call) (nonneg : ∀ call ∈ calls, call.quantityNonneg)
    (next : Call) (nextNonneg : next.quantityNonneg) :
    NumericLaw rsrc.data.totalQuantity (Run.run resourceNumericStep rsrc calls) next := by
  have sound : NumericSound rsrc.data.totalQuantity (Run.run resourceNumericStep rsrc calls) := by
    apply Run.along_invariant resourceNumericStep (fun _ call => call.quantityNonneg)
    · intro reached call sound nonneg
      exact resourceNumericStep_sound _ reached call sound nonneg
    · exact resourceNumericInit_sound started positive
    · exact Run.along_of_forall resourceNumericStep _ rsrc calls fun call member _ =>
        nonneg call member
  exact sound.law next nextNonneg

def numericExampleName : Name := ['x', '[', '5', ']']

theorem numeric_conservation_shared :
    let first := Call.inmsg 1 8 (msgLock numericExampleName .ex 1 3 1) Env.fine
    let second := Call.inmsg 2 8 (msgLock numericExampleName .ex 1 4 1) Env.fine
    let rsrc : NumericRsrc := ⟨numericExampleName, ⟨5, 0, []⟩, []⟩
    NumericLaw 5 (Run.run resourceNumericStep rsrc [first, second]) (.clean 1 Env.fine) := by
  intro first second rsrc
  apply numeric_conservation numericExampleName rsrc (by decide) (by decide)
  · decide
  · trivial

theorem numeric_conservation_negative_quantity :
    let call := Call.inmsg 1 8 (msgLock numericExampleName .ex 1 (-5) 1) Env.fine
    ∃ rsrc, resourceNumericInit numericExampleName = .ok rsrc ∧ 0 ≤ rsrc.data.totalQuantity ∧
      ¬NumericLaw rsrc.data.totalQuantity (Run.run resourceNumericStep rsrc [call])
        (.clean 1 Env.fine) := by
  refine ⟨⟨numericExampleName, ⟨5, 0, []⟩, []⟩, by decide, by decide, ?_⟩
  intro law
  exact absurd law.low (by decide)

end Flom
