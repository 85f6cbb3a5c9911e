import Flom.DaemonResources
import Flom.HeldLocks

set_option autoImplicit false

namespace Flom

inductive Grant where
  | mode (mode : LockMode)
  | path (path : List Name) (mode : LockMode)
  | element (position : Nat)
  | quantity (quantity : Int32)
  | slot

def Grant.Agrees (first second : Grant) : Prop :=
  match first, second with
  | .mode first, .mode second => ModesCompatible first second
  | .path below first, .path beside second => Comparable below beside → ModesCompatible first second
  | .element first, .element second => first ≠ second
  | _, _ => True

def Grant.weight (grant : Grant) : Int :=
  match grant with
  | .mode _ | .path _ _ | .element _ => 0
  | .quantity count => count.toInt
  | .slot => 1

def Resource.grants : Resource → List (ConnId × Grant)
  | .simple rsrc => rsrc.data.holders.map fun holder => (holder.conn, .mode holder.info)
  | .numeric rsrc => rsrc.data.holders.map fun holder => (holder.conn, .quantity holder.info)
  | .set rsrc =>
    rsrc.data.elements.zipIdx.filterMap fun entry => entry.1.conn.map fun conn =>
    (conn, .element entry.2)
  | .hier rsrc => rsrc.data.root.entries.map fun entry => (entry.2.conn, .path entry.1 entry.2.mode)
  | .sequence rsrc => rsrc.data.holders.map fun holder => (holder.conn, .slot)
  | .timestamp rsrc => rsrc.data.holders.map fun holder => (holder.conn, .slot)

def Locker.hosting (locker : Locker) (client : ConnId) : Bool :=
  decide (locker.serves client) && decide (client ≠ locker.control)

def Daemon.grants (daemon : Daemon) (key : Key) : List (ConnId × Grant) :=
  daemon.lockers.flatMap fun slot =>
    if slot.thread.resource.key = key then
      slot.thread.resource.grants.filter fun grant => slot.thread.hosting grant.1
    else []

/-- Levels outside the tree and answers that do not arrive spoil a hierarchical resource, negative
quantities a numeric one. -/
def Resource.Admits (resource : Resource) (call : LockerCall) : Prop :=
  match resource, call with
  | .numeric _, .inmsg conn lastStep msg env => (Call.inmsg conn lastStep msg env).quantityNonneg
  | .hier rsrc, .inmsg conn lastStep msg env =>
    (Call.inmsg conn lastStep msg env).rooted rsrc.data.root.label ∧
      (Call.inmsg conn lastStep msg env).sent
  | .hier _, .clean conn env => (Call.clean conn env).sent
  | _, _ => True

instance admitsDecidable (resource : Resource) (call : LockerCall) :
    Decidable (resource.Admits call) :=
  match resource, call with
  | .numeric _, .inmsg conn lastStep msg env =>
    inferInstanceAs (Decidable (Call.inmsg conn lastStep msg env).quantityNonneg)
  | .hier rsrc, .inmsg _ _ msg env =>
    inferInstanceAs
      (Decidable
      (((msg.verb = .lock → ∀ name ∈ msg.lock8.name, nameRooted rsrc.data.root.label name) ∧
      (msg.verb = .unlock → ∀ name ∈ msg.unlock8.name, nameRooted rsrc.data.root.label name)) ∧
        ∀ send ∈ env.sends, send = .ok))
  | .hier _, .clean _ env => inferInstanceAs (Decidable (∀ send ∈ env.sends, send = .ok))
  | .simple _, _ | .set _, _ | .sequence _, _ | .timestamp _, _ | .numeric _,
      .clean _ _ | .numeric _, .timeout _
  | .hier _, .timeout _ => isTrue trivial

structure Limited (type : RsrcType) (name : Name) (keeps : Int32 → Prop) : Prop where
  typed : rsrcGetType name = type
  counted : ∃ total, rsrcGetNumber name type = .ok total ∧ (0 ≤ total → keeps total)

def Resource.Exclusive : Resource → Prop
  | .simple rsrc => SimpleExclusive rsrc.data
  | .numeric rsrc => Limited .numeric rsrc.name fun total => NumericSound total rsrc
  | .set _ => True
  | .hier rsrc => HierSound rsrc.data.root.label rsrc
  | .sequence rsrc => Limited .sequence rsrc.name fun total => rsrc.data.Slotted total
  | .timestamp rsrc => Limited .timestamp rsrc.name fun total => rsrc.data.Slotted total

theorem exclusive_init (name : Name) (resource : Resource)
    (started : resourceInit (rsrcGetType name) name = .ok resource) :
    resource.Exclusive := by
  cases type : rsrcGetType name with
  | null =>
    rw [type] at started
    cases started
  | simple =>
    rw [type] at started
    obtain rfl := Except.ok.inj started
    exact List.Pairwise.nil
  | set =>
    rw [type] at started
    obtain rfl := Except.ok.inj started
    trivial
  | numeric =>
    rw [type] at started
    obtain ⟨rsrc, made, rfl⟩ := except_map_ok started
    obtain ⟨total, number, rfl⟩ := resourceNumericInit_ok made
    exact ⟨type, total, number, fun positive => resourceNumericInit_sound made positive⟩
  | hier =>
    rw [type] at started
    obtain ⟨rsrc, made, rfl⟩ := except_map_ok started
    exact resourceHierInit_sound made
  | sequence =>
    rw [type] at started
    obtain ⟨rsrc, made, rfl⟩ := except_map_ok started
    obtain ⟨total, number, rfl⟩ := resourceSequenceInit_eq made
    exact ⟨type, total, number, fun _ => ⟨rfl, slots_init total⟩⟩
  | timestamp =>
    rw [type] at started
    obtain ⟨rsrc, made, rfl⟩ := except_map_ok started
    obtain ⟨format, total, _, number, _, rfl⟩ := resourceTimestampInit_eq made
    exact ⟨type, total, number, fun _ => ⟨rfl, slots_init total⟩⟩

theorem Limited.imp {type : RsrcType} {name : Name} {keeps keeps' : Int32 → Prop}
    (limited : Limited type name keeps) (step : ∀ total, keeps total → keeps' total) :
    Limited type name keeps' := by
  obtain ⟨typed, total, number, kept⟩ := limited
  exact ⟨typed, total, number, fun positive => step total (kept positive)⟩

theorem Limited.keeps_total {type : RsrcType} {name : Name} {keeps : Int32 → Prop} {total : Int32}
    (limited : Limited type name keeps) (number : rsrcGetNumber name (rsrcGetType name) = .ok total)
    (positive : 0 ≤ total) : keeps total := by
  obtain ⟨typed, total', counted, kept⟩ := limited
  rw [typed, counted] at number
  obtain rfl := Except.ok.inj number
  exact kept positive

theorem slotted_call {total : Int32} (rsrc : SequenceRsrc) (call : Call)
    (slotted : rsrc.data.Slotted total) :
    (resourceSequenceStep rsrc call).data.Slotted total := by
  have kept := slotted_step rsrc.logging call slotted
  rwa [show (sequenceHistoryStep rsrc.logging call).data.state =
    (resourceSequenceStep rsrc call).data from
    congrArg Rsrc.data (sequenceHistoryStep_unlogged rsrc.logging call)] at kept

theorem exclusive_call (resource : Resource) (call : LockerCall) (exclusive : resource.Exclusive)
    (admits : resource.Admits call) : (resourceCall resource call).Exclusive := by
  have key := resourceCall_key resource call
  cases resource with
  | simple rsrc =>
    have kept := fun call =>
      (resourceSimpleStep_exclusive rsrc call ⟨exclusive, fun _ _ => trivial⟩).data
    cases call with
    | inmsg conn lastStep msg env => exact kept (.inmsg conn lastStep msg env)
    | clean conn env => exact kept (.clean conn env)
    | timeout env => exact exclusive
  | set rsrc => cases call <;> trivial
  | numeric rsrc =>
    have kept := fun call nonneg => exclusive.imp fun total sound =>
      resourceNumericStep_sound total rsrc call sound nonneg
    cases call with
    | inmsg conn lastStep msg env =>
      have after := kept (.inmsg conn lastStep msg env) admits
      rwa [← Key.whole.inj key] at after
    | clean conn env =>
      have after := kept (.clean conn env) trivial
      rwa [← Key.whole.inj key] at after
    | timeout env => exact exclusive
  | hier rsrc =>
    have kept := fun call => @resourceHierStep_sound rsrc.data.root.label rsrc call exclusive
    cases call with
    | inmsg conn lastStep msg env =>
      have after := kept (.inmsg conn lastStep msg env) admits.1 admits.2
      rwa [← Key.level.inj key] at after
    | clean conn env =>
      have after := kept (.clean conn env) trivial admits
      rwa [← Key.level.inj key] at after
    | timeout env => exact exclusive
  | sequence rsrc =>
    have kept := fun call => exclusive.imp fun total slotted => slotted_call rsrc call slotted
    cases call with
    | inmsg conn lastStep msg env =>
      have after := kept (.inmsg conn lastStep msg env)
      rwa [← Key.whole.inj key] at after
    | clean conn env =>
      have after := kept (.clean conn env)
      rwa [← Key.whole.inj key] at after
    | timeout env => exact exclusive
  | timestamp rsrc =>
    have kept := fun call => exclusive.imp fun total slotted =>
      timestamp_slotted_step rsrc call slotted
    cases call with
    | inmsg conn lastStep msg env =>
      have after := kept (.call (.inmsg conn lastStep msg env))
      rwa [← Key.whole.inj key] at after
    | clean conn env =>
      have after := kept (.call (.clean conn env))
      rwa [← Key.whole.inj key] at after
    | timeout env =>
      have after := kept (.timeout env)
      rwa [← Key.whole.inj key] at after

theorem exclusive_agrees {resource : Resource} (exclusive : resource.Exclusive) :
    resource.grants.Pairwise fun first second => first.2.Agrees second.2 := by
  cases resource with
  | simple rsrc => exact List.pairwise_map.mpr exclusive
  | hier rsrc => exact List.pairwise_map.mpr exclusive.data.exclusive
  | set rsrc =>
    have places : (rsrc.data.elements.zipIdx.map Prod.snd).Nodup := by
      rw [List.zipIdx_map_snd]
      exact List.nodup_range'
    refine List.Pairwise.filterMap _ ?_ (List.pairwise_map.mp places)
    intro entry entry' distinct grant element grant' element'
    obtain ⟨conn, _, rfl⟩ := Option.map_eq_some_iff.mp element
    obtain ⟨conn', _, rfl⟩ := Option.map_eq_some_iff.mp element'
    exact distinct
  | numeric rsrc | sequence rsrc | timestamp rsrc =>
    exact List.pairwise_map.mpr (List.pairwise_of_forall fun _ _ => trivial)

theorem exclusive_weights {resource : Resource} {name : Name} {total : Int32}
    (exclusive : resource.Exclusive) (key : resource.key = .whole name)
    (number : rsrcGetNumber name (rsrcGetType name) = .ok total) (positive : 0 ≤ total) :
    (∀ grant ∈ resource.grants, 0 ≤ grant.2.weight) ∧
      (resource.grants.map fun grant => grant.2.weight).sum ≤ total.toInt := by
  have nonneg := Int32.le_iff_toInt_le.mp positive
  rw [Int32.toInt_zero] at nonneg
  have slotted {Info : Type} {locked : Int32} (holders : List (ConnLock Info))
      (slots : Slots total locked holders.length) :
      (∀ grant ∈ holders.map fun holder => (holder.conn, Grant.slot), 0 ≤ grant.2.weight) ∧
        ((holders.map fun holder => (holder.conn, Grant.slot)).map fun grant => grant.2.weight).sum
          ≤ total.toInt := by
    have bound := slots.bound
    simp [Grant.weight, Function.comp_def]
    omega
  have weightless {grants : List (ConnId × Grant)} (zero : ∀ grant ∈ grants, grant.2.weight = 0) :
      (∀ grant ∈ grants, 0 ≤ grant.2.weight) ∧
        (grants.map fun grant => grant.2.weight).sum ≤ total.toInt := by
    rw [List.map_congr_left zero]
    exact ⟨fun grant member => (zero grant member).ge, by simpa using nonneg⟩
  cases resource with
  | simple rsrc => exact weightless (by simp [Resource.grants, Grant.weight])
  | set rsrc =>
    refine weightless fun grant member => ?_
    obtain ⟨entry, _, element⟩ := List.mem_filterMap.mp member
    obtain ⟨conn, _, rfl⟩ := Option.map_eq_some_iff.mp element
    rfl
  | hier rsrc => cases key
  | numeric rsrc =>
    obtain rfl := Key.whole.inj key
    have conserved := (exclusive.keeps_total number positive).data
    have sum := conserved.sum
    have bound := conserved.bound
    rw [sum] at bound
    simpa [Resource.grants, Grant.weight, Function.comp_def, heldQuantity]
      using ⟨conserved.nonneg, bound⟩
  | sequence rsrc =>
    obtain rfl := Key.whole.inj key
    exact slotted rsrc.data.holders (exclusive.keeps_total number positive).2
  | timestamp rsrc =>
    obtain rfl := Key.whole.inj key
    exact slotted rsrc.data.holders (exclusive.keeps_total number positive).2

theorem grants_within {daemon : Daemon} (housed : daemon.Housed) (key : Key) :
    daemon.grants key = [] ∨ ∃ slot ∈ daemon.lockers, slot.thread.resource.key = key ∧
      (daemon.grants key).Sublist slot.thread.resource.grants := by
  have unhosted {slot : LockerSlot} (sound : slot.Sound) (retired : slot.writePipe = false) :
      (slot.thread.resource.grants.filter fun grant => slot.thread.hosting grant.1) = [] := by
    rw [List.filter_eq_nil_iff]
    intro grant _ hosting
    obtain ⟨serves, apart⟩ := Bool.and_eq_true_iff.mp hosting
    exact of_decide_eq_true apart
      (alone_serves (sound.retired retired).2 (of_decide_eq_true serves))
  have single : daemon.lockers.Pairwise fun first second =>
      (if first.thread.resource.key = key then
        first.thread.resource.grants.filter fun grant =>
          first.thread.hosting grant.1 else []) = [] ∨
      (if second.thread.resource.key = key then
        second.thread.resource.grants.filter fun grant => second.thread.hosting grant.1 else []) =
            [] := by
    refine List.Pairwise.imp_of_mem (fun {first second} here there apart => ?_) housed.apart
    by_cases writing : first.writePipe = true
    · by_cases writing' : second.writePipe = true
      · have distinct := apart writing writing'
        split_ifs with same same'
        · exact absurd (same.trans same'.symm) distinct
        · exact .inr rfl
        · exact .inl rfl
        · exact .inl rfl
      · rw [unhosted (housed.sound second there) (by simpa using writing'), ite_self]
        exact .inr rfl
    · rw [unhosted (housed.sound first here) (by simpa using writing), ite_self]
      exact .inl rfl
  obtain none | ⟨slot, member, same⟩ := Lists.flatMap_single single
  · exact .inl none
  · by_cases here : slot.thread.resource.key = key
    · rw [if_pos here] at same
      refine .inr ⟨slot, member, here, ?_⟩
      rw [Daemon.grants, same]
      exact List.filter_sublist
    · rw [if_neg here] at same
      exact .inl same

theorem grants_exclusive {daemon : Daemon} (housed : daemon.Housed)
    (exclusive : daemon.Resources Resource.Exclusive) (key : Key) :
    (daemon.grants key).Pairwise fun first second => first.2.Agrees second.2 := by
  obtain none | ⟨slot, member, _, within⟩ := grants_within housed key
  · rw [none]
    exact .nil
  · exact (exclusive_agrees (exclusive slot member)).sublist within

theorem grants_weights {daemon : Daemon} (housed : daemon.Housed)
    (exclusive : daemon.Resources Resource.Exclusive) {name : Name} {total : Int32}
    (number : rsrcGetNumber name (rsrcGetType name) = .ok total) (positive : 0 ≤ total) :
    (∀ grant ∈ daemon.grants (.whole name), 0 ≤ grant.2.weight) ∧
      ((daemon.grants (.whole name)).map fun grant => grant.2.weight).sum ≤ total.toInt := by
  have nonneg := Int32.le_iff_toInt_le.mp positive
  rw [Int32.toInt_zero] at nonneg
  obtain none | ⟨slot, member, key, within⟩ := grants_within housed (.whole name)
  · simpa [none] using nonneg
  · obtain ⟨weights, bound⟩ := exclusive_weights (exclusive slot member) key number positive
    refine ⟨fun grant held => weights grant (within.subset held),
      le_trans (List.Sublist.sum_le_sum (within.map _) ?_) bound⟩
    intro weight listed
    obtain ⟨grant, held, rfl⟩ := List.mem_map.mp listed
    exact weights grant held

theorem grants_agree (decode : Name → Name) (multicast tlsCheckPeerId : Bool) (turns : List Turn)
    (along : Run.Along (daemonStep decode)
      (fun daemon turn => (daemonStep decode daemon turn).keepsControl)
      (daemonStart multicast tlsCheckPeerId) turns)
    (admitted : Run.Along (daemonStep decode)
      (fun daemon turn => turn.Along decode (fun _ _ _ => True)
        (LockerSlot.Makes Resource.Admits) daemon)
      (daemonStart multicast tlsCheckPeerId) turns) (key : Key) :
    ((Run.run (daemonStep decode) (daemonStart multicast tlsCheckPeerId) turns).grants key).Pairwise
      fun first second => first.2.Agrees second.2 :=
  grants_exclusive (housed_run along) (resources_run exclusive_init exclusive_call admitted) key

instance makesDecidable (slot : LockerSlot) (event : PollEvent) :
    Decidable (slot.Makes Resource.Admits event) :=
  inferInstanceAs (Decidable (Run.Along _ _ _ _))

def encodedParent : Name := ['L', '2', 'E', '=']
def encodedFirst : Name := ['L', '2', 'E', 'v', 'Y', 'g', '=', '=']
def encodedSecond : Name := ['L', '2', 'E', 'v', 'Y', 'w', '=', '=']

def decodePaths (text : Name) : Name :=
  if text = encodedParent then ['/', 'a']
  else if text = encodedFirst then ['/', 'a', '/', 'b']
  else if text = encodedSecond then ['/', 'a', '/', 'c']
  else []

def exclusiveFeed (text : Name) : Feed where
  events :=
    [.start msgTagMsg [(msgPropLevel, ['3']), (msgPropVerb, ['1']), (msgPropStep, ['8'])],
      .start msgTagSession [(msgPropPeerid, ['p'])],
      .stop msgTagSession,
      .start msgTagResource
        [(msgPropName, text), (msgPropMode, ['5']), (msgPropWait, ['1']), (msgPropQuantity, ['1']),
          (msgPropCreate, ['1']), (msgPropLifespan, ['0'])],
      .stop msgTagResource, .stop msgTagMsg]
  wellFormed := true

def exclusiveTurn (text : Name) : Turn :=
  .poll [.quiet, { Accept.of (.bytes (exclusiveFeed text)) with control := 9 }.ready] []

theorem grants_agree_queued :
    let turns := [joinTurn 2, exclusiveTurn encodedFirst, readTurn, joinTurn 3,
      exclusiveTurn encodedSecond, readTurn,
      joinTurn 4, exclusiveTurn encodedParent, readTurn]
    let reached := Run.run (daemonStep decodePaths) (daemonStart false false) turns
    (reached.grants (.level ['a'])).map Prod.fst = [2, 3] ∧
      reached.lockers.map (fun slot => slot.thread.resource.waiting) = [[4]] ∧
      (reached.grants (.level ['a'])).Pairwise fun first second => first.2.Agrees second.2 := by
  intro turns reached
  exact ⟨by decide, by decide,
    grants_agree decodePaths false false turns (by decide) (by decide) (.level ['a'])⟩

theorem grants_bounded (decode : Name → Name) (multicast tlsCheckPeerId : Bool) (turns : List Turn)
    (along : Run.Along (daemonStep decode)
      (fun daemon turn => (daemonStep decode daemon turn).keepsControl)
      (daemonStart multicast tlsCheckPeerId) turns)
    (admitted : Run.Along (daemonStep decode)
      (fun daemon turn => turn.Along decode (fun _ _ _ => True)
        (LockerSlot.Makes Resource.Admits) daemon)
      (daemonStart multicast tlsCheckPeerId) turns)
    (name : Name) (total : Int32) (number : rsrcGetNumber name (rsrcGetType name) = .ok total)
    (positive : 0 ≤ total) :
    (((Run.run (daemonStep decode) (daemonStart multicast tlsCheckPeerId) turns).grants
      (.whole name)).map
      fun grant => grant.2.weight).sum ≤ total.toInt :=
  (grants_weights (housed_run along) (resources_run exclusive_init exclusive_call admitted) number
    positive).2

theorem grants_bounded_beside :
    let turns := [joinTurn 2, requestTurn [.quiet] ['1'] ['1'], readTurn, joinTurn 3,
      requestTurn [.quiet] ['4'] ['1'], readTurn]
    let reached := Run.run (daemonStep decodeFive) (daemonStart false false) turns
    let weights := (reached.grants (.whole (decodeFive encodedFive))).map fun grant =>
    grant.2.weight
    weights = [4, 1] ∧ weights.sum ≤ (5 : Int32).toInt := by
  intro turns reached weights
  refine ⟨by decide, ?_⟩
  exact grants_bounded decodeFive false false turns (by decide) (by decide)
    (decodeFive encodedFive) 5 (by decide) (by decide)

end Flom
