import Flom.ResourceHierTree
import Flom.ResourceSimple

set_option autoImplicit false

namespace Flom

open Scan

theorem hierAttach_label (cl : HierLock) (missing : List Name) (tree : HierTree) :
    (hierAttach cl missing tree).label = tree.label := by
  cases tree
  cases missing <;> rfl

@[simp] theorem resourceHierAddLocker_label (data : HierData) (cl : HierLock) (path : List Name) :
    (resourceHierAddLocker data cl path).root.label = data.root.label :=
  Rose.update_label (hierAttach_label cl _) _ data.root

theorem hierRelease_label {name : Name} {data freed : HierData} {conn : ConnId}
    (released : hierRelease name data conn = some freed) : freed.root.label = data.root.label := by
  unfold hierRelease at released
  split at released
  · obtain rfl := Option.some.inj released
    exact Rose.update_label (fun tree => by cases tree; rfl) _ data.root
  · cases released

@[simp] theorem resourceHierGc_label (tree : HierTree) :
    (resourceHierGc tree).label = tree.label := by
  cases tree
  rw [resourceHierGc]
  rfl

def HierExclusive (root : HierTree) : Prop :=
  root.entries.Pairwise fun first second =>
    Comparable first.1 second.1 → ModesCompatible first.2.mode second.2.mode

theorem comparable_symm {first second : List Name} (related : Comparable first second) :
    Comparable second first :=
  related.symm

theorem modesCompatible_symm {first second : LockMode} (compatible : ModesCompatible first second) :
    ModesCompatible second first :=
  compatible.symm

theorem hierExclusive_perm {root : HierTree} {listed : List (List Name × HierLock)}
    (perm : root.entries.Perm listed) :
    HierExclusive root ↔ listed.Pairwise fun first second =>
      Comparable first.1 second.1 → ModesCompatible first.2.mode second.2.mode := by
  apply perm.pairwise_iff
  intro first second compatible related
  exact modesCompatible_symm (compatible (comparable_symm related))

structure HierSafe (label : Name) (data : HierData) : Prop where
  rooted : data.root.label = label
  exclusive : HierExclusive data.root
  live : ∀ entry ∈ data.root.entries, entry.2.freed = false

def nameRooted (label : Name) (name : Name) : Prop :=
  name.head? = some hierResourceSeparator ∧ (hierLevels name).head? = some label

instance (label name : Name) : Decidable (nameRooted label name) :=
  inferInstanceAs (Decidable (_ ∧ _))

theorem hierPlace_rooted {data : HierData} {name : Name}
    (rooted : nameRooted data.root.label name) :
    hierPlace data.root (hierLevels name) = hierLevels name := by
  rw [hierPlace, if_pos rooted.2]

theorem hierSafe_take {label : Name} (name : Name) (data : HierData) (waiter : HierWait)
    (safe : HierSafe label data) (rooted : nameRooted label waiter.name)
    (can : (hierManager name).can data waiter = true) :
    HierSafe label ((hierManager name).take data waiter) := by
  have perm := resourceHierAddLocker_entries data ⟨waiter.conn, waiter.mode, false⟩
    (hierLevels waiter.name)
  rw [hierPlace_rooted (safe.rooted ▸ rooted)] at perm
  refine ⟨(resourceHierAddLocker_label _ _ _).trans safe.rooted, ?_, ?_⟩
  · refine (hierExclusive_perm perm).mpr (List.Pairwise.cons ?_ safe.exclusive)
    intro entry member related
    have compatible := (resourceHierCanLock_iff _ _ _).mp can entry member (comparable_symm related)
    exact ⟨by rw [lockTable_symm, compatible], compatible⟩
  · intro entry member
    obtain rfl | held := List.mem_cons.mp (perm.mem_iff.mp member)
    · rfl
    · exact safe.live entry held

theorem hierSafe_release {label name : Name} (data : HierData) (conn : ConnId) (freed : HierData)
    (safe : HierSafe label data) (released : hierRelease name data conn = some freed) :
    HierSafe label freed := by
  obtain ⟨path, removed, _, perm⟩ := hierRelease_entries released
  refine ⟨(hierRelease_label released).trans safe.rooted, ?_, ?_⟩
  · exact ((hierExclusive_perm perm).mp safe.exclusive).of_cons
  · intro entry member
    exact safe.live entry (perm.mem_iff.mpr (List.mem_cons_of_mem _ member))

theorem hierSafe_gc {label : Name} {data : HierData} (safe : HierSafe label data) :
    HierSafe label ⟨resourceHierGc data.root⟩ := by
  refine ⟨(resourceHierGc_label _).trans safe.rooted, ?_, ?_⟩
  · simpa only [HierExclusive, resourceHierGc_entries] using safe.exclusive
  · simpa only [resourceHierGc_entries] using safe.live

def hierSentManager (name : Name) : Manager HierData HierWait ConnId :=
  { hierManager name with fail := (hierManager name).take }

theorem hierSafe_preserved (label name : Name) :
    Preserved (hierSentManager name).toOps (HierSafe label) fun waiter =>
      nameRooted label waiter.name where
  take data waiter safe rooted can := hierSafe_take name data waiter safe rooted can
  fail data waiter safe rooted can := hierSafe_take name data waiter safe rooted can
  skip _ _ safe := safe

def HierSound (label : Name) : HierRsrc → Prop :=
  Sound (HierSafe label) fun waiter => nameRooted label waiter.name

theorem hierCollect_sound {label : Name} {cleaned : Cleaned HierData HierWait}
    (sound : HierSound label cleaned.rsrc) : HierSound label (hierCollect cleaned).rsrc := by
  unfold hierCollect
  split
  · exact ⟨hierSafe_gc sound.data, sound.waitings⟩
  · exact sound

theorem resourceHierClean_sound {label : Name} (rsrc : HierRsrc) (conn : ConnId) (sends : List Rc)
    (sent : ∀ send ∈ sends, send = .ok) (sound : HierSound label rsrc) :
    HierSound label (resourceHierClean rsrc conn sends).rsrc := by
  have dead : rsrcClean (hierManager rsrc.name) rsrc conn sends =
      rsrcClean (hierSentManager rsrc.name) rsrc conn sends := by
    simp only [rsrcClean, (hierManager rsrc.name).clean_of_sent Rc.ok rsrc.data rsrc.waitings conn
      sends sent, hierSentManager]
  rw [resourceHierClean, dead]
  exact hierCollect_sound (rsrcClean_sound (hierSafe_preserved label rsrc.name) hierSafe_release
    rsrc conn sends sound)

def Call.sends : Call → List Rc
  | .inmsg _ _ _ env => env.sends
  | .clean _ env => env.sends

def Call.sent (call : Call) : Prop := ∀ send ∈ call.sends, send = .ok

/-- The names a run may use: they start with the separator and with the root of the locker. -/
def Call.rooted (label : Name) : Call → Prop
  | .inmsg _ _ msg _ =>
    (msg.verb = .lock → ∀ name, msg.lock8.name = some name → nameRooted label name) ∧
      (msg.verb = .unlock → ∀ name, msg.unlock8.name = some name → nameRooted label name)
  | .clean _ _ => True

theorem resourceHierStep_cleans {label : Name} {inv : HierData → Prop}
    (preserved : ∀ name, Preserved (hierSentManager name).toOps inv fun waiter =>
      nameRooted label waiter.name) (rsrc : HierRsrc) (call : Call)
    (cleans : ∀ (rsrc : HierRsrc) (conn : ConnId),
      Sound inv (fun waiter => nameRooted label waiter.name) rsrc →
      Sound inv (fun waiter => nameRooted label waiter.name)
        (resourceHierClean rsrc conn call.sends).rsrc)
    (sound : Sound inv (fun waiter => nameRooted label waiter.name) rsrc)
    (rooted : call.rooted label) :
    Sound inv (fun waiter => nameRooted label waiter.name) (resourceHierStep rsrc call) := by
  cases call with
  | inmsg conn lastStep msg env =>
    simp only [resourceHierStep, resourceHierInmsg]
    split
    · next locking =>
      split
      · next name named =>
        exact rsrcLock_sound (preserved rsrc.name) _ rsrc lastStep msg sound
          (rooted.1 locking name named)
      · exact sound
    · split
      · unfold resourceHierUnlock
        split
        · rw [inmsgOfCleaned_rsrc]
          exact cleans _ conn ⟨sound.data, sound.waitings⟩
        · exact sound
      · exact sound
    · exact sound
  | clean conn env => exact cleans rsrc conn sound

theorem resourceHierStep_sound {label : Name} (rsrc : HierRsrc) (call : Call)
    (sound : HierSound label rsrc) (rooted : call.rooted label) (sent : call.sent) :
    HierSound label (resourceHierStep rsrc call) := by
  refine resourceHierStep_cleans (hierSafe_preserved label) rsrc call ?_ sound rooted
  intro rsrc conn sound
  exact resourceHierClean_sound rsrc conn call.sends sent sound

theorem hierEmptyChain_entries (level : Name) (rest : List Name) :
    (hierEmptyChain level rest).entries = [] := by
  rw [hierEmptyChain_eq]
  exact Rose.bare_entries level rest

theorem resourceHierInit_sound {name : Name} {rsrc : HierRsrc}
    (started : resourceHierInit name = .ok rsrc) : HierSound rsrc.data.root.label rsrc := by
  obtain ⟨level, rest, _, _, rfl⟩ := resourceHierInit_eq started
  refine ⟨⟨rfl, ?_, ?_⟩, by simp⟩
  · simp [HierExclusive, hierEmptyChain_entries]
  · simp [hierEmptyChain_entries]

theorem hier_mutual_exclusion (name : Name) (rsrc : HierRsrc)
    (started : resourceHierInit name = .ok rsrc) (calls : List Call)
    (rooted : ∀ call ∈ calls, call.rooted rsrc.data.root.label) (sent : ∀ call ∈ calls, call.sent) :
    let reached := Run.run resourceHierStep rsrc calls
    (reached.data.root.entries.Pairwise fun first second => Comparable first.1 second.1 →
        lockTable first.2.mode second.2.mode = true ∧ lockTable second.2.mode first.2.mode = true) ∧
      ∀ entry ∈ reached.data.root.entries, entry.2.freed = false := by
  have sound : HierSound rsrc.data.root.label (Run.run resourceHierStep rsrc calls) := by
    apply Run.along_invariant resourceHierStep
      fun _ call => call.rooted rsrc.data.root.label ∧ call.sent
    · intro reached call sound ⟨rooted, sent⟩
      exact resourceHierStep_sound reached call sound rooted sent
    · exact resourceHierInit_sound started
    · exact Run.along_of_forall resourceHierStep _ rsrc calls
        fun call member _ => ⟨rooted call member, sent call member⟩
  exact ⟨sound.data.exclusive, sound.data.live⟩

def hierExampleName : Name := ['/', 'r', '/', 'a']

theorem hier_mutual_exclusion_below :
    let rsrc : HierRsrc := ⟨hierExampleName, ⟨.node ['r'] [] [.node ['a'] [] []]⟩, []⟩
    let above := Call.inmsg 1 8 (msgLock ['/', 'r'] .cr 1 0 1) Env.fine
    let below := Call.inmsg 2 8 (msgLock hierExampleName .pw 1 0 1) Env.fine
    let reached := Run.run resourceHierStep rsrc [above, below]
    reached.data.root.entries.length = 2 ∧
      (reached.data.root.entries.Pairwise fun first second => Comparable first.1 second.1 →
        lockTable first.2.mode second.2.mode = true ∧ lockTable second.2.mode first.2.mode = true) ∧
      ∀ entry ∈ reached.data.root.entries, entry.2.freed = false := by
  intro rsrc above below reached
  refine ⟨by decide, hier_mutual_exclusion hierExampleName rsrc rfl [above, below] ?_ ?_⟩
  · intro call member
    simp only [List.mem_cons, List.not_mem_nil, or_false] at member
    obtain rfl | rfl := member
    · exact ⟨fun _ _ named => Option.some.inj named ▸ by decide, fun locking => by cases locking⟩
    · exact ⟨fun _ _ named => Option.some.inj named ▸ by decide, fun locking => by cases locking⟩
  · intro call member
    simp only [List.mem_cons, List.not_mem_nil, or_false] at member
    obtain rfl | rfl := member <;> exact fun _ sending => by cases sending

theorem hier_antitone (name : Name) :
    Antitone (hierManager name).toOps (fun _ => True) fun _ => True where
  take _ _ _ _ _ := trivial
  fail _ _ _ _ _ := trivial
  skip _ _ _ := trivial
  take_can data waiter other _ _ _ _ later := by
    refine (resourceHierCanLock_iff _ _ _).mpr fun entry member related => ?_
    exact (resourceHierCanLock_iff _ _ _).mp later entry
      ((resourceHierAddLocker_entries data _ _).mem_iff.mpr (List.mem_cons_of_mem _ member)) related
  fail_can data waiter other _ _ _ _ later := by
    refine (resourceHierCanLock_iff _ _ _).mpr fun entry member related => ?_
    exact (resourceHierCanLock_iff _ _ _).mp later entry
      ((resourceHierAddLocker_entries data _ _).mem_iff.mpr (List.mem_cons_of_mem _ member)) related
  skip_can _ _ _ := rfl

def hierHeld (root : HierTree) : List (ConnId × List Name × LockMode) :=
  root.entries.map fun entry => (entry.2.conn, entry.1, entry.2.mode)

def hierLedger (name : Name) : Ledger (hierManager name) (List Name × LockMode) where
  held data := hierHeld data.root
  item data waiter := (hierPlace data.root (hierLevels waiter.name), waiter.mode)
  take_held data waiter _ := (resourceHierAddLocker_entries data _ _).map _
  skip_held _ _ := rfl
  fail_held data waiter _ := .inr ((resourceHierAddLocker_entries data _ _).map _)
  release_held data conn freed released := by
    obtain ⟨path, removed, mine, perm⟩ := hierRelease_entries released
    exact ⟨(path, removed.mode), mine ▸ perm.map _⟩

end Flom
