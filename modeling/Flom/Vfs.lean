import Flom.Types
import Mathlib.Data.List.Nodup
import Mathlib.Data.List.Perm.Basic
import Mathlib.Tactic.SplitIfs

set_option autoImplicit false

namespace Flom

structure VfsLocker where
  uid : ConnId
  holders : List ConnId
  waitings : List ConnId
deriving DecidableEq, Repr

structure VfsTree where
  incubator : List ConnId
  lockers : List VfsLocker
deriving DecidableEq, Repr

inductive VfsCall where
  | addLocker (uid : ConnId)
  | delLocker (uid : ConnId)
  | addLockerConn (locker conn : ConnId) (holder : Bool)
  | moveLockerConn (conn : ConnId)
  | delConn (conn : ConnId) (incubating : Bool)
  | addIncubatorConn (conn : ConnId)
deriving DecidableEq, Repr

def VfsLocker.names (conn : ConnId) (dir : VfsLocker) : Bool :=
  decide (conn ∈ dir.holders ++ dir.waitings)

def VfsLocker.addConn (dir : VfsLocker) (conn : ConnId) (holder : Bool) : VfsLocker :=
  if holder then { dir with holders := dir.holders ++ [conn] }
  else { dir with waitings := dir.waitings ++ [conn] }

def VfsLocker.delConn (dir : VfsLocker) (conn : ConnId) : VfsLocker :=
  if conn ∈ dir.holders then { dir with holders := dir.holders.erase conn }
  else { dir with waitings := dir.waitings.erase conn }

def VfsLocker.moveConn (dir : VfsLocker) (conn : ConnId) : VfsLocker :=
  if conn ∈ dir.holders then dir
  else if conn ∈ dir.waitings then
    { dir with holders := dir.holders ++ [conn], waitings := dir.waitings.erase conn }
  else dir

/-- What flom_vfs_ram_tree_find_node_by_name finds first: it walks through the lockers in turn,
and in each through the holders before the waiting. Lockers and connections have their uids from
one counter, so that none has the name of another, and no node has the uid of a pipe, zero. -/
def vfsUpdate (found : VfsLocker → Bool) (change : VfsLocker → VfsLocker) : List VfsLocker →
    List VfsLocker
  | [] => []
  | dir :: rest => if found dir then change dir :: rest else dir :: vfsUpdate found change rest

def VfsTree.call (tree : VfsTree) : VfsCall → VfsTree
  | .addLocker uid => { tree with lockers := tree.lockers ++ [⟨uid, [], []⟩] }
  | .delLocker uid => { tree with lockers := tree.lockers.eraseP fun dir => dir.uid = uid }
  | .addLockerConn locker conn holder =>
    { tree with lockers := vfsUpdate (fun dir =>
      dir.uid = locker) (·.addConn conn holder) tree.lockers }
  | .moveLockerConn conn =>
    { tree with lockers := vfsUpdate (·.names conn) (·.moveConn conn) tree.lockers }
  | .delConn conn true => { tree with incubator := tree.incubator.erase conn }
  | .delConn conn false =>
    { tree with lockers := vfsUpdate (·.names conn) (·.delConn conn) tree.lockers }
  | .addIncubatorConn conn => { tree with incubator := tree.incubator ++ [conn] }

def VfsTree.run (tree : VfsTree) (calls : List VfsCall) : VfsTree := calls.foldl VfsTree.call tree

def vfsInit : VfsTree := ⟨[], []⟩

def VfsLocker.call (dir : VfsLocker) : VfsCall → VfsLocker
  | .addLockerConn locker conn holder => if dir.uid = locker then dir.addConn conn holder else dir
  | .moveLockerConn conn => dir.moveConn conn
  | .delConn conn false => dir.delConn conn
  | .addLocker _ | .delLocker _ | .delConn _ true | .addIncubatorConn _ => dir

def VfsLocker.run (dir : VfsLocker) (calls : List VfsCall) : VfsLocker :=
  calls.foldl VfsLocker.call dir

def VfsCall.within (uid : ConnId) (conns : List ConnId) : VfsCall → Prop
  | .addLockerConn locker conn _ => locker = uid ∧ conn ∈ conns
  | .moveLockerConn conn | .delConn conn false => conn ∈ conns
  | .addLocker _ | .delLocker _ | .delConn _ true | .addIncubatorConn _ => False

structure VfsLocker.Lists (dir : VfsLocker) (holding waiting : List ConnId) : Prop where
  holders : dir.holders.Perm holding
  waitings : dir.waitings.Perm waiting
  once : (holding ++ waiting).Nodup

@[simp] theorem run_nil (tree : VfsTree) : tree.run [] = tree := rfl

theorem run_append (tree : VfsTree) (first second : List VfsCall) :
    tree.run (first ++ second) = (tree.run first).run second := List.foldl_append

theorem dir_run_append (dir : VfsLocker) (first second : List VfsCall) :
    dir.run (first ++ second) = (dir.run first).run second := List.foldl_append

section

variable {dir : VfsLocker} {conn : ConnId} {holding waiting : List ConnId}

theorem VfsLocker.Lists.perm (lists : dir.Lists holding waiting) {holding' waiting' : List ConnId}
    (held : holding.Perm holding') (queued : waiting.Perm waiting') : dir.Lists holding' waiting' :=
  ⟨lists.holders.trans held, lists.waitings.trans queued,
    (held.append queued).nodup_iff.mp lists.once⟩

theorem VfsLocker.Lists.add (lists : dir.Lists holding waiting) (new : conn ∉ holding ++ waiting)
    (holder : Bool) :
    (dir.addConn conn holder).Lists (if holder then conn :: holding else holding)
      (if holder then waiting else waiting ++ [conn]) := by
  have once : (conn :: (holding ++ waiting)).Nodup := List.nodup_cons.mpr ⟨new, lists.once⟩
  cases holder with
  | true =>
    exact ⟨(lists.holders.append_right [conn]).trans (List.perm_append_singleton conn holding),
      lists.waitings, once⟩
  | false =>
    refine ⟨lists.holders, lists.waitings.append_right [conn], ?_⟩
    rw [if_neg Bool.false_ne_true, if_neg Bool.false_ne_true, ← List.append_assoc]
    exact (List.perm_append_singleton conn _).nodup_iff.mpr once

theorem VfsLocker.Lists.move (lists : dir.Lists holding (conn :: waiting)) :
    (dir.moveConn conn).Lists (conn :: holding) waiting := by
  have once : (conn :: (holding ++ waiting)).Nodup := List.perm_middle.nodup_iff.mp lists.once
  have absent : conn ∉ dir.holders := fun member =>
    (List.nodup_cons.mp once).1 (List.mem_append_left _ (lists.holders.subset member))
  have queued : conn ∈ dir.waitings := lists.waitings.symm.subset List.mem_cons_self
  rw [VfsLocker.moveConn, if_neg absent, if_pos queued]
  refine ⟨?_, ?_, once⟩
  · exact (List.perm_append_singleton conn dir.holders).trans (lists.holders.cons conn)
  · simpa using lists.waitings.erase conn

theorem VfsLocker.Lists.del_holder (lists : dir.Lists (conn :: holding) waiting) :
    (dir.delConn conn).Lists holding waiting := by
  have held : conn ∈ dir.holders := lists.holders.symm.subset List.mem_cons_self
  rw [VfsLocker.delConn, if_pos held]
  exact ⟨by simpa using lists.holders.erase conn, lists.waitings, (List.nodup_cons.mp lists.once).2⟩

theorem VfsLocker.Lists.del_waiting (lists : dir.Lists holding waiting) (free : conn ∉ holding) :
    (dir.delConn conn).Lists holding (waiting.erase conn) := by
  have absent : conn ∉ dir.holders := fun member => free (lists.holders.subset member)
  rw [VfsLocker.delConn, if_neg absent]
  exact ⟨lists.holders, lists.waitings.erase conn,
    lists.once.sublist (List.erase_sublist.append_left holding)⟩

theorem VfsLocker.Lists.moves {told : List ConnId} (lists : dir.Lists holding (told ++ waiting)) :
    (dir.run (told.map .moveLockerConn)).Lists (told.reverse ++ holding) waiting := by
  induction told generalizing dir holding with
  | nil => exact lists
  | cons conn rest ih =>
    have moved := ih (VfsLocker.Lists.move lists)
    simpa [VfsLocker.run, VfsLocker.call] using moved

end

section

variable {dir : VfsLocker} {before after : List VfsLocker}

theorem vfsUpdate_absent {found : VfsLocker → Bool} {change : VfsLocker → VfsLocker}
    {dirs : List VfsLocker} (absent : ∀ dir ∈ dirs, found dir = false) :
    vfsUpdate found change dirs = dirs := by
  induction dirs with
  | nil => rfl
  | cons first rest ih =>
    rw [vfsUpdate, absent first List.mem_cons_self, if_neg Bool.false_ne_true,
      ih fun dir member => absent dir (List.mem_cons_of_mem first member)]

theorem vfsUpdate_split {found : VfsLocker → Bool} {change : VfsLocker → VfsLocker}
    (foreign : ∀ dir ∈ before ++ after, found dir = false) :
    vfsUpdate found change (before ++ dir :: after) = before ++
    (if found dir then change dir else dir) :: after := by
  induction before with
  | nil =>
    rw [List.nil_append, List.nil_append, vfsUpdate]
    split_ifs
    · rfl
    · rw [@vfsUpdate_absent found change after foreign]
  | cons first rest ih =>
    rw [List.cons_append, vfsUpdate, foreign first List.mem_cons_self, if_neg Bool.false_ne_true,
      ih fun dir member => foreign dir (List.mem_cons_of_mem first member)]
    rfl

theorem dir_call_uid (dir : VfsLocker) (call : VfsCall) : (dir.call call).uid = dir.uid := by
  cases call with
  | addLockerConn locker conn holder =>
    simp only [VfsLocker.call, VfsLocker.addConn]
    split_ifs <;> rfl
  | moveLockerConn conn =>
    simp only [VfsLocker.call, VfsLocker.moveConn]
    split_ifs <;> rfl
  | delConn conn incubating =>
    cases incubating with
    | true => rfl
    | false =>
      simp only [VfsLocker.call, VfsLocker.delConn]
      split_ifs <;> rfl
  | addLocker uid | delLocker uid | addIncubatorConn conn => rfl

theorem dir_run_uid (dir : VfsLocker) (calls : List VfsCall) : (dir.run calls).uid = dir.uid := by
  induction calls generalizing dir with
  | nil => rfl
  | cons call rest ih => exact (ih (dir.call call)).trans (dir_call_uid dir call)

theorem dir_call_names {conns : List ConnId} {call : VfsCall} (within : call.within dir.uid conns)
    (known : dir.holders ++ dir.waitings ⊆ conns) :
    (dir.call call).holders ++ (dir.call call).waitings ⊆ conns := by
  obtain ⟨holders, waitings⟩ := List.append_subset.mp known
  have left : ∀ conn, dir.waitings.erase conn ⊆ conns :=
    fun conn => List.Subset.trans List.erase_subset waitings
  cases call with
  | addLockerConn locker conn holder =>
    have added : [conn] ⊆ conns := List.cons_subset.mpr ⟨within.2, List.nil_subset conns⟩
    simp only [VfsLocker.call, VfsLocker.addConn]
    split_ifs
    · exact List.append_subset.mpr ⟨List.append_subset.mpr ⟨holders, added⟩, waitings⟩
    · exact List.append_subset.mpr ⟨holders, List.append_subset.mpr ⟨waitings, added⟩⟩
    · exact known
  | moveLockerConn conn =>
    have moved : [conn] ⊆ conns := List.cons_subset.mpr ⟨within, List.nil_subset conns⟩
    simp only [VfsLocker.call, VfsLocker.moveConn]
    split_ifs
    · exact known
    · exact List.append_subset.mpr ⟨List.append_subset.mpr ⟨holders, moved⟩, left conn⟩
    · exact known
  | delConn conn incubating =>
    cases incubating with
    | true => exact within.elim
    | false =>
      simp only [VfsLocker.call, VfsLocker.delConn]
      split_ifs
      · exact List.append_subset.mpr ⟨List.Subset.trans List.erase_subset holders, waitings⟩
      · exact List.append_subset.mpr ⟨holders, left conn⟩
  | addLocker uid | delLocker uid | addIncubatorConn conn => exact within.elim

theorem dir_run_names {conns : List ConnId} {calls : List VfsCall}
    (within : ∀ call ∈ calls, call.within dir.uid conns)
    (known : dir.holders ++ dir.waitings ⊆ conns) :
    (dir.run calls).holders ++ (dir.run calls).waitings ⊆ conns := by
  induction calls generalizing dir with
  | nil => exact known
  | cons call rest ih =>
    refine ih (fun later member => ?_) (dir_call_names (within call List.mem_cons_self) known)
    rw [dir_call_uid]
    exact within later (List.mem_cons_of_mem call member)

theorem unnamed_unchanged {conn : ConnId} (absent : dir.names conn = false) :
    dir.moveConn conn = dir ∧ dir.delConn conn = dir := by
  have outside : conn ∉ dir.holders ∧ conn ∉ dir.waitings := by
    simpa [VfsLocker.names, not_or] using absent
  constructor
  · rw [VfsLocker.moveConn, if_neg outside.1, if_neg outside.2]
  · rw [VfsLocker.delConn, if_neg outside.1, List.erase_of_not_mem outside.2]

theorem call_within {conns : List ConnId} {call : VfsCall} (incubator : List ConnId)
    (within : call.within dir.uid conns)
    (foreign : ∀ other ∈ before ++ after, other.uid ≠ dir.uid ∧ ∀ conn ∈ conns,
      other.names conn = false) :
    VfsTree.call ⟨incubator, before ++ dir :: after⟩ call =
    ⟨incubator, before ++ dir.call call :: after⟩ := by
  cases call with
  | addLockerConn locker conn holder =>
    obtain ⟨rfl, _⟩ := within
    rw [VfsTree.call, vfsUpdate_split fun other member => decide_eq_false (foreign other member).1,
      VfsLocker.call]
    simp
  | moveLockerConn conn =>
    rw [VfsTree.call, vfsUpdate_split fun other member => (foreign other member).2 conn within,
      VfsLocker.call]
    split_ifs with found
    · rfl
    · rw [(unnamed_unchanged (by simpa using found)).1]
  | delConn conn incubating =>
    cases incubating with
    | true => exact within.elim
    | false =>
      rw [VfsTree.call, vfsUpdate_split fun other member => (foreign other member).2 conn within,
        VfsLocker.call]
      split_ifs with found
      · rfl
      · rw [(unnamed_unchanged (by simpa using found)).2]
  | addLocker uid | delLocker uid | addIncubatorConn conn => exact within.elim

theorem run_within {conns : List ConnId} {calls : List VfsCall} (incubator : List ConnId)
    (within : ∀ call ∈ calls, call.within dir.uid conns)
    (foreign : ∀ other ∈ before ++ after, other.uid ≠ dir.uid ∧ ∀ conn ∈ conns,
      other.names conn = false) :
    VfsTree.run ⟨incubator, before ++ dir :: after⟩ calls =
    ⟨incubator, before ++ dir.run calls :: after⟩ := by
  induction calls generalizing dir with
  | nil => rfl
  | cons call rest ih =>
    have here := call_within incubator (within call List.mem_cons_self) foreign
    have uid := dir_call_uid dir call
    rw [VfsTree.run, List.foldl_cons, here]
    refine ih (fun later member => ?_) (uid.symm ▸ foreign)
    rw [uid]
    exact within later (List.mem_cons_of_mem call member)

end

end Flom
