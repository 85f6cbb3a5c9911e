import Flom.Lib.Paged
import Flom.RamTree

set_option autoImplicit false

namespace Flom

open NaryTree Paged

def vfsInoRootDir : Nat := 1

inductive FuseErrno where
  | enoent | enotsup | enotdir | eisdir | eacces
deriving DecidableEq, Repr

structure FuseStat where
  ino : Nat
  mode : Nat
  nlink : Nat
  uid : Nat
  gid : Nat
  ctime : Int
  mtime : Int
  size : Nat
deriving DecidableEq, Repr

def fuseStatZero : FuseStat := ⟨0, 0, 0, 0, 0, 0, 0, 0⟩

structure FuseCommonValues where
  uid : Nat
  gid : Nat
deriving DecidableEq, Repr

inductive FuseReply (B : Type) where
  | err (errno : FuseErrno)
  | attr (stat : FuseStat)
  | entry (ino : Nat) (stat : FuseStat)
  | buf (bytes : List B)
  | opened
deriving DecidableEq, Repr

def sIfDir : Nat := 0o040000
def sIfReg : Nat := 0o100000

def ramPointer (ino : Nat) : Option Nat := if ino = 0 then none else some ino

def fusePointer (ino : Nat) : Option Nat := if vfsInoRootDir = ino then none else ramPointer ino

def RamNode.isDir (node : RamNode) : Bool := node.content.isNone

def ramTreeRetrieveChildren (root : GNode) (pointer : Option Nat) : List (Name × Nat) :=
  match ramTreeFind root pointer with
  | none => []
  | some found => found.children.map fun child => (child.data.name, child.data.ino)

/-- Where the node is not found it leaves the buffer as it is, and it returns zero all the same.
-/
def fuseStat (values : FuseCommonValues) (root : GNode) (ino : Nat) (stbuf : FuseStat) : FuseStat :=
  match ramTreeFind root (fusePointer ino) with
  | none => stbuf
  | some found =>
    match found.data.content with
    | none =>
      { stbuf with
        ino, mode := sIfDir ||| 0o550, nlink := 2, uid := values.uid, gid := values.gid
        ctime := found.data.ctime, mtime := found.data.mtime }
    | some content =>
      { stbuf with
        ino, mode := sIfReg ||| 0o440, nlink := 1, uid := values.uid, gid := values.gid
        ctime := found.data.ctime, mtime := found.data.mtime, size := content.length }

def fuseGetattr (values : FuseCommonValues) (root : GNode) (ino : Nat) : FuseReply Char :=
  .attr (fuseStat values root ino { fuseStatZero with ino })

def fuseGetxattr : FuseReply Char := .err .enotsup

def fuseLookup (values : FuseCommonValues) (root : GNode) (parent : Nat) (name : Name) :
    FuseReply Char :=
  match ramTreeFind root (fusePointer parent) with
  | none => .err .enoent
  | some found =>
    match ramTreeFindChildByName found name with
    | none => .err .enoent
    | some child => .entry child.data.ino (fuseStat values root child.data.ino fuseStatZero)

def fuseWalk (values : FuseCommonValues) (root : GNode) : Nat → List Name → Option Nat
  | ino, [] => some ino
  | ino, name :: rest =>
    match fuseLookup values root ino name with
    | .entry child _ => fuseWalk values root child rest
    | _ => none

section

variable {B : Type}

def replyBufLimited (buf : List B) (off maxsize : Nat) : FuseReply B :=
  if off < buf.length then .buf ((buf.drop off).take (min (buf.length - off) maxsize)) else .buf []

def fuseOpen (root : GNode) (ino flags : Nat) : FuseReply Char :=
  if vfsInoRootDir = ino then .err .eisdir
  else
    match ramTreeFind root (ramPointer ino) with
    | none => .err .enoent
    | some found =>
      if found.data.isDir then .err .eisdir
      -- O_RDONLY
      else if flags &&& 3 ≠ 0 then .err .eacces
      else .opened

/-- No reply at all is a daemon that has crashed on a null pointer. -/
def fuseRead (root : GNode) (ino size off : Nat) : Option (FuseReply Char) :=
  match ramTreeFind root (ramPointer ino) with
  | none => none
  -- flom_vfs_ram_node_get_content: a directory has the empty content
  | some found => some (replyBufLimited (found.data.content.getD []) off size)

abbrev Direntry (B : Type) := Format B (Name × Nat)

def fuseReaddir (direntry : Direntry B) (root : GNode) (ino size off : Nat) :
    Option (FuseReply B) :=
  match ramTreeFind root (fusePointer ino) with
  | none => some (.err .enoent)
  | some found =>
    if found.data.isDir then
      match ramTreeFindParent root found with
      | none => none
      | some parent =>
        let children := ramTreeRetrieveChildren root (fusePointer ino)
        -- dirbuf_add
        let buf := ((['.'], ino) :: (['.', '.'], parent.data.ino) :: children).foldl direntry.add []
        some (replyBufLimited buf off size)
    else some (.err .enotdir)

def FuseReply.bytes : Option (FuseReply B) → List B
  | some (.buf bytes) => bytes
  | _ => []

def fuseList (direntry : Direntry B) (root : GNode) (sizes : Nat → Nat) (fuel ino : Nat) :
    Option (List (Name × Nat)) :=
  direntry.readAll (fun off => FuseReply.bytes (fuseReaddir direntry root ino (sizes off) off)) fuel
    0

def fuseCat (root : GNode) (sizes : Nat → Nat) (fuel ino : Nat) : Option Name :=
  collect (fun off => FuseReply.bytes (fuseRead root ino (sizes off) off)) fuel 0

theorem replyBufLimited_window (buf : List B) (off maxsize : Nat) :
    FuseReply.bytes (some (replyBufLimited buf off maxsize)) = (buf.drop off).take maxsize := by
  rw [replyBufLimited]
  split_ifs with inside
  · change (buf.drop off).take (min (buf.length - off) maxsize) = _
    rw [← List.length_drop, Nat.min_comm, ← List.take_take, List.take_length]
  · rw [List.drop_eq_nil_of_le (Nat.not_lt.mp inside), List.take_nil]
    rfl

end

section

variable {root node : GNode}

theorem ramTreeFind_mem (once : (root.keys RamNode.ino).Nodup) (inside : node ∈ root.preorder) :
    ramTreeFind root (some node.data.ino) = some node := by
  refine find_unique inside (by simp [RamNode.is]) fun other member same => ?_
  have keys : root.preorder.map (fun node => node.data.ino) = root.keys RamNode.ino := rfl
  rw [← keys] at once
  exact List.inj_on_of_nodup_map once member inside (of_decide_eq_true same)

theorem ramTreeFind_inside {pointer : Option Nat} (found : ramTreeFind root pointer = some node) :
    node ∈ root.preorder := by
  cases pointer with
  | none =>
    obtain rfl := Option.some.inj found
    exact root.mem_preorder_self
  | some ino => exact List.mem_of_find?_eq_some found

end

end Flom
