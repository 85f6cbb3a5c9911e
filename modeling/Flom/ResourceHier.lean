import Flom.Lib.Rose
import Flom.Lib.Run
import Flom.Rsrc
import Flom.RsrcName

set_option autoImplicit false

namespace Flom

open Scan

/-- A record linked in the tree; `freed` marks one that was released while still linked. -/
structure HierLock where
  conn : ConnId
  mode : LockMode
  freed : Bool
deriving DecidableEq, Repr

structure HierWait where
  conn : ConnId
  mode : LockMode
  name : Name
deriving DecidableEq, Repr

abbrev HierTree := Rose Name HierLock

structure HierData where
  root : HierTree

abbrev HierRsrc := Rsrc HierData HierWait

def hierLevels (name : Name) : List Name := strsplit (name.drop 1) hierResourceSeparator

mutual

def resourceHierCanLock : HierTree → LockMode → List Name → Bool
  | .node name holders leaves, lock, path =>
    if path.head?.any (· ≠ name) then true
    else holders.all (fun holder => lockTable holder.mode lock) &&
      resourceHierCanLockLeaves leaves lock path.tail

def resourceHierCanLockLeaves : List HierTree → LockMode → List Name → Bool
  | [], _, _ => true
  | leaf :: others, lock, path =>
    resourceHierCanLock leaf lock path && resourceHierCanLockLeaves others lock path

end

def hierLeaf (leaves : List HierTree) (name : Name) : Option Nat :=
  leaves.findIdx? fun leaf => leaf.label = name

def hierReach : List Name → HierTree → List Nat × List Name
  | [], _ => ([], [])
  | level :: rest, .node name _ leaves =>
    if level = name then
      match rest with
      | [] => ([], [])
      | next :: _ =>
        match (hierLeaf leaves next).bind fun position => leaves[position]?.map (position, ·) with
        | some (position, leaf) =>
          let below := hierReach rest leaf
          (position :: below.1, below.2)
        | none => ([], rest)
    else ([], level :: rest)

def hierChain (cl : HierLock) (level : Name) : List Name → HierTree
  | [] => .node level [cl] []
  | next :: rest => .node level [] [hierChain cl next rest]

def hierAttach (cl : HierLock) (missing : List Name) : HierTree → HierTree
  | .node name holders leaves =>
    match missing with
    | [] => .node name (cl :: holders) leaves
    | level :: rest => .node name holders (leaves ++ [hierChain cl level rest])

def resourceHierAddLocker (data : HierData) (cl : HierLock) (path : List Name) : HierData :=
  let reached := hierReach path data.root
  { data with root := data.root.update (hierAttach cl reached.2) reached.1 }

def hierLocate : List Name → HierTree → List Nat
  | [], _ => []
  | level :: rest, .node name holders leaves =>
    if level = name then
      match rest with
      | [] => []
      | next :: _ =>
        match (hierLeaf leaves next).bind fun position => leaves[position]?.map (position, ·) with
        | some (position, leaf) => position :: hierLocate rest leaf
        | none => []
    else hierLocate rest (.node name holders leaves)

mutual

def resourceHierGc : HierTree → HierTree
  | .node name holders leaves => .node name holders (resourceHierGcLeaves leaves)

def resourceHierGcLeaves : List HierTree → List HierTree
  | [] => []
  | leaf :: others =>
    let child := resourceHierGc leaf
    if child.children.isEmpty && child.items.isEmpty then resourceHierGcLeaves others
    else child :: resourceHierGcLeaves others

end

def hierEmptyChain (level : Name) : List Name → HierTree
  | [] => .node level [] []
  | next :: rest => .node level [] [hierEmptyChain next rest]

/-- Without any level the root stays a NULL pointer, which the first message dereferences. -/
def resourceHierInit (name : Name) : Except Rc HierRsrc :=
  match name with
  | [] => .error .invalidResourceName
  | first :: _ =>
    if first = hierResourceSeparator then
      match hierLevels name with
      | [] => .error .crash
      | level :: rest => .ok ⟨name, ⟨hierEmptyChain level rest⟩, []⟩
    else .error .invalidResourceName

def hierRemoveConn (conn : ConnId) : HierTree → HierTree
  | .node name holders leaves => .node name (holders.eraseP fun holder => holder.conn = conn) leaves

/-- Whether the node the name leads to has a record of the connection: clean looks nowhere else.
-/
def hierNodeHolds (name : Name) (data : HierData) (conn : ConnId) : Bool :=
  (data.root.subtree (hierLocate (hierLevels name) data.root)).any fun node =>
    node.items.any (·.conn = conn)

def hierRelease (name : Name) (data : HierData) (conn : ConnId) : Option HierData :=
  if hierNodeHolds name data conn then
    some { data with root := data.root.update (hierRemoveConn conn) (hierLocate
      (hierLevels name) data.root) }
  else none

def hierManager (name : Name) : Manager HierData HierWait ConnId where
  can data waiter := resourceHierCanLock data.root waiter.mode (hierLevels waiter.name)
  skip data _ := data
  take data waiter := resourceHierAddLocker data ⟨waiter.conn, waiter.mode, false⟩
    (hierLevels waiter.name)
  -- The record is linked before the client is told, and freed without being unlinked.
  fail data waiter := resourceHierAddLocker data ⟨waiter.conn, waiter.mode, true⟩
    (hierLevels waiter.name)
  conn := HierWait.conn
  release := hierRelease name

def resourceHierWaitings (rsrc : HierRsrc) (sends : List Rc) : Cleaned HierData HierWait :=
  rsrcWaitings (hierManager rsrc.name) rsrc sends

def hierCollect (cleaned : Cleaned HierData HierWait) : Cleaned HierData HierWait :=
  if cleaned.rc = .ok then
    { cleaned with rsrc := { cleaned.rsrc with data := ⟨resourceHierGc cleaned.rsrc.data.root⟩ } }
  else cleaned

def resourceHierClean (rsrc : HierRsrc) (conn : ConnId) (sends : List Rc) :
    Cleaned HierData HierWait :=
  hierCollect (rsrcClean (hierManager rsrc.name) rsrc conn sends)

def resourceHierCompareName (rsrc : HierRsrc) (name : Name) : Bool :=
  name.head? = some hierResourceSeparator && (hierLevels name).head? = some rsrc.data.root.label

def resourceHierChangeName (rsrc : HierRsrc) (name : Name) : HierRsrc := { rsrc with name := name }

def resourceHierUnlock (rsrc : HierRsrc) (conn : ConnId) (name : Name) (msg : Msg)
    (sends : List Rc) : Inmsg HierData HierWait :=
  if resourceHierCompareName rsrc name then
    inmsgOfCleaned (resourceHierClean (resourceHierChangeName rsrc name) conn sends) msg
  else inmsgError .invalidResourceName rsrc msg

def resourceHierInmsg (rsrc : HierRsrc) (conn : ConnId) (lastStep : Int) (msg : Msg)
    (sends : List Rc) : Inmsg HierData HierWait :=
  match msg.verb with
  | .lock =>
    match msg.lock8.name with
    | some name =>
      rsrcLock (hierManager rsrc.name)
        ⟨⟨conn, msg.lock8.mode, name⟩, msg.lock8.wait ≠ 0, .lockBusy, fun _ => none⟩
        rsrc lastStep msg
    | none => inmsgError .crash rsrc msg
  | .unlock =>
    match msg.unlock8.name with
    | some name => resourceHierUnlock rsrc conn name msg sends
    | none => inmsgError .crash rsrc msg
  | _ => inmsgError .protocolError rsrc msg

def resourceHierStep (rsrc : HierRsrc) : Call → HierRsrc
  | .inmsg conn lastStep msg env => (resourceHierInmsg rsrc conn lastStep msg env.sends).rsrc
  | .clean conn env => (resourceHierClean rsrc conn env.sends).rsrc

theorem hierEmptyChain_label (level : Name) (rest : List Name) :
    (hierEmptyChain level rest).label = level := by
  cases rest <;> rfl

theorem resourceHierInit_eq {name : Name} {rsrc : HierRsrc}
    (started : resourceHierInit name = .ok rsrc) :
    ∃ level rest, name.head? = some hierResourceSeparator ∧ hierLevels name = level :: rest ∧
      rsrc = ⟨name, ⟨hierEmptyChain level rest⟩, []⟩ := by
  cases name with
  | nil => cases started
  | cons first text =>
    rw [resourceHierInit] at started
    split_ifs at started with separator
    cases levels : hierLevels (first :: text) with
    | nil => simp [levels] at started
    | cons level rest =>
      simp only [levels, Except.ok.injEq] at started
      exact ⟨level, rest, congrArg some separator, rfl, started.symm⟩

theorem resourceHierInit_ok {name : Name} {rsrc : HierRsrc}
    (started : resourceHierInit name = .ok rsrc) :
    resourceHierCompareName rsrc name = true ∧ rsrc.waitings = [] := by
  obtain ⟨level, rest, separator, levels, rfl⟩ := resourceHierInit_eq started
  exact ⟨by simp [resourceHierCompareName, levels, separator, hierEmptyChain_label], rfl⟩

end Flom
