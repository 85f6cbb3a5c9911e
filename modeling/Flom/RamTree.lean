import Flom.Lib.NaryTree
import Flom.MsgSerialize

set_option autoImplicit false

namespace Flom

def vfsRootDirName : Name := ['/']
def vfsStatusDirName : Name := "status".toList
def vfsIncubatorDirName : Name := "incubator".toList
def vfsLockersDirName : Name := "lockers".toList
def vfsResnameFileName : Name := "resource_name".toList
def vfsRestypeFileName : Name := "resource_type".toList
def vfsLockersHoldersDirName : Name := "holders".toList
def vfsLockersWaitingsDirName : Name := "waitings".toList
def vfsPeernameFileName : Name := "peer_name".toList
def vfsLockersLockmodeFileName : Name := "lock_mode".toList
def vfsLockersQuantityFileName : Name := "quantity".toList
def vfsLockersSequenceValueFileName : Name := "sequence_value".toList
def vfsLockersTimestampValueFileName : Name := "timestamp_value".toList

def vfsStdBufferSize : Nat := 1024

def rcObjNotFoundError : Rc := .other (-28)

structure RamNode where
  ino : Nat
  name : Name
  content : Option Name
  ctime : Int
  mtime : Int
deriving DecidableEq, Repr

abbrev GNode := NaryTree RamNode

structure RamEnv where
  ino : Nat → Nat
  clock : Nat → Int

def ramNodeCreate (env : RamEnv) (count : Nat) (name : Name) (content : Option Name) : RamNode :=
  ⟨env.ino count, name, content, env.clock count, env.clock count⟩

/-- FLOM_UID_T_FORMAT -/
def uidText (uid : ConnId) : Name := Nat.toDigits 10 uid

/-- snprintf into the standard buffer -/
def ramLine (text : Name) : Name := (text ++ ['\n']).take (vfsStdBufferSize - 1)

def RamNode.is (ino : Nat) (node : RamNode) : Bool := decide (node.ino = ino)

def appendData (dir : Nat) (node : RamNode) (root : GNode) : GNode :=
  root.modify (RamNode.is dir) (.append (.leaf node))

def ramTreeUpdateMtime (ino : Nat) (now : Int) (root : GNode) : GNode :=
  root.modify (RamNode.is ino) (.mapData fun node => { node with mtime := now })

def ramTreeFindNodeByName (start : GNode) (name : Name) : Option GNode :=
  start.preorder.find? fun node => node.data.name = name

def ramTreeFind (root : GNode) : Option Nat → Option GNode
  | none => some root
  | some ino => root.preorder.find? fun node => RamNode.is ino node.data

def ramTreeFindParent (root node : GNode) : Option GNode :=
  if node.data.ino = root.data.ino then some node else root.parent RamNode.ino node.data.ino

def ramTreeFindChildByName (parent : GNode) (name : Name) : Option GNode :=
  parent.children.find? fun child => child.data.name = name

def ramTreeCleanup (node : Nat) (root : GNode) : GNode := root.remove (RamNode.is node)

def ramTreeInit (env : RamEnv) : GNode :=
  .node (ramNodeCreate env 0 vfsRootDirName none)
    [.node (ramNodeCreate env 1 vfsStatusDirName none)
      [.leaf (ramNodeCreate env 3 vfsIncubatorDirName none),
        .leaf (ramNodeCreate env 2 vfsLockersDirName none)]]

def ramTreeAddLocker (env : RamEnv) (uid : ConnId) (resourceName resourceType : Name)
    (root : GNode) : Rc × GNode :=
  match ramTreeFindNodeByName root vfsLockersDirName with
  | none => (rcObjNotFoundError, root)
  | some lockers =>
    let dir := ramNodeCreate env 0 (uidText uid) none
    (.ok, root |> appendData lockers.data.ino dir
      |> ramTreeUpdateMtime lockers.data.ino (env.clock 5)
      |> appendData dir.ino (ramNodeCreate env 1 vfsResnameFileName (some (ramLine resourceName)))
      |> appendData dir.ino (ramNodeCreate env 2 vfsRestypeFileName (some (ramLine resourceType)))
      |> appendData dir.ino (ramNodeCreate env 3 vfsLockersHoldersDirName none)
      |> appendData dir.ino (ramNodeCreate env 4 vfsLockersWaitingsDirName none))

def ramTreeDelLocker (uid : ConnId) (root : GNode) : Rc × GNode :=
  match ramTreeFindNodeByName root vfsLockersDirName with
  | none => (rcObjNotFoundError, root)
  | some lockers =>
    match ramTreeFindNodeByName lockers (uidText uid) with
    | none => (rcObjNotFoundError, root)
    | some dir => (.ok, ramTreeCleanup dir.data.ino root)

def ramTreeAddLockerConnFile (node : Name → RamNode) (locker conn : ConnId) (content : Option Name)
    (root : GNode) :
    Rc × GNode :=
  match content with
  | none => (.nullObject, root)
  | some content =>
    match ramTreeFindNodeByName root vfsLockersDirName with
    | none => (rcObjNotFoundError, root)
    | some lockers =>
      match ramTreeFindNodeByName lockers (uidText locker) with
      | none => (rcObjNotFoundError, root)
      | some dir =>
        match ramTreeFindNodeByName dir (uidText conn) with
        | none => (rcObjNotFoundError, root)
        | some found => (.ok, appendData found.data.ino (node content) root)

def lockModeLongString : LockMode → Option Name
  | .nl => some "NullLock".toList
  | .cr => some "ConcurrentRead".toList
  | .cw => some "ConcurrentWrite".toList
  | .pr => some "ProtectedRead".toList
  | .pw => some "ProtectedWrite".toList
  | .ex => some "Exclusive".toList
  | .out _ => none

def lockModeInvalid : LockMode := .out 7

inductive FileName where
  | peerName | resourceName | resourceType | lockMode | quantity | sequenceValue | timestampValue
deriving DecidableEq, Repr

def FileName.text : FileName → Name
  | .peerName => vfsPeernameFileName
  | .resourceName => vfsResnameFileName
  | .resourceType => vfsRestypeFileName
  | .lockMode => vfsLockersLockmodeFileName
  | .quantity => vfsLockersQuantityFileName
  | .sequenceValue => vfsLockersSequenceValueFileName
  | .timestampValue => vfsLockersTimestampValueFileName

structure RamConn where
  peerName : Option Name
  lockMode : LockMode
  quantity : Option Int
  sequenceValue : Option Name
  timestampValue : Option Name
deriving DecidableEq, Repr

def RamConn.files (conn : RamConn) : List (FileName × Option Name) :=
  (conn.peerName.map fun peerName => (.peerName, some (ramLine peerName))).toList ++
    (if conn.lockMode = lockModeInvalid then []
      else [(.lockMode, lockModeLongString conn.lockMode)]) ++
    (conn.quantity.map fun quantity => (.quantity, some (ramLine (decimalText quantity)))).toList ++
    (conn.sequenceValue.map fun value => (.sequenceValue, some value)).toList ++
    (conn.timestampValue.map fun value => (.timestampValue, some value)).toList

def ramTreeAddLockerConnFiles (env : RamEnv) (locker conn : ConnId) :
    Nat → List (FileName × Option Name) → GNode → Rc × GNode
  | _, [], root => (.ok, root)
  | count, (name, content) :: rest, root =>
    let added := ramTreeAddLockerConnFile
      (fun content => ramNodeCreate env count name.text (some content)) locker conn content root
    if added.1 = .ok then ramTreeAddLockerConnFiles env locker conn
      (count + 1) rest added.2 else added

def ramTreeAddLockerConn (env : RamEnv) (locker conn : ConnId) (holder : Bool) (listed : RamConn)
    (root : GNode) :
    Rc × GNode :=
  match ramTreeFindNodeByName root vfsLockersDirName with
  | none => (rcObjNotFoundError, root)
  | some lockers =>
    match ramTreeFindNodeByName lockers (uidText locker) with
    | none => (rcObjNotFoundError, root)
    | some dir =>
      match ramTreeFindNodeByName dir
          (if holder then vfsLockersHoldersDirName else vfsLockersWaitingsDirName) with
      | none => (rcObjNotFoundError, root)
      | some parent =>
        root |> appendData parent.data.ino (ramNodeCreate env 0 (uidText conn) none)
          |> ramTreeUpdateMtime parent.data.ino (env.clock 6)
          |> ramTreeAddLockerConnFiles env locker conn 1 listed.files

def ramTreeDelConn (env : RamEnv) (conn : ConnId) (incubating : Bool) (root : GNode) : Rc × GNode :=
  match ramTreeFindNodeByName root (if incubating then vfsIncubatorDirName else vfsLockersDirName)
      with
  | none => (rcObjNotFoundError, root)
  | some lockers =>
    match ramTreeFindNodeByName lockers (uidText conn) with
    | none => (rcObjNotFoundError, root)
    | some found =>
      match ramTreeFindParent root found with
      | none => (rcObjNotFoundError, root)
      | some parent =>
        (.ok, root |> ramTreeUpdateMtime parent.data.ino
          (env.clock 0) |> ramTreeCleanup found.data.ino)

def ramTreeMoveLockerConn (env : RamEnv) (conn : ConnId) (root : GNode) : Rc × GNode :=
  match ramTreeFindNodeByName root vfsLockersDirName with
  | none => (rcObjNotFoundError, root)
  | some lockers =>
    match ramTreeFindNodeByName lockers (uidText conn) with
    | none => (rcObjNotFoundError, root)
    | some found =>
      match ramTreeFindParent root found with
      | none => (rcObjNotFoundError, root)
      | some parent =>
        if parent.data.name = vfsLockersWaitingsDirName then
          match ramTreeFindParent root parent with
          | none => (rcObjNotFoundError, root)
          | some grandparent =>
            match ramTreeFindNodeByName grandparent vfsLockersHoldersDirName with
            | none => (rcObjNotFoundError, root)
            | some holders =>
              -- g_node_unlink, then g_node_append
              (.ok, root |> ramTreeCleanup found.data.ino
                |> ramTreeUpdateMtime parent.data.ino (env.clock 0)
                |> NaryTree.modify (RamNode.is holders.data.ino) (.append found)
                |> ramTreeUpdateMtime holders.data.ino (env.clock 1)
                |> ramTreeUpdateMtime found.data.ino (env.clock 2))
        else (.objCorrupted, root)

def ramTreeAddIncubatorConn (env : RamEnv) (conn : ConnId)
    (peerName resourceName resourceType : Name) (root : GNode) :
    Rc × GNode :=
  match ramTreeFindNodeByName root vfsIncubatorDirName with
  | none => (rcObjNotFoundError, root)
  | some incubator =>
    let dir := ramNodeCreate env 0 (uidText conn) none
    (.ok, root |> appendData incubator.data.ino dir
      |> ramTreeUpdateMtime incubator.data.ino (env.clock 4)
      |> appendData dir.ino (ramNodeCreate env 1 vfsPeernameFileName (some (ramLine peerName)))
      |> appendData dir.ino (ramNodeCreate env 2 vfsResnameFileName (some (ramLine resourceName)))
      |> appendData dir.ino (ramNodeCreate env 3 vfsRestypeFileName (some (ramLine resourceType))))

inductive RamCall where
  | addLocker (uid : ConnId) (resourceName resourceType : Name)
  | delLocker (uid : ConnId)
  | addLockerConn (locker conn : ConnId) (holder : Bool) (listed : RamConn)
  | addLockerConnFile (locker conn : ConnId) (name : FileName) (content : Option Name)
  | moveLockerConn (conn : ConnId)
  | delConn (conn : ConnId) (incubating : Bool)
  | addIncubatorConn (conn : ConnId) (peerName resourceName resourceType : Name)

def ramTreeCall (env : RamEnv) (root : GNode) : RamCall → Rc × GNode
  | .addLocker uid resourceName resourceType =>
    ramTreeAddLocker env uid resourceName resourceType root
  | .delLocker uid => ramTreeDelLocker uid root
  | .addLockerConn locker conn holder listed =>
    ramTreeAddLockerConn env locker conn holder listed root
  | .addLockerConnFile locker conn name content =>
    ramTreeAddLockerConnFile (fun content => ramNodeCreate env 0 name.text (some content)) locker
      conn content root
  | .moveLockerConn conn => ramTreeMoveLockerConn env conn root
  | .delConn conn incubating => ramTreeDelConn env conn incubating root
  | .addIncubatorConn conn peerName resourceName resourceType =>
    ramTreeAddIncubatorConn env conn peerName resourceName resourceType root

end Flom
