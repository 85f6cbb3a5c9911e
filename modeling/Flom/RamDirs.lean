import Flom.RamTree
import Flom.Vfs

set_option autoImplicit false

namespace Flom

open Lists

structure Inode where
  ino : Nat
  ctime : Int
  mtime : Int
deriving DecidableEq, Repr

structure RamFile extends Inode where
  name : FileName
  content : Name
deriving DecidableEq, Repr

structure ConnDir extends Inode where
  uid : ConnId
  files : List RamFile
deriving DecidableEq, Repr

structure LockerDir extends Inode where
  uid : ConnId
  resourceName : RamFile
  resourceType : RamFile
  holdersDir : Inode
  waitingsDir : Inode
  holders : List ConnDir
  waitings : List ConnDir
deriving DecidableEq, Repr

/-- The tree as directories: nothing can stand where it does not belong. -/
structure RamDirs where
  rootDir : Inode
  statusDir : Inode
  incubatorDir : Inode
  lockersDir : Inode
  incubator : List ConnDir
  lockers : List LockerDir
deriving DecidableEq, Repr

def Inode.dir (inode : Inode) (name : Name) : RamNode :=
  ⟨inode.ino, name, none, inode.ctime, inode.mtime⟩

def RamFile.node (file : RamFile) : RamNode :=
  ⟨file.ino, file.name.text, some file.content, file.ctime, file.mtime⟩

def RamFile.tree (file : RamFile) : GNode := .leaf file.node

def ConnDir.tree (dir : ConnDir) : GNode :=
  .node (dir.dir (uidText dir.uid)) (dir.files.map RamFile.tree)

def LockerDir.conns (dir : LockerDir) (holder : Bool) : List ConnDir :=
  if holder then dir.holders else dir.waitings

def LockerDir.connsDir (dir : LockerDir) (holder : Bool) : Inode :=
  if holder then dir.holdersDir else dir.waitingsDir

def connsDirName (holder : Bool) : Name :=
  if holder then vfsLockersHoldersDirName else vfsLockersWaitingsDirName

def LockerDir.connsTree (dir : LockerDir) (holder : Bool) : GNode :=
  .node ((dir.connsDir holder).dir (connsDirName holder)) ((dir.conns holder).map ConnDir.tree)

def LockerDir.tree (dir : LockerDir) : GNode :=
  .node (dir.dir (uidText dir.uid))
    [dir.resourceName.tree, dir.resourceType.tree, dir.connsTree true, dir.connsTree false]

def LockerDir.setConns (dir : LockerDir) (holder : Bool) (inode : Inode) (conns : List ConnDir) :
    LockerDir :=
  if holder then { dir with holdersDir := inode, holders := conns }
  else { dir with waitingsDir := inode, waitings := conns }

def RamDirs.incubatorTree (dirs : RamDirs) : GNode :=
  .node (dirs.incubatorDir.dir vfsIncubatorDirName) (dirs.incubator.map ConnDir.tree)

def RamDirs.lockersTree (dirs : RamDirs) : GNode :=
  .node (dirs.lockersDir.dir vfsLockersDirName) (dirs.lockers.map LockerDir.tree)

def RamDirs.tree (dirs : RamDirs) : GNode :=
  .node (dirs.rootDir.dir vfsRootDirName)
    [.node (dirs.statusDir.dir vfsStatusDirName) [dirs.incubatorTree, dirs.lockersTree]]

def ramInode (env : RamEnv) (count : Nat) : Inode :=
  ⟨env.ino count, env.clock count, env.clock count⟩

def Inode.touch (inode : Inode) (now : Int) : Inode := { inode with mtime := now }

def ramFile (env : RamEnv) (count : Nat) (name : FileName) (content : Name) : RamFile :=
  { ramInode env count with name, content }

def ConnDir.is (uid : ConnId) (dir : ConnDir) : Bool := decide (dir.uid = uid)

def LockerDir.is (uid : ConnId) (dir : LockerDir) : Bool := decide (dir.uid = uid)

def LockerDir.find (conn : ConnId) (dir : LockerDir) : Option ConnDir :=
  (dir.holders ++ dir.waitings).find? (ConnDir.is conn)

def LockerDir.side (conn : ConnId) (dir : LockerDir) : Bool := dir.holders.any (ConnDir.is conn)

def LockerDir.addConn (env : RamEnv) (conn : ConnId) (holder : Bool) (dir : LockerDir) :
    LockerDir :=
  dir.setConns holder ((dir.connsDir holder).touch (env.clock 6))
    (dir.conns holder ++ [{ ramInode env 0 with uid := conn, files := [] }])

def ConnDir.addFile (file : RamFile) (dir : ConnDir) : ConnDir :=
  { dir with files := dir.files ++ [file] }

def LockerDir.addFile (conn : ConnId) (file : RamFile) (dir : LockerDir) : LockerDir :=
  dir.setConns (dir.side conn) (dir.connsDir (dir.side conn))
    (updateFirst (ConnDir.is conn) (ConnDir.addFile file) (dir.conns (dir.side conn)))

def LockerDir.delConn (env : RamEnv) (conn : ConnId) (dir : LockerDir) : LockerDir :=
  dir.setConns (dir.side conn) ((dir.connsDir (dir.side conn)).touch (env.clock 0))
    ((dir.conns (dir.side conn)).eraseP (ConnDir.is conn))

def LockerDir.moveConn (env : RamEnv) (conn : ConnId) (dir : LockerDir) : LockerDir :=
  if dir.side conn then dir
  else
    match dir.waitings.find? (ConnDir.is conn) with
    | none => dir
    | some found =>
      { dir with
        holdersDir := dir.holdersDir.touch (env.clock 1)
        waitingsDir := dir.waitingsDir.touch (env.clock 0)
        holders := dir.holders ++ [{ found with mtime := env.clock 2 }]
        waitings := dir.waitings.eraseP (ConnDir.is conn) }

def RamDirs.inLocker (chosen : LockerDir → Bool) (change : LockerDir → LockerDir) (dirs : RamDirs) :
    RamDirs :=
  { dirs with lockers := updateFirst chosen change dirs.lockers }

def LockerDir.names (conn : ConnId) (dir : LockerDir) : Bool := (dir.find conn).isSome

def RamDirs.lists (locker conn : ConnId) (dirs : RamDirs) : Bool :=
  (dirs.lockers.find? (LockerDir.is locker)).any (LockerDir.names conn)

def RamDirs.addFiles (env : RamEnv) (locker conn : ConnId) : Nat → List (FileName × Option Name) →
    RamDirs → RamDirs
  | _, [], dirs | _, (_, none) :: _, dirs => dirs
  | count, (name, some content) :: rest, dirs =>
    if dirs.lists locker conn then
      RamDirs.addFiles env locker conn (count + 1) rest
        (dirs.inLocker (LockerDir.is locker)
          (LockerDir.addFile conn (ramFile env count name content)))
    else dirs

def lockerDirNew (env : RamEnv) (uid : ConnId) (resourceName resourceType : Name) : LockerDir :=
  { ramInode env 0 with
    uid
    resourceName := ramFile env 1 .resourceName (ramLine resourceName)
    resourceType := ramFile env 2 .resourceType (ramLine resourceType)
    holdersDir := ramInode env 3
    waitingsDir := ramInode env 4
    holders := []
    waitings := [] }

def incubatorDirNew (env : RamEnv) (conn : ConnId) (peerName resourceName resourceType : Name) :
    ConnDir :=
  { ramInode env 0 with
    uid := conn
    files := [ramFile env 1 .peerName (ramLine peerName),
      ramFile env 2 .resourceName (ramLine resourceName),
      ramFile env 3 .resourceType (ramLine resourceType)] }

def RamDirs.call (env : RamEnv) (dirs : RamDirs) : RamCall → RamDirs
  | .addLocker uid resourceName resourceType =>
    { dirs with
      lockersDir := dirs.lockersDir.touch (env.clock 5)
      lockers := dirs.lockers ++ [lockerDirNew env uid resourceName resourceType] }
  | .delLocker uid => { dirs with lockers := dirs.lockers.eraseP (LockerDir.is uid) }
  | .addLockerConn locker conn holder listed =>
    (dirs.inLocker (LockerDir.is locker) (LockerDir.addConn env conn holder)).addFiles env locker
      conn 1 listed.files
  | .addLockerConnFile locker conn name content => dirs.addFiles env locker conn 0 [(name, content)]
  | .moveLockerConn conn => dirs.inLocker (LockerDir.names conn) (LockerDir.moveConn env conn)
  | .delConn conn true =>
    if dirs.incubator.any (ConnDir.is conn) then
      { dirs with
        incubatorDir := dirs.incubatorDir.touch (env.clock 0)
        incubator := dirs.incubator.eraseP (ConnDir.is conn) }
    else dirs
  | .delConn conn false => dirs.inLocker (LockerDir.names conn) (LockerDir.delConn env conn)
  | .addIncubatorConn conn peerName resourceName resourceType =>
    { dirs with
      incubatorDir := dirs.incubatorDir.touch (env.clock 4)
      incubator := dirs.incubator ++ [incubatorDirNew env conn peerName resourceName resourceType] }

end Flom
