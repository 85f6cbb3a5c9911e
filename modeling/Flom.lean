import Flom.Client
import Flom.ClientConnect
import Flom.ConnectSound
import Flom.Conns
import Flom.ConnsHistory
import Flom.Daemon
import Flom.DaemonListening
import Flom.DaemonLockers
import Flom.DaemonMail
import Flom.DaemonMoves
import Flom.DaemonResources
import Flom.DaemonRun
import Flom.DaemonSurvival
import Flom.Disconnect
import Flom.Dispatch
import Flom.Exclusion
import Flom.FlomMain
import Flom.Fuse
import Flom.FuseFiles
import Flom.FuseMount
import Flom.FuseRead
import Flom.Handle
import Flom.Handshake
import Flom.HandshakeSound
import Flom.HeldLocks
import Flom.HierCollect
import Flom.HierInsertion
import Flom.HierRecords
import Flom.HierUnlock
import Flom.Honoured
import Flom.Incubator
import Flom.IncubatorClosed
import Flom.Lib.Base64
import Flom.Lib.Calendar
import Flom.Lib.Decimal
import Flom.Lib.Ere
import Flom.Lib.Fair
import Flom.Lib.Graft
import Flom.Lib.Lists
import Flom.Lib.Logged
import Flom.Lib.Manager
import Flom.Lib.Markup
import Flom.Lib.Monitor
import Flom.Lib.NaryTree
import Flom.Lib.Paged
import Flom.Lib.Pledge
import Flom.Lib.Printing
import Flom.Lib.Quiet
import Flom.Lib.Rose
import Flom.Lib.Run
import Flom.Lib.Scan
import Flom.Lib.Strftime
import Flom.Lib.StrftimeText
import Flom.Lib.StrftimeTold
import Flom.Lib.Tail
import Flom.Lib.Ticket
import Flom.LockKept
import Flom.LockModes
import Flom.LockSound
import Flom.Locker
import Flom.LockerCalls
import Flom.LockerConns
import Flom.LockerControl
import Flom.LockerInput
import Flom.LockerIsolation
import Flom.LockerLog
import Flom.LockerMail
import Flom.LockerTurn
import Flom.Msg
import Flom.MsgAccepted
import Flom.MsgDeserialize
import Flom.MsgLength
import Flom.MsgRoundTrip
import Flom.MsgSerialize
import Flom.MsgSizes
import Flom.MsgVariant
import Flom.Overtaking
import Flom.Pledged
import Flom.RamCalls
import Flom.RamDirs
import Flom.RamRefine
import Flom.RamRun
import Flom.RamSearch
import Flom.RamTree
import Flom.RamView
import Flom.RecvMsg
import Flom.Resource
import Flom.ResourceGrant
import Flom.ResourceHier
import Flom.ResourceHierExclusion
import Flom.ResourceHierTree
import Flom.ResourceKept
import Flom.ResourceKey
import Flom.ResourceNumeric
import Flom.ResourceQueue
import Flom.ResourceSequence
import Flom.ResourceSet
import Flom.ResourceSimple
import Flom.ResourceTimestamp
import Flom.Routing
import Flom.Rsrc
import Flom.RsrcGrammar
import Flom.RsrcHistory
import Flom.RsrcName
import Flom.RsrcNumber
import Flom.RunningCommands
import Flom.SequenceGaps
import Flom.SequenceHistory
import Flom.Session
import Flom.SessionDescriptors
import Flom.SessionRequests
import Flom.SetExclusive
import Flom.Slots
import Flom.Startup
import Flom.Talk
import Flom.TimestampClock
import Flom.TimestampDeadline
import Flom.TimestampFraction
import Flom.TimestampHistory
import Flom.TimestampQueue
import Flom.TimestampText
import Flom.TimestampWakeup
import Flom.TimestampZone
import Flom.Types
import Flom.Vfs
import Flom.VfsApart
import Flom.VfsDaemon
import Flom.VfsMirror
import Flom.VfsNotes
import Flom.VfsResource
import Flom.Wakeup
