import Ecmh.Lib.Bytes
import Ecmh.Lib.Keyed
import Ecmh.Lib.Runs
import Ecmh.Lib.OnesComplement
import Ecmh.Lib.Writes
import Ecmh.Lib.Limiter
import Ecmh.Lib.Slots
import Ecmh.Lib.Stdio
import Ecmh.Lib.Heap
import Ecmh.Lib.Linked
import Ecmh.Addr
import Ecmh.Table
import Ecmh.Interfaces
import Ecmh.Send
import Ecmh.Recv
import Ecmh.Checksum
import Ecmh.Accepts
import Ecmh.Daemon
import Ecmh.Effects
import Ecmh.TableOp
import Ecmh.Dissect
import Ecmh.Handling
import Ecmh.Invariant
import Ecmh.Create
import Ecmh.IntTable
import Ecmh.Scan
import Ecmh.Membership
import Ecmh.Expiry
import Ecmh.Scope
import Ecmh.Forward
import Ecmh.Wire
import Ecmh.ReportParser
import Ecmh.Filter
import Ecmh.ReportSteps
import Ecmh.ReportBuffer
import Ecmh.ReportLayout
import Ecmh.ReportSpoiled
import Ecmh.ReportEncoded
import Ecmh.ReportGather
import Ecmh.ReportAggregate
import Ecmh.Sends
import Ecmh.Version
import Ecmh.Links
import Ecmh.OnLink
import Ecmh.ReportSilent
import Ecmh.OnlyModes
import Ecmh.Understood
import Ecmh.Network
import Ecmh.Announce
import Ecmh.Grecs
import Ecmh.ReportCalls
import Ecmh.ReportFirst
import Ecmh.OnWire
import Ecmh.QueryAnswer
import Ecmh.Unchanged
import Ecmh.Dropped
import Ecmh.Backed
import Ecmh.Versions
import Ecmh.Swallowed
import Ecmh.Repeated
import Ecmh.Rejected
import Ecmh.Reannounced
import Ecmh.Broadcast
import Ecmh.Confined
import Ecmh.HeaderChain
import Ecmh.InFrame
import Ecmh.ReportBounds
import Ecmh.ReportOnce
import Ecmh.EchoReply
import Ecmh.OwnAddress
import Ecmh.Bpf
import Ecmh.BpfTunnels
import Ecmh.BpfTable
import Ecmh.IntRuns
import Ecmh.Aliases
import Ecmh.References
import Ecmh.Decapsulation
import Ecmh.BpfRead
import Ecmh.LinkList
import Ecmh.HeapTable
import Ecmh.HeapRefines
import Ecmh.Counters
import Ecmh.PlainSum
import Ecmh.MainLoop
import Ecmh.Primitive
import Ecmh.Statistics
import Ecmh.History
import Ecmh.Flood
import Ecmh.Served
import Ecmh.Outlived
import Ecmh.Listener
import Ecmh.Dump
import Ecmh.DumpRead
import Ecmh.ProcNet
