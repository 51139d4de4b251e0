import Wil6210.Kernel
import Wil6210.Lib.Machine
import Wil6210.Lib.Serial
import Wil6210.Lib.Stream
import Wil6210.Lib.Circular
import Wil6210.Rx.Reorder
import Wil6210.Rx.Window
import Wil6210.Rx.Advance
import Wil6210.Rx.Order
import Wil6210.Rx.NoLoss
import Wil6210.Rx.Duplicate
import Wil6210.Rx.Conserve
import Wil6210.Rx.Loops
import Wil6210.Rx.Ring
import Wil6210.Rx.Poll
import Wil6210.Tx.Vring
import Wil6210.Tx.Post
import Wil6210.Tx.Cleanup
import Wil6210.Tx.RingSafety
import Wil6210.Tx.Reclaim
import Wil6210.Tx.TsoPost
import Wil6210.Lib.Segments
import Wil6210.Tx.TsoRoom
import Wil6210.Tx.TsoCalls
import Wil6210.Tx.TsoCover
import Wil6210.Tx.TsoFrames
import Wil6210.Tx.TsoRead
import Wil6210.Tx.Headers
import Wil6210.Tx.Kinds
import Wil6210.Tx.Undo
import Wil6210.Tx.Logged
import Wil6210.Tx.Stale
import Wil6210.Tx.Accounting
import Wil6210.Driver.State
import Wil6210.Driver.Disconnect
import Wil6210.Driver.Connect
import Wil6210.Driver.ConnectRun
import Wil6210.Driver.RingIndex
import Wil6210.Driver.StaleWork
import Wil6210.Driver.Cfg80211
import Wil6210.Driver.ScanCycle
import Wil6210.Driver.NoScan
import Wil6210.Driver.TxLookup
import Wil6210.Driver.ConnectCall
import Wil6210.Driver.ConnectAnswer
import Wil6210.Driver.Dontscan
import Wil6210.Driver.Roc
import Wil6210.Driver.RocCancel
import Wil6210.Driver.Replace
import Wil6210.Wmi.Success
import Wil6210.Wmi.Reply
import Wil6210.Lib.Parse
import Wil6210.Wmi.Events
import Wil6210.Wmi.EventBounds
import Wil6210.Driver.BlockAck
import Wil6210.Driver.Sessions
import Wil6210.Driver.Addba
import Wil6210.Rx.RingOwnership
import Wil6210.Rx.RingMappings
import Wil6210.Driver.RxLifecycle
import Wil6210.Driver.Interrupt
import Wil6210.Driver.Reported
import Wil6210.Lib.Memory
import Wil6210.Wmi.Mailbox
import Wil6210.Wmi.Send
import Wil6210.Wmi.Receive
import Wil6210.Wmi.Drain
import Wil6210.Wmi.Lengths
import Wil6210.Tx.Watermark
import Wil6210.Driver.Xmit
import Wil6210.Driver.Busy
import Wil6210.Driver.XmitRefs
import Wil6210.Driver.TxQueues
import Wil6210.Driver.Isolation
import Wil6210.Driver.DevicePointers
import Wil6210.Driver.WordCopy
import Wil6210.Driver.Debugfs
import Wil6210.Tools.Trace
import Wil6210.Lib.Product
import Wil6210.Driver.SessionRuns
import Wil6210.Driver.RxPath
import Wil6210.Tx.Wire
import Wil6210.Lib.WorkQueue
import Wil6210.Driver.BackQueue
import Wil6210.Driver.Reset
import Wil6210.Driver.MailboxIrq
import Wil6210.Lib.CircularLog
import Wil6210.Tools.TraceLog
import Wil6210.Lib.Polling
import Wil6210.Driver.RxIrq
import Wil6210.Lib.Unwind
import Wil6210.Driver.Probe
import Wil6210.Lib.FieldTable
import Wil6210.Rx.Radiotap
import Wil6210.Lib.TableRead
import Wil6210.Driver.StationDump
