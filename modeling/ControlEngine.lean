import ControlEngine.Buffer.Allocation
import ControlEngine.Buffer.Copies
import ControlEngine.Buffer.Cursor
import ControlEngine.Buffer.Invariant
import ControlEngine.Buffer.Objects
import ControlEngine.Buffer.Ownership
import ControlEngine.Buffer.Ring
import ControlEngine.Buffer.RoundTrip
import ControlEngine.Buffer.Traversal
import ControlEngine.Controllers.CpuLimiter
import ControlEngine.Controllers.DutyCycle
import ControlEngine.Controllers.LogRecord
import ControlEngine.Controllers.Loggers
import ControlEngine.Controllers.Logging
import ControlEngine.Controllers.ReaderThread
import ControlEngine.Controllers.Response
import ControlEngine.Controllers.RestartLaw
import ControlEngine.Controllers.SelfLogging
import ControlEngine.Controllers.StartUp
import ControlEngine.Controllers.Supervision
import ControlEngine.Controllers.Throughput
import ControlEngine.Controllers.ThroughputSize
import ControlEngine.Socket.Decodable
import ControlEngine.Socket.Framing
import ControlEngine.Socket.Payload
import ControlEngine.Socket.Peer
import ControlEngine.Socket.ReadData
import ControlEngine.Socket.Reassembly
import ControlEngine.Socket.Shutdown
import ControlEngine.Socket.TcpMessage
import ControlEngine.Static.AcceptAddress
import ControlEngine.Static.Attachment
import ControlEngine.Static.FetchMutex
import ControlEngine.Static.LogFifo
import ControlEngine.Static.LogQueue
import ControlEngine.Static.NetworkInterface
import ControlEngine.Static.Queue
import ControlEngine.Static.Reconfiguration
import ControlEngine.Strings.CommandLine
import ControlEngine.Strings.Escaping
import ControlEngine.Strings.Replacement
import ControlEngine.Strings.Splitting
import ControlEngine.Support.Block
import ControlEngine.Support.ByteOrder
import ControlEngine.Support.Channels
import ControlEngine.Support.Columns
import ControlEngine.Support.Components
import ControlEngine.Support.Fifo
import ControlEngine.Support.FirstFree
import ControlEngine.Support.Heap
import ControlEngine.Support.Linearizable
import ControlEngine.Support.Lock
import ControlEngine.Support.Loop
import ControlEngine.Support.Occurrence
import ControlEngine.Support.PrefixCode
import ControlEngine.Support.Progress
import ControlEngine.Support.Rewriting
import ControlEngine.Support.Ring
import ControlEngine.Support.Trace
import ControlEngine.Support.Transition
import ControlEngine.Support.WorkQueue
import ControlEngine.System.Accounting
import ControlEngine.System.Client
import ControlEngine.System.Connection
import ControlEngine.System.Delivery
import ControlEngine.System.Descriptions
import ControlEngine.System.Descriptors
import ControlEngine.System.Intake
import ControlEngine.System.Interleaving
import ControlEngine.System.LifeCycle
import ControlEngine.System.Listener
import ControlEngine.System.Moves
import ControlEngine.System.Ownership
import ControlEngine.System.Pipeline
import ControlEngine.System.Process
import ControlEngine.System.Progress
import ControlEngine.System.Received
import ControlEngine.System.RecordDelivery
import ControlEngine.System.Recovery
import ControlEngine.System.Run
import ControlEngine.System.SendData
import ControlEngine.System.SendMutex
import ControlEngine.System.Senders
import ControlEngine.System.Status
import ControlEngine.System.Threads
import ControlEngine.System.WriteBuffer
