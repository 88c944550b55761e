import Z2wRpc.Foundation.Bytes
import Z2wRpc.Foundation.Decimal
import Z2wRpc.Foundation.Program
import Z2wRpc.Foundation.Segments
import Z2wRpc.Foundation.Signals
import Z2wRpc.Foundation.Binary64
import Z2wRpc.Wire.Crc32
import Z2wRpc.Wire.Header
import Z2wRpc.CJson.Number
import Z2wRpc.CJson.Parse
import Z2wRpc.CJson.Print
import Z2wRpc.CJson.StringRoundTrip
import Z2wRpc.CJson.Rooms
import Z2wRpc.CJson.RoundTrip
import Z2wRpc.CJson.ParseFuel
import Z2wRpc.Dispatch.Handler
import Z2wRpc.Dispatch.Method
import Z2wRpc.Dispatch.Process
import Z2wRpc.Session.Socket
import Z2wRpc.Session.Server
import Z2wRpc.Session.Client
import Z2wRpc.Call.Request
import Z2wRpc.Call.Arguments
import Z2wRpc.Dispatch.MessageBounds
import Z2wRpc.Dispatch.Safety
import Z2wRpc.Session.Framing
import Z2wRpc.Session.Segmentation
import Z2wRpc.Session.ServerSafety
import Z2wRpc.Session.ServerReply
import Z2wRpc.CJson.ParseCut
import Z2wRpc.Session.Stub
import Z2wRpc.Session.TextResults
import Z2wRpc.Session.IntegerCalls
import Z2wRpc.Session.FrameSequence
import Z2wRpc.Session.Pipelining
import Z2wRpc.Dispatch.LoadedTable
import Z2wRpc.Call.Reads
import Z2wRpc.Session.StubFailure
import Z2wRpc.CJson.NumberText
import Z2wRpc.Call.ReplyIdentity
import Z2wRpc.Foundation.BitPolynomial
import Z2wRpc.Wire.Crc32Polynomial
import Z2wRpc.Generator.Emit
import Z2wRpc.Generator.Generate
import Z2wRpc.Generator.Damage
import Z2wRpc.Dispatch.Memory
import Z2wRpc.Dispatch.SharedTable
import Z2wRpc.Foundation.Interleaving
import Z2wRpc.Session.Connections
import Z2wRpc.Foundation.ErrorPattern
import Z2wRpc.Wire.ErrorDetection
import Z2wRpc.Session.Corruption
import Z2wRpc.Call.LastRegistration
import Z2wRpc.Generator.Symbols
import Z2wRpc.Dispatch.Acceptance
import Z2wRpc.Generator.SameLists
import Z2wRpc.Foundation.CFragment
import Z2wRpc.Generator.EmittedCode
import Z2wRpc.Generator.Arity
import Z2wRpc.Generator.NameCapture
import Z2wRpc.Generator.Prototypes
import Z2wRpc.Foundation.Ledger
import Z2wRpc.Generator.CleanUp
import Z2wRpc.Generator.Unterminated
import Z2wRpc.Generator.ArrayBounds
import Z2wRpc.CJson.WideNumbers
import Z2wRpc.Session.WideResults
import Z2wRpc.Session.Canonical
import Z2wRpc.Session.Moments
import Z2wRpc.Session.OpenSockets
import Z2wRpc.Foundation.ShortWrites
import Z2wRpc.Session.Hangups
import Z2wRpc.Session.ReplyStream
import Z2wRpc.Session.Alignment
import Z2wRpc.Foundation.Runs
import Z2wRpc.Session.Listener
import Z2wRpc.Dispatch.LoadInMemory
import Z2wRpc.Call.ServerAddress
import Z2wRpc.Dispatch.Reloading
import Z2wRpc.Dispatch.MessageEdits
import Z2wRpc.Foundation.XorFold
import Z2wRpc.Wire.Affinity
import Z2wRpc.Foundation.RedBlack
import Z2wRpc.NtyCo.SearchTree
import Z2wRpc.NtyCo.Rebalancing
import Z2wRpc.NtyCo.TreeRuns
import Z2wRpc.NtyCo.Schedule
import Z2wRpc.NtyCo.Run
import Z2wRpc.NtyCo.Placement
import Z2wRpc.NtyCo.Turns
import Z2wRpc.NtyCo.SchedulerRuns
import Z2wRpc.NtyCo.Fairness
import Z2wRpc.NtyCo.Bursts
import Z2wRpc.NtyCo.TaskPool
import Z2wRpc.Foundation.Linking
import Z2wRpc.NtyCo.Ownership
import Z2wRpc.NtyCo.Hooks
import Z2wRpc.NtyCo.Descriptors
import Z2wRpc.Session.Scripts
import Z2wRpc.NtyCo.Conversation
import Z2wRpc.NtyCo.Observation
import Z2wRpc.NtyCo.Hosting
import Z2wRpc.NtyCo.RemoteCalls
