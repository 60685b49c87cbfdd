import HighSpeed.Lib.NumberFormat
import HighSpeed.Lib.CxxString
import HighSpeed.Lib.CxxVector
import HighSpeed.Lib.Run
import HighSpeed.Json.Core
import HighSpeed.Json.Path
import HighSpeed.Json.Value
import HighSpeed.Json.Progress
import HighSpeed.Json.RoundTrip
import HighSpeed.Json.DumpRoundTrip
import HighSpeed.Json.Grammar
import HighSpeed.Json.Completeness
import HighSpeed.Http.Message
import HighSpeed.Http.RoundTrip
import HighSpeed.Io.Buffer
import HighSpeed.Alloc.MemoryPool
import HighSpeed.Alloc.PoolSoundness
import HighSpeed.Alloc.Allocator
import HighSpeed.Net.IoContext
import HighSpeed.Net.Strand
import HighSpeed.Tools.ThreadPool
import HighSpeed.Tools.ThreadPoolDrain
import HighSpeed.Coro.Generator
import HighSpeed.Log.Format
import HighSpeed.Log.Logger
import HighSpeed.Coro.Scheduler
import HighSpeed.Coro.SchedulerSafety
import HighSpeed.Coro.SchedulerStop
import HighSpeed.Coro.Task
import HighSpeed.Coro.CallStack
import HighSpeed.Coro.Awaitable
import HighSpeed.Coro.AwaitableRefinement
import HighSpeed.Net.Socket
