import Paperlog.Framework.Transition
import Paperlog.Framework.RwLock
import Paperlog.Model.FileIo
import Paperlog.Model.LoggerThreadCtx
import Paperlog.Model.SemaphoreLite
import Paperlog.Model.VecPool
import Paperlog.Model.Steps
import Paperlog.Framework.Journal
import Paperlog.Model.DiskIo
import Paperlog.Model.Frames
import Paperlog.Properties.Delivery
import Paperlog.Properties.Pipeline
import Paperlog.Model.Scenario
import Paperlog.Properties.Wakeup
import Paperlog.Properties.Quiescence
import Paperlog.Properties.FlushWait
import Paperlog.Model.Locking
import Paperlog.Properties.Deadlock
import Paperlog.Properties.ContextFile
import Paperlog.Properties.ContextPaths
import Paperlog.Model.CStr
import Paperlog.Model.Ffi
import Paperlog.Properties.ThreadDeath
import Paperlog.Properties.SinkStream
import Paperlog.Properties.AdmittedConfig
import Paperlog.Framework.Cutting
import Paperlog.Properties.Splitting
import Paperlog.Model.SemaphoreThreads
import Paperlog.Properties.Semaphore
import Paperlog.Properties.SemaphoreUse
import Paperlog.Model.LogcatLogger
import Paperlog.Model.LogcatSys
import Paperlog.Properties.LogcatSlices
import Paperlog.Framework.LexicalPath
import Paperlog.Framework.Memo
import Paperlog.Model.PathComponents
import Paperlog.Model.CppLogger
import Paperlog.Properties.CppStrings
import Paperlog.Model.SinkCallbacks
import Paperlog.Properties.SinksMayLog
import Paperlog.Model.PanicHook
import Paperlog.Properties.PanicSafety
import Paperlog.Properties.BatchWriting
import Paperlog.Properties.LogcatMemory
import Paperlog.Properties.PoolCapacity
import Paperlog.Model.Backtrace
import Paperlog.Model.BacktraceLoop
import Paperlog.Properties.BacktraceReads
import Paperlog.Model.SinkData
import Paperlog.Properties.SinkDecoding
import Paperlog.Model.CString
import Paperlog.Model.Facades
import Paperlog.Properties.Forwarding
import Paperlog.Model.GlobalLogger
import Paperlog.Properties.InitFailure
import Paperlog.Properties.CppConfig
import Paperlog.Framework.Utf8
import Paperlog.Properties.UnflushedLines
import Paperlog.Framework.Progress
import Paperlog.Properties.Termination
import Paperlog.Properties.Rest
import Paperlog.Framework.Trace
import Paperlog.Properties.Linearization
import Paperlog.Properties.OnDisk
import Paperlog.Properties.ContextsRunning
import Paperlog.Framework.Delimited
import Paperlog.Properties.ReadBack
import Paperlog.Properties.PanicOnDisk
import Paperlog.Properties.Silence
import Paperlog.Properties.UnusedSettings
import Paperlog.Properties.CStrings
import Paperlog.Framework.Digits
import Paperlog.Model.BuildId
import Paperlog.Properties.BuildIds
import Paperlog.Properties.EndToEnd
import Paperlog.Framework.OnceCell
import Paperlog.Properties.InitRace
import Paperlog.Properties.BacktraceLines
