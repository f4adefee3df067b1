import SmartFill.AIGenerate
import SmartFill.AIGenerateRuns
import SmartFill.AISmartFill
import SmartFill.AISmartFillRuns
import SmartFill.AiCache
import SmartFill.AiCacheFaults
import SmartFill.AiCachePrune
import SmartFill.AiCacheStore
import SmartFill.AiCacheSweep
import SmartFill.AiHash
import SmartFill.BakeTask
import SmartFill.Bootstrap
import SmartFill.BufferSources
import SmartFill.CacheHit
import SmartFill.CacheKey
import SmartFill.CancelReport
import SmartFill.ConvertAgain
import SmartFill.ConvertKey
import SmartFill.CookHash
import SmartFill.Delivery
import SmartFill.EngineBounds
import SmartFill.Exact
import SmartFill.FillSoundness
import SmartFill.GenerateKey
import SmartFill.Graph
import SmartFill.GraphDraws
import SmartFill.GraphFiles
import SmartFill.GraphLifts
import SmartFill.GraphRuns
import SmartFill.GraphSources
import SmartFill.HashStream
import SmartFill.ImageCache
import SmartFill.ImageCacheFormat
import SmartFill.ImageCacheWrite
import SmartFill.IndexRange
import SmartFill.InpaintSpec
import SmartFill.KeyBuilder
import SmartFill.LamaOnce
import SmartFill.LamaSession
import SmartFill.LamaTiler
import SmartFill.Lib.Assignment
import SmartFill.Lib.Bilinear
import SmartFill.Lib.BinaryRounding
import SmartFill.Lib.BlockStream
import SmartFill.Lib.ByteCode
import SmartFill.Lib.CBuffer
import SmartFill.Lib.Disk
import SmartFill.Lib.DiskOps
import SmartFill.Lib.Fips180
import SmartFill.Lib.JobCycle
import SmartFill.Lib.NamedList
import SmartFill.Lib.Once
import SmartFill.Lib.Ownership
import SmartFill.Lib.Parallel
import SmartFill.Lib.Posix
import SmartFill.Lib.PrefixRules
import SmartFill.Lib.Quantize
import SmartFill.Lib.RowMajor
import SmartFill.Lib.Strtof
import SmartFill.Lib.Sweep
import SmartFill.Lib.Trailing
import SmartFill.Lib.Transition
import SmartFill.Loras
import SmartFill.LorasSpec
import SmartFill.MaskCoverage
import SmartFill.MenuPoll
import SmartFill.NodeLife
import SmartFill.Nuke
import SmartFill.PathNames
import SmartFill.PluginPath
import SmartFill.PollRound
import SmartFill.PresetPanel
import SmartFill.Presets
import SmartFill.Quiescence
import SmartFill.Resize
import SmartFill.Restyle
import SmartFill.Runtime
import SmartFill.SavedScript
import SmartFill.SavedSeed
import SmartFill.SdCalls
import SmartFill.SdConcurrency
import SmartFill.SdOwnership
import SmartFill.SdSession
import SmartFill.SharedCache
import SmartFill.SharedCacheEnds
import SmartFill.SharedCacheSafety
import SmartFill.TensorNames
import SmartFill.Types
import SmartFill.Unmasked
import SmartFill.ValidateSerial
import SmartFill.ValidateSteps
import SmartFill.Viewer
import SmartFill.Worker
import SmartFill.WorkerCycle
import SmartFill.WorkerFailedStart
import SmartFill.WorkerSafety
import SmartFill.WorkerThreads
import SmartFill.WorkerView
import SmartFill.WriteOps
