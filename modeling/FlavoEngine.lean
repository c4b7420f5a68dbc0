import FlavoEngine.Core.SoaOwnership
import FlavoEngine.Core.SoaAccess
import FlavoEngine.Core.Result
import FlavoEngine.Core.LogFile
import FlavoEngine.Core.ThreadName
import FlavoEngine.Lib.Stages
import FlavoEngine.Renderer.Dx12
import FlavoEngine.Renderer.RenderManager
import FlavoEngine.Renderer.DataLifetime
import FlavoEngine.Engine.Future
import FlavoEngine.Engine.GameLoop
import FlavoEngine.Engine.Frames
import FlavoEngine.Lib.Rounds
import FlavoEngine.Engine.Lockstep
import FlavoEngine.Engine.ThreadAffinity
import FlavoEngine.Engine.TaskLifetime
import FlavoEngine.Engine.Progress
import FlavoEngine.Core.SoaLayout
import FlavoEngine.Core.SoaCopy
import FlavoEngine.Core.ErrorText
import FlavoEngine.Core.StringConversion
import FlavoEngine.Renderer.Adapters
import FlavoEngine.Lib.Checks
import FlavoEngine.Renderer.Initialization
import FlavoEngine.Core.ThreadNameAccess
import FlavoEngine.Lib.Alignment
import FlavoEngine.Core.SoaAlignment
import FlavoEngine.Lib.Shares
import FlavoEngine.Lib.Places
import FlavoEngine.Lib.Tally
import FlavoEngine.Engine.IdleWorkers
import FlavoEngine.Engine.ThreadPool
import FlavoEngine.Engine.PoolWorkers
import FlavoEngine.Engine.PoolTasks
import FlavoEngine.Engine.PoolWakeups
import FlavoEngine.Engine.PoolShutdown
import FlavoEngine.Engine.AnnouncedPool
import FlavoEngine.Engine.ResultProtocol
import FlavoEngine.Engine.ResultLifetime
import FlavoEngine.Engine.ResultRefinement
import FlavoEngine.Engine.LoopSystem
import FlavoEngine.Engine.LoopOverPool
import FlavoEngine.Engine.SystemProgress
import FlavoEngine.Engine.SystemEnd
import FlavoEngine.Engine.TaskOwnership
