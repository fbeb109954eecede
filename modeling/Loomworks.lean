import Loomworks.CoroutineIdentity
import Loomworks.PoolDispatch
import Loomworks.PoolWakeup
import Loomworks.ResidenceDrain
import Loomworks.WorkDequeSafety
import Loomworks.Collectors
import Loomworks.CoroStack
import Loomworks.CoroutineLifecycle
import Loomworks.DagJoiners
import Loomworks.FutureOutcome
import Loomworks.IntakeCapacity
import Loomworks.IntakeFutures
import Loomworks.IntakeWakeup
import Loomworks.NodeOwner
import Loomworks.NodeStackSafety
import Loomworks.PipelineWakeups
import Loomworks.PoolCancellation
import Loomworks.TaskGroupWakeups
import Loomworks.CancelIndexMap
import Loomworks.DagSubmitWait
import Loomworks.FutureWakeups
import Loomworks.TimerQueue
import Loomworks.WorkDequeList
import Loomworks.LaneLists
import Loomworks.PoolCancelKeys
import Loomworks.PoolIndexRoom
import Loomworks.ResizeFailure
import Loomworks.Latency
import Loomworks.NumaCpulist
import Loomworks.PoolCreation
import Loomworks.Runtime
import Loomworks.SleepDeadline
import Loomworks.StealLoop
import Loomworks.WorkerArrays
