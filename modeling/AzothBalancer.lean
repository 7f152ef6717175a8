import AzothBalancer.RateCap
import AzothBalancer.ReloadSpec
import AzothBalancer.Operation
import AzothBalancer.Lib.Runs
import AzothBalancer.StoreInvariant
import AzothBalancer.Instances
import AzothBalancer.System
import AzothBalancer.RestartRefinement
import AzothBalancer.HealthInvariant
import AzothBalancer.LostUpdates
import AzothBalancer.SwapWindow
import AzothBalancer.ReloadRace
import AzothBalancer.Lib.RwLock
import AzothBalancer.LockProtocol
import AzothBalancer.HandleRpc
import AzothBalancer.Lib.JsonText
import AzothBalancer.Lib.JsonSearch
import AzothBalancer.BatchAdmission
import AzothBalancer.Lib.LeastBy
import AzothBalancer.PriorityStats
import AzothBalancer.RpcSystem
import AzothBalancer.OwnLimiters
import AzothBalancer.TokenLedger
import AzothBalancer.SelectionOptimum
import AzothBalancer.Shutdown
import AzothBalancer.PermitGauge
import AzothBalancer.FinalizedConfig
import AzothBalancer.BatchService
import AzothBalancer.ConfigSafety
import AzothBalancer.ForwardCalls
import AzothBalancer.RequestCounters
import AzothBalancer.EventCounters
import AzothBalancer.EndpointSeries
import AzothBalancer.HealthRounds
import AzothBalancer.StaleProbes
import AzothBalancer.Backoff
import AzothBalancer.BackoffLength
import AzothBalancer.EmaRange
import AzothBalancer.LatencyOrder
import AzothBalancer.EndpointFilter
import AzothBalancer.OwnMetrics
import AzothBalancer.ProbeOrder
import AzothBalancer.ForwardTrace
import AzothBalancer.ForwardOutcome
import AzothBalancer.ErrorScan
import AzothBalancer.AtomicMetrics
import AzothBalancer.Service
import AzothBalancer.ServiceFlow
import AzothBalancer.Recovery
import AzothBalancer.Burst
import AzothBalancer.BackgroundTasks
import AzothBalancer.StatusReport
import AzothBalancer.CooldownGauge
import AzothBalancer.StickySelection
import AzothBalancer.ErrorReply
import AzothBalancer.Quarantine
import AzothBalancer.UnchangedReload
