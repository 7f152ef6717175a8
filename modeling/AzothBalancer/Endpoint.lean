import AzothBalancer.Lib.KeyedList
import AzothBalancer.Lib.RefHeap
import AzothBalancer.Machine

/-!
# Endpoints

The records of `endpoint.rs`: the error type, the metrics object an endpoint shares with its
clones, and the endpoint record. `RpcEndpoint.metrics` is the reference of an `Arc`: the record is
cloned by a reload, the object behind the reference is not.
-/

namespace AzothBalancer

/-- The errors the balancer reports.
Source: `endpoint.rs` `LoadBalancerError` -/
inductive LoadBalancerError where
  | rateLimited (url : String)
  | upstreamError (msg : String)
  | configError (msg : String)
  | badRequest (msg : String)
  deriving DecidableEq, Repr

/-- The `Display` text of an error. -/
def LoadBalancerError.toMessage : LoadBalancerError → String
  | rateLimited url => "Rate limit exceeded for endpoint: " ++ url
  | upstreamError msg => "Upstream error: " ++ msg
  | configError msg => "Configuration error: " ++ msg
  | badRequest msg => "Bad request: " ++ msg

/-- The kinds of failure the penalty distinguishes.
Source: `endpoint.rs` `ErrorKind` -/
inductive ErrorKind where
  | timeout
  | connectionError
  | http5xx
  | http4xx
  | rateLimit
  deriving DecidableEq, Repr

/-- The outcome of a request, as the metrics see it.
Source: `endpoint.rs` `RequestOutcome` -/
inductive RequestOutcome where
  | success (latencyMs : ℕ)
  | failure (errorKind : ErrorKind) (latencyMs : ℕ)
  deriving DecidableEq, Repr

/-- The performance metrics of an endpoint.
Source: `endpoint.rs` `EndpointMetrics` -/
structure EndpointMetrics where
  /-- EMA of the latency of successful requests, in milliseconds. -/
  emaLatencyMs : ℕ := 0
  /-- EMA of the penalty for failures, in milliseconds. -/
  emaErrorPenaltyMs : ℕ := 0
  /-- Failures since the last success. -/
  consecutiveFailures : ℕ := 0
  /-- When the endpoint was last selected, in seconds since the epoch. -/
  lastSelected : ℕ := 0
  deriving DecidableEq, Repr, Inhabited

namespace EndpointMetrics

/-- The value an EMA cell takes: computed in floats and converted back. A factor that is not
finite makes every product `NaN`, which converts to `0`.
Source: `endpoint.rs` `update_ema` -/
def updateEma (current newValue : ℕ) (alpha : F64) : ℕ :=
  match alpha with
  | .finite a => F64.roundAsU64 (a * newValue + (1 - a) * current)
  | _ => 0

/-- The penalty for a failure: the worse of the latency and the kind's base penalty.
Source: `endpoint.rs` `calculate_penalty` -/
def calculatePenalty (errorKind : ErrorKind) (latencyMs : ℕ) : ℕ :=
  let basePenalty := match errorKind with
    | .timeout => 30000
    | .connectionError => 20000
    | .http5xx => 15000
    | .http4xx => 5000
    | .rateLimit => 10000
  max basePenalty latencyMs

/-- The metrics after a request.
Source: `endpoint.rs` `EndpointMetrics::update` -/
def update (m : EndpointMetrics) (outcome : RequestOutcome) (latencySmoothingFactor : F64) :
    EndpointMetrics :=
  match outcome with
  | .success latencyMs =>
      { m with
        emaLatencyMs := updateEma m.emaLatencyMs latencyMs latencySmoothingFactor
        consecutiveFailures := 0
        emaErrorPenaltyMs := updateEma m.emaErrorPenaltyMs 0 (.finite (1 / 2)) }
  | .failure errorKind latencyMs =>
      { m with
        emaErrorPenaltyMs :=
          updateEma m.emaErrorPenaltyMs (calculatePenalty errorKind latencyMs) (.finite (4 / 5))
        -- `fetch_add` on an `AtomicU32` wraps
        consecutiveFailures := (m.consecutiveFailures + 1) % 2 ^ 32 }

/-- The cost the strategy compares: latency plus penalty, floored at one second.
Source: `endpoint.rs` `get_total_cost` -/
def getTotalCost (m : EndpointMetrics) : ℕ :=
  max (saturatingAdd64 m.emaLatencyMs m.emaErrorPenaltyMs) 1000

end EndpointMetrics

/-- A reference to an endpoint's shared metrics object. -/
abbrev MetricsRef := ℕ

/-- The state and configuration of one upstream node.
Source: `endpoint.rs` `RpcEndpoint` -/
structure RpcEndpoint where
  /-- The URL, which identifies the endpoint. -/
  url : String
  /-- The verdict of the last health check or failure. -/
  healthy : Bool
  /-- When the record was last checked. -/
  lastCheck : Instant
  /-- The end of the cooldown, if one was set. -/
  cooldownUntil : Option Instant
  /-- The number of cooldowns the backoff counts. -/
  cooldownAttempts : ℕ
  /-- The configured rate limit. -/
  rateLimitPerSec : ℕ
  /-- The configured burst. -/
  burstSize : ℕ
  /-- The configured weight. -/
  weight : ℕ
  /-- The shared metrics object. -/
  metrics : MetricsRef
  deriving DecidableEq, Repr

namespace RpcEndpoint

/-- Whether the cooldown is still running.
Source: `endpoint.rs` `is_in_cooldown` -/
def isInCooldown (ep : RpcEndpoint) (now : Instant) : Bool :=
  match ep.cooldownUntil with
  | some until_ => now < until_
  | none => false

/-- Whole seconds left of the cooldown, `0` outside one.
Source: `endpoint.rs` `cooldown_remaining_secs` -/
def cooldownRemainingSecs (ep : RpcEndpoint) (now : Instant) : ℕ :=
  match ep.cooldownUntil with
  | some until_ => if now < until_ then (until_ - now) / nanosPerSec else 0
  | none => 0

/-- Whether the endpoint can be used: healthy and out of cooldown.
Source: `endpoint.rs` `is_available` -/
def isAvailable (ep : RpcEndpoint) (now : Instant) : Bool :=
  ep.healthy && !ep.isInCooldown now

end RpcEndpoint

end AzothBalancer
