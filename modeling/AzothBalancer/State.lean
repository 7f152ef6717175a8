import AzothBalancer.Config
import AzothBalancer.Endpoint
import AzothBalancer.Limiter
import AzothBalancer.Metrics
import Mathlib.Logic.Function.Basic

/-!
# The shared state

* `LoadBalancer` — the fields of the struct of that name, each the content of its lock. The map of
  limiters is a partial function from URLs to limiter references; the HTTP client is known by the
  four settings it was built from.
* `World M` — a load balancer together with what it points to: the heap of metrics objects, the
  heap of limiter objects and the Prometheus registry.
* `LoadBalancer.new` — startup from a configuration.

The invariant of the store has two parts. `World.WellFormed` (URLs pairwise distinct, every
reference valid) holds in every state of every interleaving; `World.Matched` (every endpoint has a
limiter, made by `create_rate_limiter` from the endpoint's current burst and rate, and no other URL
has one) holds as long as operations run one at a time.
-/

namespace AzothBalancer

/-- The four settings an HTTP client is built from. -/
structure ClientSettings where
  connectTimeoutMs : ℕ
  timeoutSecs : ℕ
  poolIdleTimeoutSecs : ℕ
  poolMaxIdlePerHost : ℕ
  deriving DecidableEq, Repr

/-- The client settings of a configuration. -/
def Settings.client (c : Settings) : ClientSettings :=
  ⟨c.connectTimeoutMs, c.timeoutSecs, c.poolIdleTimeoutSecs, c.poolMaxIdlePerHost⟩

/-- The load balancer, field by field.
Source: `balancer.rs` `LoadBalancer` -/
structure LoadBalancer where
  endpoints : List RpcEndpoint
  rateLimiters : String → Option LimiterRef
  client : ClientSettings
  bindAddr : String
  healthCheckIntervalSecs : ℕ
  healthCheckTimeoutSecs : ℕ
  baseCooldownSecs : ℕ
  maxCooldownSecs : ℕ
  maxBatchSize : ℕ
  latencySmoothingFactor : F64
  /-- The permits the concurrency semaphore was created with. -/
  concurrencyLimiter : ℕ
  configPath : String
  connectTimeoutMs : ℕ
  timeoutSecs : ℕ
  poolIdleTimeoutSecs : ℕ
  poolMaxIdlePerHost : ℕ

/-- The four stored client settings. -/
def LoadBalancer.clientSettings (lb : LoadBalancer) : ClientSettings :=
  ⟨lb.connectTimeoutMs, lb.timeoutSecs, lb.poolIdleTimeoutSecs, lb.poolMaxIdlePerHost⟩

/-- A load balancer with the objects it points to. -/
structure World (M : Meter) where
  lb : LoadBalancer
  metrics : RefHeap EndpointMetrics
  limiters : RefHeap (RateLimiter M)
  prom : Registry

variable {M : Meter}

/-- The endpoint record under a URL.
Source: `balancer.rs`, `endpoints.iter().find(|e| e.url == url)` -/
def LoadBalancer.endpoint? (lb : LoadBalancer) (url : String) : Option RpcEndpoint :=
  KeyedList.lookup RpcEndpoint.url url lb.endpoints

/-- The metrics object of an endpoint. -/
def World.metricsOf (w : World M) (ep : RpcEndpoint) : EndpointMetrics :=
  (w.metrics.get? ep.metrics).getD default

/-- The limiter object under a URL. -/
def World.limiter? (w : World M) (url : String) : Option (RateLimiter M) :=
  w.lb.rateLimiters url >>= w.limiters.get?

/-- The arguments the limiter under a URL was created with, as `(burst, rate)`. -/
def World.limiterParams (w : World M) (url : String) : Option (ℕ × ℕ) :=
  (w.limiter? url).map RateLimiter.params

/-! ## Startup -/

/-- The metrics object of a new endpoint: the latency starts at the request timeout.
Source: `balancer.rs` `LoadBalancer::new`; `config_reloader.rs` `reload` -/
def EndpointMetrics.initial (timeoutSecs : ℕ) : EndpointMetrics :=
  { emaLatencyMs := wrappingMul64 1000 timeoutSecs }

/-- The record of a new endpoint.
Source: `balancer.rs` `LoadBalancer::new`; `config_reloader.rs` `reload` -/
def RpcEndpoint.initial (url : String) (rateLimitPerSec burstSize weight : ℕ) (now : Instant)
    (metrics : MetricsRef) : RpcEndpoint where
  url := url
  healthy := true
  lastCheck := now
  cooldownUntil := none
  cooldownAttempts := 0
  rateLimitPerSec := rateLimitPerSec
  burstSize := burstSize
  weight := weight
  metrics := metrics

/-- The series every endpoint starts with, at zero.
Source: `config_reloader.rs` `initialize_endpoint_metrics`; `balancer.rs` `LoadBalancer::new` -/
def initializeEndpointMetrics (url : String) (m : Registry) : Registry :=
  let m := m.set .cooldownSecondsGauge [url] 0
  let m := m.incBy .cooldownsTriggered [url] 0
  let m := m.incBy .endpointRateLimitDeferred [url] 0
  let m := m.incBy .rpcRequestsSucceeded [url] 0
  let m := m.incBy .rpcRequestsFailed [url] 0
  m.incBy .healthcheckFailed [url] 0

/-- The endpoint records of a configuration, with their metrics objects; `none` is a panic.
Source: `balancer.rs` `LoadBalancer::new`, `endpoints_list.into_iter().map(..)` -/
def newEndpoints (timeoutSecs : ℕ) (now : Instant) :
    List EndpointConfig → RefHeap EndpointMetrics → Option (List RpcEndpoint × RefHeap EndpointMetrics)
  | [], heap => some ([], heap)
  | e :: es, heap => do
      let (heap, r) := heap.alloc (.initial timeoutSecs)
      let weight ← e.weight
      let (rest, heap) ← newEndpoints timeoutSecs now es heap
      return (.initial e.url e.rateLimitPerSec e.burstSize weight now r :: rest, heap)

/-- A limiter for every endpoint, in order; `none` is a panic.
Source: `balancer.rs` `LoadBalancer::new`, the loop over `rate_limiters` -/
def newLimiters (M : Meter) :
    List RpcEndpoint → (String → Option LimiterRef) → RefHeap (RateLimiter M) →
    Option ((String → Option LimiterRef) × RefHeap (RateLimiter M))
  | [], map, heap => some (map, heap)
  | ep :: eps, map, heap => do
      let l ← createRateLimiter M ep.burstSize ep.rateLimitPerSec
      let (heap, r) := heap.alloc l
      newLimiters M eps (Function.update map ep.url (some r)) heap

/-- The most permits a semaphore can be created with; more is a panic. -/
def semaphoreMaxPermits : ℕ := u64Max / 8

/-- Startup: the balancer of a configuration; `none` is a panic.
Source: `balancer.rs` `LoadBalancer::new` -/
def LoadBalancer.new (M : Meter) (toLowercase : List Char → List Char) (config : Option Config)
    (configPath : String) (now : Instant) : Option (World M) := do
  let .ok config := (config.getD {}).finalize toLowercase | none
  let serverCfg ← config.server
  let balancerCfg ← config.balancer
  let bindAddr ← serverCfg.bindAddr
  let c ← balancerCfg.destructure
  let maxConcurrency ← balancerCfg.maxConcurrency
  guard (maxConcurrency ≤ semaphoreMaxPermits)
  let (endpoints, metrics) ← newEndpoints c.timeoutSecs now c.endpoints .empty
  let prom := Registry.empty.set .totalEndpoints [] endpoints.length
  let prom := prom.set .healthyEndpoints [] endpoints.length
  let prom := endpoints.foldl (fun m ep => initializeEndpointMetrics ep.url m) prom
  let (rateLimiters, limiters) ← newLimiters M endpoints (fun _ => none) .empty
  return {
    lb := {
      endpoints := endpoints
      rateLimiters := rateLimiters
      client := c.client
      bindAddr := bindAddr
      healthCheckIntervalSecs := c.healthCheckIntervalSecs
      healthCheckTimeoutSecs := c.healthCheckTimeoutSecs
      baseCooldownSecs := c.baseCooldownSecs
      maxCooldownSecs := c.maxCooldownSecs
      maxBatchSize := c.maxBatchSize
      latencySmoothingFactor := c.latencySmoothingFactor
      concurrencyLimiter := maxConcurrency
      configPath := configPath
      connectTimeoutMs := c.connectTimeoutMs
      timeoutSecs := c.timeoutSecs
      poolIdleTimeoutSecs := c.poolIdleTimeoutSecs
      poolMaxIdlePerHost := c.poolMaxIdlePerHost }
    metrics := metrics
    limiters := limiters
    prom := prom }

/-! ## The invariants of the store -/

/-- URLs are pairwise distinct and no reference dangles. -/
structure World.WellFormed (w : World M) : Prop where
  nodup : (w.lb.endpoints.map RpcEndpoint.url).Nodup
  metrics : ∀ ep ∈ w.lb.endpoints, w.metrics.Valid ep.metrics
  limiters : ∀ url r, w.lb.rateLimiters url = some r → w.limiters.Valid r

/-- The limiter map fits the endpoint list: the URLs with a limiter are the endpoints' URLs, and
every endpoint's limiter was created from the endpoint's burst and rate. -/
structure World.Matched (w : World M) : Prop where
  keys : ∀ url, (w.lb.rateLimiters url).isSome ↔ url ∈ w.lb.endpoints.map RpcEndpoint.url
  params : ∀ ep ∈ w.lb.endpoints, w.limiterParams ep.url = some (ep.burstSize, ep.rateLimitPerSec)

end AzothBalancer
