import AzothBalancer.Cooldown
import AzothBalancer.Strategy

/-!
# Operations on the shared state

The operations that read and write endpoints under their lock, each as one step of the world:

* `getNextEndpoint` — selection, which also stamps the metrics object of the selected endpoint;
* `markRateLimited`, `markUnhealthy` — the two marks of `balancer.rs`;
* `applyProbe`, `applyHealthResults` — the write section of a health round (`utils/health.rs`), one
  result at a time and all of them;
* `performHealthChecks` — a whole round, run alone.

Where a cooldown is triggered the step may panic. It then answers `true` beside the world as the
unwinding leaves it; a health round stops at its first panic.
-/

namespace AzothBalancer

variable {M : Meter}

/-- The first record under `url` rewritten by `f`.
Source: `balancer.rs`, `endpoints.iter_mut().find(|e| e.url == url)` -/
def LoadBalancer.updateEndpoint (lb : LoadBalancer) (url : String) (f : RpcEndpoint → RpcEndpoint) :
    LoadBalancer :=
  { lb with endpoints := KeyedList.update RpcEndpoint.url url f lb.endpoints }

/-- Selects an endpoint, stamps it and returns its URL.
Source: `balancer.rs` `get_next_endpoint` -/
def getNextEndpoint (w : World M) (batchSize : ℕ) (clock : Clock) : Option String × World M :=
  match selectBestEndpoint w batchSize clock.now with
  | (some endpoint, w) =>
      let metrics := w.metrics.modify endpoint.metrics fun m =>
        { m with lastSelected := clock.unixSecs }
      (some endpoint.url, { w with metrics := metrics })
  | (none, w) => (none, w)

/-- The number of available endpoints; the `i`-th is asked at the reading `readings i` of the clock.
Source: `balancer.rs` `update_healthy_count`, `healthy_count` -/
def countAvailable (readings : ℕ → Instant) (eps : List RpcEndpoint) : ℕ :=
  (eps.zipIdx.filter fun x => x.1.isAvailable (readings x.2)).length

/-- Sets the gauge of available endpoints.
Source: `balancer.rs` `update_healthy_count` -/
def updateHealthyCountAt (w : World M) (readings : ℕ → Instant) : World M :=
  { w with prom := w.prom.set .healthyEndpoints [] (countAvailable readings w.lb.endpoints) }

/-- Sets the gauge at one instant. -/
def updateHealthyCount (w : World M) (now : Instant) : World M := updateHealthyCountAt w fun _ => now

/-- At one instant the position does not matter. -/
@[simp] theorem countAvailable_const (now : Instant) (eps : List RpcEndpoint) :
    countAvailable (fun _ => now) eps = (eps.filter fun ep => ep.isAvailable now).length := by
  have hfst := congrArg (List.countP fun ep => ep.isAvailable now) (List.zipIdx_map_fst 0 eps)
  rw [List.countP_map] at hfst
  unfold countAvailable
  rw [← List.countP_eq_length_filter, ← List.countP_eq_length_filter]
  exact hfst

/-- `trigger_cooldown` on the record of `ep`, after `prepare` has written its other fields. -/
def cooldownEndpoint (w : World M) (ep : RpcEndpoint) (prepare : RpcEndpoint → RpcEndpoint)
    (base max_ : ℕ) (now : Instant) : World M × Bool :=
  let lb := w.lb.updateEndpoint ep.url fun e => (triggerCooldown (prepare e) base max_ now).1
  match (triggerCooldown (prepare ep) base max_ now).2 with
  | some duration => ({ w with lb := lb, prom := publishCooldown w.prom ep.url duration }, false)
  | none => ({ w with lb := lb }, true)

/-- Puts an endpoint into cooldown after an upstream 429.
Source: `balancer.rs` `mark_rate_limited` -/
def markRateLimited (w : World M) (url : String) (now : Instant) : World M × Bool :=
  match w.lb.endpoint? url with
  | none => (w, false)
  | some ep => cooldownEndpoint w ep id w.lb.baseCooldownSecs w.lb.maxCooldownSecs now

/-- Marks a healthy endpoint unhealthy and puts it into cooldown.
Source: `balancer.rs` `mark_unhealthy` -/
def markUnhealthy (w : World M) (url : String) (now : Instant) : World M × Bool :=
  match w.lb.endpoint? url with
  | none => (w, false)
  | some ep =>
      if ep.healthy then
        cooldownEndpoint w ep (fun e => { e with healthy := false }) w.lb.baseCooldownSecs
          w.lb.maxCooldownSecs now
      else (w, false)

/-! ## Health rounds -/

/-- `timeout_duration.as_millis() as u64`. -/
def timeoutMillis (secs : ℕ) : ℕ := wrappingMul64 1000 secs

/-- Counts a failed probe and enters it into the endpoint's metrics, as a timeout.
Source: `utils/health.rs` `perform_health_checks` -/
def recordFailedProbe (w : World M) (url : String) (ep : RpcEndpoint) (timeoutMs : ℕ) : World M :=
  let metrics := w.metrics.modify ep.metrics fun m =>
    m.update (.failure .timeout timeoutMs) w.lb.latencySmoothingFactor
  { w with metrics := metrics, prom := w.prom.inc .healthcheckFailed [url] }

/-- Resets the failures of a recovered endpoint and decays its penalty.
Source: `utils/health.rs` `perform_health_checks` -/
def recordRecovery (w : World M) (ep : RpcEndpoint) : World M :=
  let metrics := w.metrics.modify ep.metrics fun m =>
    { m with
      consecutiveFailures := 0
      emaErrorPenaltyMs := EndpointMetrics.updateEma m.emaErrorPenaltyMs 0 (.finite (1 / 2)) }
  { w with metrics := metrics }

@[simp] theorem recordFailedProbe_lb (w : World M) (url : String) (ep : RpcEndpoint)
    (timeoutMs : ℕ) : (recordFailedProbe w url ep timeoutMs).lb = w.lb := rfl

@[simp] theorem recordRecovery_lb (w : World M) (ep : RpcEndpoint) :
    (recordRecovery w ep).lb = w.lb := rfl

/-- Applies one probe result, with the cooldown bounds the section read at its start.
Source: `utils/health.rs` `perform_health_checks`, the body of the loop over `updates` -/
def applyProbe (base max_ timeoutMs : ℕ) (now : Instant) (w : World M) (result : String × Bool) :
    World M × Bool :=
  let (url, isHealthy) := result
  match w.lb.endpoint? url with
  | none => (w, false)
  | some ep =>
      let checked := fun e : RpcEndpoint => { e with healthy := isHealthy, lastCheck := now }
      if isHealthy then
        if ep.healthy then ({ w with lb := w.lb.updateEndpoint url checked }, false)
        else
          let w := recordRecovery w ep
          let recovered := fun e => { checked e with cooldownAttempts := 0, cooldownUntil := none }
          ({ w with lb := w.lb.updateEndpoint url recovered }, false)
      else
        let w := recordFailedProbe w url ep timeoutMs
        if ep.healthy then cooldownEndpoint w ep checked base max_ now
        else ({ w with lb := w.lb.updateEndpoint url checked }, false)

/-- Applies results in order, up to the first panic. -/
def applyProbes (base max_ timeoutMs : ℕ) (now : Instant) :
    List (String × Bool) → World M → World M × Bool
  | [], w => (w, false)
  | result :: rest, w =>
      match applyProbe base max_ timeoutMs now w result with
      | (w, true) => (w, true)
      | (w, false) => applyProbes base max_ timeoutMs now rest w

/-- The write section of a health round; the round's timeout was read when it began.
Source: `utils/health.rs` `perform_health_checks` -/
def applyHealthResults (w : World M) (results : List (String × Bool)) (timeoutMs : ℕ)
    (now : Instant) : World M × Bool :=
  applyProbes w.lb.baseCooldownSecs w.lb.maxCooldownSecs timeoutMs now results w

/-- A health round run alone; `results` lists the probes in the order they completed.
Source: `utils/health.rs` `perform_health_checks` -/
def performHealthChecks (w : World M) (results : List (String × Bool)) (now : Instant) :
    World M × Bool :=
  let observed := results.foldl (fun m r => m.observe .healthCheckLatency [r.1]) w.prom
  match applyHealthResults { w with prom := observed } results
      (timeoutMillis w.lb.healthCheckTimeoutSecs) now with
  | (w, true) => (w, true)
  | (w, false) => (updateHealthyCount w now, false)

end AzothBalancer
