import AzothBalancer.HealthyGauge
import AzothBalancer.PriorityStats

/-!
# The status report

`get_status` holds the lock on the endpoint list for as long as it runs, so the records do not change
under it. Everything else it reads moves on between two readings: the clocks advance, the metrics
are updated by requests and health checks, and a reload writes the settings one lock after the
other. `Readings` is what the call finds, reading by reading; `getStatus` numbers the readings in the
order of the source.

The report goes over the list three times: it counts the available endpoints, ranks all of them and
lists their details. `StatusReport.Consistent` is what the three answers still have to do with the list
and with each other. `status_consistent` adds the attempts, the gauge of available endpoints, which may
be older than the report (`HealthRun.gaugeShows`), and that nothing is left of the difference between
the passes when the clock stands and the metrics stay as they are.
-/

namespace AzothBalancer

open LeastBy

variable {M : Meter}

/-! ## The report -/

/-- What a call finds at each of its readings. -/
structure Readings where
  /-- `Instant::now()`. -/
  now : ℕ → Instant
  /-- `SystemTime::now()` in whole seconds since `UNIX_EPOCH`. It may be set back. -/
  unixSecs : ℕ → ℕ
  metrics : ℕ → RefHeap EndpointMetrics
  /-- What stands behind the locks of the settings. -/
  settings : ℕ → LoadBalancer
  monotonic : Monotone now

/-- The metrics object of an endpoint at a reading. -/
def Readings.metricsOf (r : Readings) (t : ℕ) (ep : RpcEndpoint) : EndpointMetrics :=
  ((r.metrics t).get? ep.metrics).getD default

/-- The total cost, whose two parts are loaded one after the other.
Source: `endpoint.rs` `get_total_cost` -/
def Readings.totalCost (r : Readings) (t : ℕ) (ep : RpcEndpoint) : ℕ :=
  { r.metricsOf t ep with emaErrorPenaltyMs := (r.metricsOf (t + 1) ep).emaErrorPenaltyMs }.getTotalCost

/-- The settings of the balancer in a status.
Source: `balancer.rs` `get_status`, `"balancer_settings"` -/
structure BalancerSettings where
  healthCheckIntervalSecs : ℕ
  healthCheckTimeoutSecs : ℕ
  baseCooldownSecs : ℕ
  maxCooldownSecs : ℕ
  maxBatchSize : ℕ
  latencySmoothingFactor : F64

/-- The details of an endpoint in a status.
Source: `balancer.rs` `get_status`, `"endpoints_details"` -/
structure EndpointDetails where
  url : String
  healthy : Bool
  available : Bool
  inCooldown : Bool
  cooldownRemainingSecs : ℕ
  cooldownAttempts : ℕ
  consecutiveFailures : ℕ
  emaLatencyMs : ℕ
  emaErrorPenaltyMs : ℕ
  totalCostMs : ℕ
  lastSelectedTimestamp : ℕ
  lastCheckSecsAgo : ℕ
  rateLimitPerSec : ℕ
  burstSize : ℕ
  weight : ℕ
  deriving DecidableEq, Repr

/-- The answer of `/status`. -/
structure StatusReport where
  bindAddr : String
  configPath : String
  totalEndpoints : ℕ
  healthyEndpoints : ℕ
  balancerSettings : BalancerSettings
  clientSettings : ClientSettings
  priorityInfo : PriorityInfo
  endpointsDetails : List EndpointDetails

namespace Readings

variable (r : Readings)

/-- The number of available endpoints; the `i`-th is asked at reading `i`.
Source: `balancer.rs` `get_status`, `available_endpoints` -/
def healthyCount (eps : List RpcEndpoint) : ℕ := countAvailable r.now eps

/-- The entry of an endpoint that is ranked, read from reading `t` on.
Source: `balancer.rs` `get_endpoint_priority_stats`, `endpoints.iter().map(..)` -/
def stat (t : ℕ) (ep : RpcEndpoint) : EndpointStat where
  url := ep.url
  weight := ep.weight
  healthy := ep.healthy
  available := ep.isAvailable (r.now t)
  inCooldown := ep.isInCooldown (r.now (t + 1))
  cooldownRemainingSecs := ep.cooldownRemainingSecs (r.now (t + 2))
  totalCostMs := r.totalCost (t + 3) ep
  lastSelectedSecsAgo := r.unixSecs (t + 5) - (r.metricsOf (t + 6) ep).lastSelected

/-- The entries before they are ranked, each with seven readings.
Source: `balancer.rs` `get_endpoint_priority_stats`, `stats` -/
def stats (t : ℕ) (eps : List RpcEndpoint) : List EndpointStat :=
  eps.mapIdx fun i ep => r.stat (t + 7 * i) ep

/-- The ranked entries.
Source: `balancer.rs` `get_endpoint_priority_stats` -/
def priorityInfo (t : ℕ) (eps : List RpcEndpoint) : PriorityInfo where
  strategy := "priority_based_with_lru_tie_breaking"
  endpoints := rankStats ((r.stats t eps).insertionSort fun a b => compareStats a b ≠ .gt)

/-- The details of an endpoint, read from reading `t` on.
Source: `balancer.rs` `get_status`, `"endpoints_details"` -/
def details (t : ℕ) (ep : RpcEndpoint) : EndpointDetails where
  url := ep.url
  healthy := ep.healthy
  available := ep.isAvailable (r.now t)
  inCooldown := ep.isInCooldown (r.now (t + 1))
  cooldownRemainingSecs := ep.cooldownRemainingSecs (r.now (t + 2))
  cooldownAttempts := ep.cooldownAttempts
  consecutiveFailures := (r.metricsOf (t + 3) ep).consecutiveFailures
  emaLatencyMs := (r.metricsOf (t + 4) ep).emaLatencyMs
  emaErrorPenaltyMs := (r.metricsOf (t + 5) ep).emaErrorPenaltyMs
  totalCostMs := r.totalCost (t + 6) ep
  lastSelectedTimestamp := (r.metricsOf (t + 8) ep).lastSelected
  -- `elapsed` saturates
  lastCheckSecsAgo := (r.now (t + 9) - ep.lastCheck) / nanosPerSec
  rateLimitPerSec := ep.rateLimitPerSec
  burstSize := ep.burstSize
  weight := ep.weight

/-- The details of all endpoints in the order of the list, each with ten readings.
Source: `balancer.rs` `get_status`, `"endpoints_details"` -/
def allDetails (t : ℕ) (eps : List RpcEndpoint) : List EndpointDetails :=
  eps.mapIdx fun i ep => r.details (t + 10 * i) ep

/-- The settings of the balancer, one lock after the other.
Source: `balancer.rs` `get_status`, `"balancer_settings"` -/
def balancerSettings (t : ℕ) : BalancerSettings where
  healthCheckIntervalSecs := (r.settings t).healthCheckIntervalSecs
  healthCheckTimeoutSecs := (r.settings (t + 1)).healthCheckTimeoutSecs
  baseCooldownSecs := (r.settings (t + 2)).baseCooldownSecs
  maxCooldownSecs := (r.settings (t + 3)).maxCooldownSecs
  maxBatchSize := (r.settings (t + 4)).maxBatchSize
  latencySmoothingFactor := (r.settings (t + 5)).latencySmoothingFactor

/-- The client settings, one lock after the other.
Source: `balancer.rs` `get_status`, `"client_settings"` -/
def clientSettings (t : ℕ) : ClientSettings where
  connectTimeoutMs := (r.settings t).connectTimeoutMs
  timeoutSecs := (r.settings (t + 1)).timeoutSecs
  poolIdleTimeoutSecs := (r.settings (t + 2)).poolIdleTimeoutSecs
  poolMaxIdlePerHost := (r.settings (t + 3)).poolMaxIdlePerHost

end Readings

/-- The status: `n` readings for the count, eleven for the settings, `7 * n` for the ranking and
`10 * n` for the details.
Source: `balancer.rs` `get_status` -/
def getStatus (w : World M) (r : Readings) : StatusReport :=
  let endpoints := w.lb.endpoints
  let n := endpoints.length
  { bindAddr := w.lb.bindAddr
    configPath := (r.settings n).configPath
    totalEndpoints := n
    healthyEndpoints := r.healthyCount endpoints
    balancerSettings := r.balancerSettings (n + 1)
    clientSettings := r.clientSettings (n + 7)
    priorityInfo := r.priorityInfo (n + 11) endpoints
    endpointsDetails := r.allDetails (n + 11 + 7 * n) endpoints }

/-! ## What a later reading can say -/

namespace RpcEndpoint

variable {ep : RpcEndpoint} {now later : Instant}

/-- An available endpoint does not enter a cooldown. -/
theorem not_isInCooldown_of_isAvailable (hle : now ≤ later) (h : ep.isAvailable now) :
    ep.isInCooldown later = false := by
  have hlater := isAvailable_of_le hle h
  simp only [isAvailable, Bool.and_eq_true, Bool.not_eq_true'] at hlater
  exact hlater.2

/-- The rest of a cooldown shrinks. -/
theorem cooldownRemainingSecs_le (hle : now ≤ later) :
    ep.cooldownRemainingSecs later ≤ ep.cooldownRemainingSecs now := by
  unfold cooldownRemainingSecs
  split
  · rename_i until_ _
    split
    · rename_i hlt
      rw [if_pos (lt_of_le_of_lt hle hlt)]
      exact Nat.div_le_div_right (Nat.sub_le_sub_left hle until_)
    · exact Nat.zero_le _
  · exact le_rfl

/-- Whole seconds are left during a cooldown only. -/
theorem isInCooldown_of_cooldownRemainingSecs (h : 0 < ep.cooldownRemainingSecs now) :
    ep.isInCooldown now := by
  unfold cooldownRemainingSecs at h
  unfold isInCooldown
  split at h
  · split at h
    · simpa
    · exact absurd h (lt_irrefl 0)
  · exact absurd h (lt_irrefl 0)

end RpcEndpoint

/-! ## One entry -/

/-- What an entry of either list says about its endpoint does not contradict itself. -/
structure FlagsAgree (healthy available inCooldown : Bool) (remaining : ℕ) : Prop where
  usable : available → healthy ∧ inCooldown = false
  cooling : 0 < remaining → inCooldown ∧ available = false

/-- The flags of an entry, read one after the other. -/
theorem Readings.flagsAgree (r : Readings) (ep : RpcEndpoint) (t : ℕ) :
    FlagsAgree ep.healthy (ep.isAvailable (r.now t)) (ep.isInCooldown (r.now (t + 1)))
      (ep.cooldownRemainingSecs (r.now (t + 2))) where
  usable h := by
    refine ⟨?_, RpcEndpoint.not_isInCooldown_of_isAvailable (r.monotonic (Nat.le_succ t)) h⟩
    unfold RpcEndpoint.isAvailable at h
    exact (Bool.and_eq_true _ _ ▸ h).1
  cooling h := by
    have hlast := RpcEndpoint.isInCooldown_of_cooldownRemainingSecs h
    have hcool := RpcEndpoint.isInCooldown_of_le (r.monotonic (Nat.le_succ (t + 1))) hlast
    refine ⟨hcool, ?_⟩
    by_contra havail
    rw [Bool.not_eq_false] at havail
    have hnot := RpcEndpoint.not_isInCooldown_of_isAvailable (r.monotonic (Nat.le_succ t)) havail
    rw [hcool] at hnot
    cases hnot

/-- What an entry of either list says is so of its endpoint at some time between two instants. -/
structure RpcEndpoint.ShownBy (ep : RpcEndpoint) (first last : Instant) (healthy available inCooldown : Bool)
    (remaining : ℕ) : Prop where
  healthy : healthy = ep.healthy
  available : (ep.isAvailable first → available) ∧ (available → ep.isAvailable last)
  inCooldown : (ep.isInCooldown last → inCooldown) ∧ (inCooldown → ep.isInCooldown first)
  remaining : ep.cooldownRemainingSecs last ≤ remaining ∧ remaining ≤ ep.cooldownRemainingSecs first

/-- The readings of an entry lie between those of the call. -/
theorem Readings.shownBy (r : Readings) (ep : RpcEndpoint) {first t last : ℕ} (hfirst : first ≤ t)
    (hlast : t + 2 ≤ last) :
    ep.ShownBy (r.now first) (r.now last) ep.healthy (ep.isAvailable (r.now t))
      (ep.isInCooldown (r.now (t + 1))) (ep.cooldownRemainingSecs (r.now (t + 2))) where
  healthy := rfl
  available := ⟨RpcEndpoint.isAvailable_of_le (r.monotonic hfirst),
    RpcEndpoint.isAvailable_of_le (r.monotonic (by omega))⟩
  inCooldown := ⟨RpcEndpoint.isInCooldown_of_le (r.monotonic (by omega)),
    RpcEndpoint.isInCooldown_of_le (r.monotonic (by omega))⟩
  remaining := ⟨RpcEndpoint.cooldownRemainingSecs_le (r.monotonic hlast),
    RpcEndpoint.cooldownRemainingSecs_le (r.monotonic (by omega))⟩

/-- The entry of an endpoint in the ranking and its later details. -/
structure EntriesAgree (stat : EndpointStat) (detail : EndpointDetails) : Prop where
  weight : stat.weight = detail.weight
  healthy : stat.healthy = detail.healthy
  /-- Available endpoints stay available. -/
  available : stat.available → detail.available
  /-- Cooldowns end, none begins. -/
  inCooldown : detail.inCooldown → stat.inCooldown
  remaining : detail.cooldownRemainingSecs ≤ stat.cooldownRemainingSecs

/-- Details that are read after the entry. -/
theorem Readings.entriesAgree (r : Readings) (ep : RpcEndpoint) {t u : ℕ} (h : t ≤ u) :
    EntriesAgree (r.stat t ep) (r.details u ep) where
  weight := rfl
  healthy := rfl
  available := RpcEndpoint.isAvailable_of_le (r.monotonic h)
  inCooldown := RpcEndpoint.isInCooldown_of_le (r.monotonic (Nat.add_le_add_right h 1))
  remaining := RpcEndpoint.cooldownRemainingSecs_le (r.monotonic (Nat.add_le_add_right h 2))

/-! ## The lists -/

/-- The entries that say an endpoint is available. -/
def PriorityInfo.availableCount (info : PriorityInfo) : ℕ :=
  (info.endpoints.filter fun entry => entry.available).length

/-- The details that say an endpoint is available. -/
def availableDetails (details : List EndpointDetails) : ℕ :=
  (details.filter fun detail => detail.available).length

/-- A predicate that a later reading can only add to counts no more than there. -/
theorem length_filter_mapIdx_le {α β γ : Type} {f : ℕ → α → β} {g : ℕ → α → γ} {p : β → Bool}
    {q : γ → Bool} (l : List α) (h : ∀ i a, i < l.length → p (f i a) → q (g i a)) :
    ((l.mapIdx f).filter p).length ≤ ((l.mapIdx g).filter q).length := by
  simp only [List.mapIdx_eq_zipIdx_map, ← List.countP_eq_length_filter, List.countP_map]
  exact List.countP_mono_left fun x hx => h x.2 x.1 (List.snd_lt_of_mem_zipIdx hx)

/-- The available endpoints, counted as the entries are. -/
theorem countAvailable_eq_mapIdx (readings : ℕ → Instant) (eps : List RpcEndpoint) :
    countAvailable readings eps =
      ((eps.mapIdx fun i ep => ep.isAvailable (readings i)).filter id).length := by
  simp only [countAvailable, List.mapIdx_eq_zipIdx_map, ← List.countP_eq_length_filter, List.countP_map]
  rfl

namespace Readings

variable (r : Readings)

/-- The ranked entries are the entries, in another order. -/
theorem perm_priorityInfo (t : ℕ) (eps : List RpcEndpoint) :
    ((r.priorityInfo t eps).endpoints.map PriorityStat.toEndpointStat).Perm (r.stats t eps) := by
  unfold priorityInfo
  rw [map_rankStats]
  exact List.perm_insertionSort _ _

/-- Ranking does not change how many are available. -/
theorem availableCount_priorityInfo (t : ℕ) (eps : List RpcEndpoint) :
    (r.priorityInfo t eps).availableCount =
      ((r.stats t eps).filter EndpointStat.available).length := by
  have hperm := (r.perm_priorityInfo t eps).filter EndpointStat.available
  rw [← hperm.length_eq, List.filter_map, List.length_map]
  rfl

/-- The entries and the details are about the endpoints of the list, in its order. -/
theorem urls_stats (t : ℕ) (eps : List RpcEndpoint) :
    (r.stats t eps).map EndpointStat.url = eps.map RpcEndpoint.url := by
  apply List.ext_getElem
  · simp [stats]
  · intro i hi hi'
    simp [stats, stat]

/-- The details are in the order of the list. -/
theorem urls_allDetails (t : ℕ) (eps : List RpcEndpoint) :
    (r.allDetails t eps).map EndpointDetails.url = eps.map RpcEndpoint.url := by
  apply List.ext_getElem
  · simp [allDetails]
  · intro i hi hi'
    simp [allDetails, details]

/-- An entry of the ranking is the entry of an endpoint. -/
theorem exists_of_mem_priorityInfo {t : ℕ} {eps : List RpcEndpoint} {entry : PriorityStat}
    (h : entry ∈ (r.priorityInfo t eps).endpoints) :
    ∃ i, ∃ hi : i < eps.length, entry.toEndpointStat = r.stat (t + 7 * i) eps[i] := by
  have hmem := (r.perm_priorityInfo t eps).mem_iff.mp (List.mem_map_of_mem h)
  obtain ⟨i, hi, heq⟩ := List.mem_mapIdx.mp hmem
  exact ⟨i, hi, heq.symm⟩

/-- Details are the details of an endpoint. -/
theorem exists_of_mem_allDetails {t : ℕ} {eps : List RpcEndpoint} {detail : EndpointDetails}
    (h : detail ∈ r.allDetails t eps) :
    ∃ i, ∃ hi : i < eps.length, detail = r.details (t + 10 * i) eps[i] := by
  obtain ⟨i, hi, heq⟩ := List.mem_mapIdx.mp h
  exact ⟨i, hi, heq.symm⟩

end Readings

/-! ## The report as a whole -/

/-- A report goes with the endpoint list, as it is between two instants, and its parts go together. -/
structure StatusReport.Consistent (s : StatusReport) (eps : List RpcEndpoint) (first last : Instant) :
    Prop where
  total : s.totalEndpoints = eps.length
  /-- Both lists are about the endpoints of the list, each of them once; the details keep its order. -/
  urls : (s.priorityInfo.endpoints.map fun entry => entry.url).Perm (eps.map RpcEndpoint.url) ∧
    s.endpointsDetails.map EndpointDetails.url = eps.map RpcEndpoint.url ∧
    (eps.map RpcEndpoint.url).Nodup
  ranks : s.priorityInfo.endpoints.map PriorityStat.priorityRank = List.range' 1 s.totalEndpoints
  /-- The ranking follows the figures it shows. -/
  ranked : s.priorityInfo.endpoints.Pairwise fun a b =>
    compareStats a.toEndpointStat b.toEndpointStat ≠ .gt
  /-- Each count is at least the one taken before it. -/
  available : countAvailable (fun _ => first) eps ≤ s.healthyEndpoints ∧
    s.healthyEndpoints ≤ s.priorityInfo.availableCount ∧
    s.priorityInfo.availableCount ≤ availableDetails s.endpointsDetails ∧
    availableDetails s.endpointsDetails ≤ countAvailable (fun _ => last) eps
  /-- An entry of the ranking shows the record of its URL. -/
  ranking : ∀ entry ∈ s.priorityInfo.endpoints, ∀ ep ∈ eps, entry.url = ep.url →
    entry.weight = ep.weight ∧ ep.ShownBy first last entry.healthy entry.available entry.inCooldown
      entry.cooldownRemainingSecs
  /-- So do the details. -/
  listing : ∀ detail ∈ s.endpointsDetails, ∀ ep ∈ eps, detail.url = ep.url →
    (detail.weight, detail.rateLimitPerSec, detail.burstSize, detail.cooldownAttempts) =
        (ep.weight, ep.rateLimitPerSec, ep.burstSize, ep.cooldownAttempts) ∧
      ep.ShownBy first last detail.healthy detail.available detail.inCooldown
        detail.cooldownRemainingSecs
  entries : ∀ entry ∈ s.priorityInfo.endpoints,
    FlagsAgree entry.healthy entry.available entry.inCooldown entry.cooldownRemainingSecs
  details : ∀ detail ∈ s.endpointsDetails,
    FlagsAgree detail.healthy detail.available detail.inCooldown detail.cooldownRemainingSecs
  agree : ∀ entry ∈ s.priorityInfo.endpoints, ∀ detail ∈ s.endpointsDetails,
    entry.url = detail.url → EntriesAgree entry.toEndpointStat detail

/-- The last reading a call can make. -/
def lastReading (n : ℕ) : ℕ := n + 11 + 17 * n

/-- A report over distinct URLs is consistent. -/
theorem consistent_getStatus {w : World M} (r : Readings)
    (hnodup : (w.lb.endpoints.map RpcEndpoint.url).Nodup) :
    (getStatus w r).Consistent w.lb.endpoints (r.now 0)
      (r.now (lastReading w.lb.endpoints.length)) where
  total := rfl
  urls := by
    have hperm := ((r.perm_priorityInfo (w.lb.endpoints.length + 11) w.lb.endpoints).map
      EndpointStat.url)
    rw [List.map_map, r.urls_stats] at hperm
    exact ⟨hperm, r.urls_allDetails _ _, hnodup⟩
  ranks := by
    apply List.ext_getElem
    · simp [getStatus, Readings.priorityInfo, rankStats, Readings.stats]
    · intro i hi hi'
      simp [getStatus, Readings.priorityInfo, rankStats]
      omega
  ranked := by
    have hsorted : ((r.priorityInfo (w.lb.endpoints.length + 11) w.lb.endpoints).endpoints.map
        PriorityStat.toEndpointStat).Pairwise fun a b => compareStats a b ≠ .gt := by
      unfold Readings.priorityInfo
      simp only [compareStats_ne_gt, map_rankStats]
      exact pairwise_insertionSort _ _
    exact List.pairwise_map.mp hsorted
  available := by
    refine ⟨?_, ?_, ?_, ?_⟩
    · exact countAvailable_mono fun i _ => r.monotonic (Nat.zero_le i)
    · show r.healthyCount _ ≤ (r.priorityInfo _ _).availableCount
      unfold Readings.healthyCount
      rw [countAvailable_eq_mapIdx, r.availableCount_priorityInfo]
      refine length_filter_mapIdx_le _ fun i ep _ h => ?_
      exact RpcEndpoint.isAvailable_of_le (r.monotonic (by omega)) h
    · show (r.priorityInfo _ _).availableCount ≤ availableDetails (r.allDetails _ _)
      rw [r.availableCount_priorityInfo]
      refine length_filter_mapIdx_le _ fun i ep _ h => ?_
      exact RpcEndpoint.isAvailable_of_le (r.monotonic (by omega)) h
    · show availableDetails (r.allDetails _ _) ≤ _
      rw [countAvailable_eq_mapIdx]
      refine length_filter_mapIdx_le _ fun i ep hi h => ?_
      exact RpcEndpoint.isAvailable_of_le (r.monotonic (by unfold lastReading; omega)) h
  ranking entry hentry ep hep hurl := by
    obtain ⟨i, hi, hstat⟩ := r.exists_of_mem_priorityInfo hentry
    have hurls : w.lb.endpoints[i].url = ep.url := (congrArg EndpointStat.url hstat).symm.trans hurl
    have heq := List.inj_on_of_nodup_map hnodup (List.getElem_mem hi) hep hurls
    rw [hstat, heq]
    exact ⟨rfl, r.shownBy ep (Nat.zero_le _) (by unfold lastReading; omega)⟩
  listing detail hdetail ep hep hurl := by
    obtain ⟨i, hi, rfl⟩ := r.exists_of_mem_allDetails hdetail
    have heq := List.inj_on_of_nodup_map hnodup (List.getElem_mem hi) hep hurl
    rw [heq]
    exact ⟨rfl, r.shownBy ep (Nat.zero_le _) (by unfold lastReading; omega)⟩
  entries entry hentry := by
    obtain ⟨i, hi, hstat⟩ := r.exists_of_mem_priorityInfo hentry
    rw [hstat]
    exact r.flagsAgree _ _
  details detail hdetail := by
    obtain ⟨i, hi, rfl⟩ := r.exists_of_mem_allDetails hdetail
    exact r.flagsAgree _ _
  agree entry hentry detail hdetail hurl := by
    obtain ⟨i, hi, hstat⟩ := r.exists_of_mem_priorityInfo hentry
    obtain ⟨j, hj, rfl⟩ := r.exists_of_mem_allDetails hdetail
    rw [hstat]
    have hurls : w.lb.endpoints[i].url = w.lb.endpoints[j].url :=
      (congrArg EndpointStat.url hstat).symm.trans hurl
    -- distinct URLs: the entry and the details are about one record
    rw [← List.inj_on_of_nodup_map hnodup (List.getElem_mem hi) (List.getElem_mem hj) hurls]
    exact r.entriesAgree _ (by omega)

/-- Nothing moves while the call reads. -/
structure Readings.Standing (r : Readings) (clock : Clock) (metrics : RefHeap EndpointMetrics) :
    Prop where
  now : ∀ t, r.now t = clock.now
  unixSecs : ∀ t, r.unixSecs t = clock.unixSecs
  metrics : ∀ t, r.metrics t = metrics

namespace Readings.Standing

variable {w : World M} {r : Readings} {clock : Clock} (h : r.Standing clock w.metrics)
include h

/-- All readings find the metrics of the world. -/
theorem metricsOf (t : ℕ) (ep : RpcEndpoint) : r.metricsOf t ep = w.metricsOf ep := by
  unfold Readings.metricsOf World.metricsOf
  rw [h.metrics]

/-- Both loads of a cost are about one state. -/
theorem totalCost (t : ℕ) (ep : RpcEndpoint) : r.totalCost t ep = (w.metricsOf ep).getTotalCost := by
  unfold Readings.totalCost
  rw [h.metricsOf, h.metricsOf]

/-- The entry is the one of a single moment. -/
theorem stat (t : ℕ) (ep : RpcEndpoint) : r.stat t ep = endpointStat w clock ep := by
  simp only [Readings.stat, endpointStat, h.now, h.unixSecs, h.metricsOf, h.totalCost]

/-- So are the entries. -/
theorem stats (t : ℕ) : r.stats t w.lb.endpoints = w.lb.endpoints.map (endpointStat w clock) := by
  apply List.ext_getElem
  · simp [Readings.stats]
  · intro i hi hi'
    simp [Readings.stats, h.stat]

/-- The ranking is the one of a single moment. -/
theorem priorityInfo (t : ℕ) :
    r.priorityInfo t w.lb.endpoints = getEndpointPriorityStats w clock := by
  unfold Readings.priorityInfo getEndpointPriorityStats
  rw [h.stats]

/-- The first pass counts what the gauge of available endpoints shows. -/
theorem healthyCount : r.healthyCount w.lb.endpoints =
    (w.lb.endpoints.filter fun ep => ep.isAvailable clock.now).length := by
  have hmap : (w.lb.endpoints.mapIdx fun i ep => ep.isAvailable (r.now i)) =
      w.lb.endpoints.map fun ep => ep.isAvailable clock.now := by
    apply List.ext_getElem
    · simp
    · intro i hi hi'
      simp [h.now]
  unfold Readings.healthyCount
  rw [countAvailable_eq_mapIdx, hmap, List.filter_map, List.length_map]
  rfl

/-- The second pass counts as many. -/
theorem availableCount (t : ℕ) : (r.priorityInfo t w.lb.endpoints).availableCount =
    (w.lb.endpoints.filter fun ep => ep.isAvailable clock.now).length := by
  rw [r.availableCount_priorityInfo, h.stats, List.filter_map, List.length_map]
  rfl

/-- The third pass counts as many. -/
theorem availableDetails (t : ℕ) : AzothBalancer.availableDetails (r.allDetails t w.lb.endpoints) =
    (w.lb.endpoints.filter fun ep => ep.isAvailable clock.now).length := by
  rw [← h.healthyCount]
  unfold AzothBalancer.availableDetails Readings.allDetails Readings.healthyCount
  rw [countAvailable_eq_mapIdx]
  apply le_antisymm
  · refine length_filter_mapIdx_le _ fun i ep _ hep => ?_
    simpa [Readings.details, h.now] using hep
  · refine length_filter_mapIdx_le _ fun i ep _ hep => ?_
    simpa [Readings.details, h.now] using hep

end Readings.Standing

/-- What the gauge of available endpoints shows, against the count of a status.
Source: `balancer.rs` `get_status`, `available_endpoints` -/
theorem World.GaugeShows.healthyCount {w : World M} {age : CountAge} {shown : ℕ} (h : w.GaugeShows age shown)
    (r : Readings) :
    (age.countedAt ≤ r.now 0 → shown ≤ r.healthyCount w.lb.endpoints + age.events) ∧
    (age.events = 0 → (∀ i < w.lb.endpoints.length, r.now i ≤ age.countedAt) →
      r.healthyCount w.lb.endpoints ≤ shown) := by
  refine ⟨fun hlater => ?_, fun hnone hearlier => ?_⟩
  · refine (h.le _ hlater).trans (Nat.add_le_add_right ?_ _)
    exact countAvailable_mono fun i _ => r.monotonic (Nat.zero_le i)
  · rw [h.exact hnone]
    exact countAvailable_mono hearlier

/-- **The status is consistent**, although it goes over the endpoints three times while the clock
runs and the metrics change. In every state of every sequential run in which no addition to the clock
overflows, whatever a call of `get_status` finds at its readings:

* both lists have one entry for each endpoint of the list and show its record, as it is between the first
  reading and the last; the ranks are `1, 2, …` and follow the figures that stand beside them, no entry
  contradicts itself, and what the details say of an endpoint is what the ranking says or came after it;
  the three counts of available endpoints can only grow;
* the shown attempts are, up to saturation, the 429s since the endpoint was created or last recovered,
  plus one while it is down, and an endpoint without attempts is in no cooldown;
* the gauge of available endpoints, if it was set before the call, exceeds the count of the status by one
  for each event since at most (a 429, an endpoint marked unhealthy, an applied probe), and where nothing has
  happened since and no time has passed the two are equal;
* if nothing moves while the call reads, the ranking is the one of that moment and the three counts are
  equal.

Source: `balancer.rs` `get_status`, `get_endpoint_priority_stats`, `update_healthy_count` -/
theorem status_consistent {P : Platform} {cmds : List Command} {w : World M} {counts : String → ℕ}
    (h : HealthRun P cmds w counts) (r : Readings) :
    let s := getStatus w r
    s.Consistent w.lb.endpoints (r.now 0) (r.now (lastReading w.lb.endpoints.length)) ∧
      (∀ detail ∈ s.endpointsDetails,
        detail.cooldownAttempts =
            min u32Max (counts detail.url + if detail.healthy then 0 else 1) ∧
          (detail.cooldownAttempts = 0 →
            detail.inCooldown = false ∧ detail.cooldownRemainingSecs = 0)) ∧
      (∃ shown : ℕ, w.prom.series .healthyEndpoints [] = some (shown : ℤ) ∧
        let age := countAge P w.lb.configPath cmds
        (age.countedAt ≤ r.now 0 → shown ≤ s.healthyEndpoints + age.events) ∧
          (age.events = 0 → (∀ i < s.totalEndpoints, r.now i ≤ age.countedAt) →
            s.healthyEndpoints ≤ shown)) ∧
      ∀ clock, r.Standing clock w.metrics →
        s.priorityInfo = getEndpointPriorityStats w clock ∧
        s.healthyEndpoints = s.priorityInfo.availableCount ∧
        s.healthyEndpoints = availableDetails s.endpointsDetails := by
  intro s
  refine ⟨consistent_getStatus r h.invariant.1.nodup, ?_, ?_, ?_⟩
  · intro detail hdetail
    obtain ⟨i, hi, rfl⟩ := r.exists_of_mem_allDetails hdetail
    obtain ⟨hcool, -, hattempts, -⟩ := health_invariant h _ (List.getElem_mem hi)
    refine ⟨hattempts, fun hzero => ?_⟩
    have hnone := hcool.mp hzero
    simp [Readings.details, RpcEndpoint.isInCooldown, RpcEndpoint.cooldownRemainingSecs, hnone]
  · obtain ⟨shown, hshown⟩ := h.gaugeShows
    exact ⟨shown, hshown.series, hshown.healthyCount r⟩
  · intro clock hstand
    have hcount : s.healthyEndpoints = _ := hstand.healthyCount
    refine ⟨hstand.priorityInfo _, ?_, ?_⟩
    · rw [hcount]
      exact (hstand.availableCount _).symm
    · rw [hcount]
      exact (hstand.availableDetails _).symm

/-- The sample world after a 429 for its endpoint. -/
def limitedWorld : World leakyBucket := (sampleWorld.exec (.markRateLimited "http://a" 5)).1

/-- A call whose first reading falls into the last nanosecond of the cooldown. -/
def sampleReadings : Readings where
  now t := 6000000004 + t
  unixSecs _ := 1000
  metrics _ := limitedWorld.metrics
  settings _ := limitedWorld.lb
  monotonic _ _ h := Nat.add_le_add_left h _

/-- `status_consistent` for the sample call, at which the gauge is a 429 older than the report. -/
theorem status_consistent_sample :
    (getStatus limitedWorld sampleReadings).Consistent limitedWorld.lb.endpoints 6000000004 6000000033 ∧
      ∃ shown : ℕ, limitedWorld.prom.series .healthyEndpoints [] = some (shown : ℤ) ∧
        shown ≤ (getStatus limitedWorld sampleReadings).healthyEndpoints + 1 := by
  have hrun := (HealthRun.start new_sampleWorld).step
    (.operation (.markRateLimited "http://a" 5)) (Prod.ext rfl (by decide))
  obtain ⟨hconsistent, -, ⟨shown, hseries, hle, -⟩, -⟩ := status_consistent hrun sampleReadings
  exact ⟨hconsistent, shown, hseries, hle (Nat.zero_le _)⟩

-- the cooldown ends between the first pass and the second, and the gauge has not seen it begin
example : (getStatus limitedWorld sampleReadings).healthyEndpoints = 0 ∧
    (getStatus limitedWorld sampleReadings).priorityInfo.availableCount = 1 ∧
    limitedWorld.prom.series .healthyEndpoints [] = some 1 := by decide +kernel

end AzothBalancer
