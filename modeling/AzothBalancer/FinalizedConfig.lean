import AzothBalancer.StoreInvariant

/-!
# What finalization makes of a configuration

`Config.finalize` answers `Ok` exactly if the endpoint filter keeps something, and the values it
answers with are functions of the raw `[balancer]` table and of what the filter kept
(`BalancerConfig.settings`, `BalancerConfig.permits`; `finalizesTo_iff`).

Every endpoint that passes the filter has its rate and its burst within the configured limits
(`EndpointConfig.InRange`), so its limiter can be created, and startup fails on nothing but the number
of permits (`new_isSome_iff`).
-/

namespace AzothBalancer

variable {M : Meter} {lower : List Char → List Char} {raw : Config} {c : Settings}

/-! ## The values -/

/-- The settings finalization makes of a `[balancer]` table and the endpoints that passed the filter.
Source: `config.rs` `Config::finalize` -/
def BalancerConfig.settings (b : BalancerConfig) (endpoints : List EndpointConfig) : Settings where
  maxBatchSize := max (b.maxBatchSize.getD defaultMaxBatchSize) 1
  baseCooldownSecs := b.baseCooldownSecs.getD defaultBaseCooldownSecs
  maxCooldownSecs := b.maxCooldownSecs.getD defaultMaxCooldownSecs
  healthCheckIntervalSecs := b.healthCheckIntervalSecs.getD defaultHealthCheckIntervalSecs
  healthCheckTimeoutSecs := b.healthCheckTimeoutSecs.getD defaultHealthCheckTimeoutSecs
  latencySmoothingFactor :=
    (b.latencySmoothingFactor.getD defaultLatencySmoothingFactor).clamp (.finite 0) (.finite 1)
  connectTimeoutMs := b.connectTimeoutMs.getD defaultConnectTimeoutMs
  timeoutSecs := b.timeoutSecs.getD defaultTimeoutSecs
  poolIdleTimeoutSecs := b.poolIdleTimeoutSecs.getD defaultPoolIdleTimeoutSecs
  poolMaxIdlePerHost := b.poolMaxIdlePerHost.getD defaultPoolMaxIdlePerHost
  endpoints := endpoints.map constrainEndpoint

/-- The number of permits finalization makes of a `[balancer]` table.
Source: `config.rs` `Config::finalize` -/
def BalancerConfig.permits (b : BalancerConfig) : ℕ :=
  max (b.maxConcurrency.getD defaultMaxConcurrency) 1

/-- The `[balancer]` table of a configuration; a missing one is empty. -/
def Config.table (raw : Config) : BalancerConfig := raw.balancer.getD {}

/-- Finalization succeeds with these settings. -/
def Config.FinalizesTo (lower : List Char → List Char) (raw : Config) (c : Settings) : Prop :=
  ∃ finalized b, raw.finalize lower = .ok finalized ∧ finalized.balancer = some b ∧
    b.destructure = some c

/-- A configuration finalizes to one group of settings. -/
theorem Config.FinalizesTo.unique {lower : List Char → List Char} {raw : Config} {c c' : Settings}
    (h : raw.FinalizesTo lower c) (h' : raw.FinalizesTo lower c') : c = c' := by
  obtain ⟨finalized, b, hfin, hb, hc⟩ := h
  obtain ⟨finalized', b', hfin', hb', hc'⟩ := h'
  rw [hfin] at hfin'
  cases hfin'
  rw [hb] at hb'
  cases hb'
  exact Option.some.inj (hc.symm.trans hc')

/-- What startup makes of the settings of an accepted configuration.
Source: `balancer.rs` `LoadBalancer::new` -/
theorem Config.FinalizesTo.started {lower : List Char → List Char} {raw : Config} {c : Settings}
    (h : raw.FinalizesTo lower c) {path : String} {now : Instant} {w : World M}
    (hnew : LoadBalancer.new M lower (some raw) path now = some w) : Started c now w := by
  obtain ⟨finalized, b, c', hfin, hb, hc, hstart⟩ := started_of_new hnew
  obtain rfl : c' = c := Config.FinalizesTo.unique ⟨finalized, b, hfin, hb, hc⟩ h
  exact hstart

/-- A default is applied where the option is missing. -/
theorem or_some_eq {α : Type} (o : Option α) (a : α) : o.or (some a) = some (o.getD a) := by
  cases o <;> rfl

/-- The table with its defaults, taken apart.
Source: `config.rs` `Config::finalize` -/
theorem destructure_withDefaults_eq (b : BalancerConfig) (es : List EndpointConfig) :
    (b.withDefaults es).destructure = some (b.settings es) := by
  simp only [BalancerConfig.destructure, BalancerConfig.withDefaults, or_some_eq,
    Option.bind_eq_bind, Option.bind_some]
  rfl

/-- Finalization, once the filter has kept some endpoints.
Source: `config.rs` `Config::finalize` -/
theorem finalize_eq {es : List EndpointConfig}
    (h : validateAndDedupeEndpoints lower (raw.table.endpoints.getD getDefaultEndpoints) = .ok es) :
    raw.finalize lower = .ok
      { server := some (raw.server.getD {}).withDefaults
        balancer := some (raw.table.withDefaults es) } := by
  unfold Config.finalize
  rw [Outcome.bind_eq_ok_iff]
  exact ⟨es, h, rfl⟩

/-- **What finalization answers.**
Source: `config.rs` `Config::finalize` -/
theorem finalizesTo_iff : raw.FinalizesTo lower c ↔
    ∃ es, validateAndDedupeEndpoints lower (raw.table.endpoints.getD getDefaultEndpoints) = .ok es ∧
      c = raw.table.settings es := by
  constructor
  · rintro ⟨finalized, b, hfin, hb, hc⟩
    unfold Config.finalize at hfin
    rw [Outcome.bind_eq_ok_iff] at hfin
    obtain ⟨es, hes, hfin⟩ := hfin
    cases hfin
    cases hb
    rw [destructure_withDefaults_eq] at hc
    exact ⟨es, hes, (Option.some.inj hc).symm⟩
  · rintro ⟨es, hes, rfl⟩
    exact ⟨_, _, finalize_eq hes, rfl, destructure_withDefaults_eq raw.table es⟩

/-- Settings of a finalization are valid. -/
theorem Config.FinalizesTo.valid (h : raw.FinalizesTo lower c) : c.Valid := by
  obtain ⟨finalized, b, hfin, hb, hc⟩ := h
  obtain ⟨b', -, c', -, -, hb', -, hc', hvalid, -⟩ := valid_of_finalize hfin
  rw [hb, Option.some.injEq] at hb'
  subst hb'
  rw [hc, Option.some.injEq] at hc'
  exact hc' ▸ hvalid

/-! ## Endpoints within the limits -/

/-- The rate and the burst are within the limits of the filter. -/
structure EndpointConfig.InRange (e : EndpointConfig) : Prop where
  rate : e.rateLimitPerSec ≤ maxRateLimit
  burst : e.burstSize ≤ maxBurstSize

/-- An entry that passes the tests is within the limits.
Source: `config.rs` `validate_and_dedupe_endpoints`, the early returns -/
theorem inRange_of_validateEndpoint {e kept : EndpointConfig}
    (h : validateEndpoint lower e = .ok (some kept)) : kept.InRange := by
  unfold validateEndpoint at h
  dsimp only at h
  split at h
  · rename_i hpass
    rw [Outcome.bind_eq_ok_iff] at h
    obtain ⟨canonical, -, hk⟩ := h
    cases hk
    simp only [passesChecks, Bool.and_eq_true, Bool.not_eq_true', Bool.or_eq_false_iff,
      decide_eq_false_iff_not, not_lt] at hpass
    obtain ⟨⟨-, -, hrate⟩, -, hburst⟩ := hpass
    exact ⟨hrate, hburst⟩
  · cases h

/-- What the filter keeps is within the limits.
Source: `config.rs` `validate_and_dedupe_endpoints` -/
theorem inRange_of_filterEndpoints : ∀ (es : List EndpointConfig) (seen : List String)
    {kept : List EndpointConfig}, filterEndpoints lower seen es = .ok kept → ∀ e ∈ kept, e.InRange
  | [], _, _, h => by
      cases h
      simp
  | e :: es, seen, kept, h => by
      rw [filterEndpoints, Outcome.bind_eq_ok_iff] at h
      obtain ⟨v, hv, h⟩ := h
      cases v with
      | none => exact inRange_of_filterEndpoints es seen h
      | some e' =>
          simp only at h
          split at h
          · exact inRange_of_filterEndpoints es seen h
          · rw [Outcome.bind_eq_ok_iff] at h
            obtain ⟨rest, hrest, hk⟩ := h
            cases hk
            exact List.forall_mem_cons.mpr ⟨inRange_of_validateEndpoint hv,
              inRange_of_filterEndpoints es (e'.url :: seen) hrest⟩

/-- Every endpoint of a finalized configuration is within the limits.
Source: `config.rs` `Config::finalize` -/
theorem Config.FinalizesTo.inRange (h : raw.FinalizesTo lower c) : ∀ e ∈ c.endpoints, e.InRange := by
  obtain ⟨es, hes, rfl⟩ := finalizesTo_iff.mp h
  unfold validateAndDedupeEndpoints at hes
  rw [Outcome.bind_eq_ok_iff] at hes
  obtain ⟨validated, hv, hes⟩ := hes
  split at hes
  · cases hes
  · cases hes
    intro e he
    obtain ⟨e', he', rfl⟩ := List.mem_map.mp he
    have hrange := inRange_of_filterEndpoints _ _ hv e' he'
    constructor
    · exact max_le hrange.rate (by decide)
    · exact max_le hrange.burst (by decide)

/-! ## Startup -/

/-- Records can be made of valid entries.
Source: `balancer.rs` `LoadBalancer::new` -/
theorem exists_newEndpoints (timeoutSecs : ℕ) (now : Instant) :
    ∀ (es : List EndpointConfig) (heap : RefHeap EndpointMetrics), (∀ e ∈ es, e.Valid) →
      ∃ eps heap', newEndpoints timeoutSecs now es heap = some (eps, heap')
  | [], heap, _ => ⟨[], heap, rfl⟩
  | e :: es, heap, h => by
      obtain ⟨hvalid, hrest⟩ := List.forall_mem_cons.mp h
      obtain ⟨weight, hw⟩ := Option.isSome_iff_exists.mp hvalid.weight
      obtain ⟨eps, heap', heq⟩ :=
        exists_newEndpoints timeoutSecs now es (heap.alloc (.initial timeoutSecs)).1 hrest
      refine ⟨.initial e.url e.rateLimitPerSec e.burstSize weight now
        (heap.alloc (.initial timeoutSecs)).2 :: eps, heap', ?_⟩
      rw [newEndpoints]
      simp [hw, heq]

/-- Limiters can be made for records with a burst and a rate.
Source: `balancer.rs` `LoadBalancer::new` -/
theorem exists_newLimiters : ∀ (eps : List RpcEndpoint) (map : String → Option LimiterRef)
    (heap : RefHeap (RateLimiter M)), (∀ ep ∈ eps, 0 < ep.burstSize ∧ 0 < ep.rateLimitPerSec) →
      ∃ map' heap', newLimiters M eps map heap = some (map', heap')
  | [], map, heap, _ => ⟨map, heap, rfl⟩
  | ep :: eps, map, heap, h => by
      obtain ⟨⟨hb, hr⟩, hrest⟩ := List.forall_mem_cons.mp h
      obtain ⟨l, hl⟩ := createRateLimiter_isSome (M := M) hb hr
      obtain ⟨map', heap', heq⟩ := exists_newLimiters eps
        (Function.update map ep.url (some (heap.alloc l).2)) (heap.alloc l).1 hrest
      refine ⟨map', heap', ?_⟩
      rw [newLimiters]
      simp [hl, heq]

/-- **Startup fails on nothing but the number of permits.**
Source: `balancer.rs` `LoadBalancer::new` -/
theorem new_isSome_iff (h : raw.FinalizesTo lower c) (path : String) (now : Instant) :
    (LoadBalancer.new M lower (some raw) path now).isSome ↔
      raw.table.permits ≤ semaphoreMaxPermits := by
  have hvalid := h.valid
  obtain ⟨es, hes, hc⟩ := finalizesTo_iff.mp h
  have hfin := finalize_eq hes
  obtain ⟨eps, metrics, heps⟩ := exists_newEndpoints c.timeoutSecs now c.endpoints .empty
    hvalid.endpoint
  obtain ⟨-, hrec⟩ := newEndpoints_spec c.timeoutSecs now c.endpoints heps
  obtain ⟨map, limiters, hlim⟩ := exists_newLimiters (M := M) eps (fun _ => none) .empty (by
    intro ep hep
    obtain ⟨e, he, weight, r, -, -, rfl⟩ := KeyedList.exists_left_of_forall₂ hrec hep
    exact ⟨(hvalid.endpoint e he).burst, (hvalid.endpoint e he).rate⟩)
  have hdes : (raw.table.withDefaults es).destructure = some c := by
    rw [destructure_withDefaults_eq, hc]
  have haddr : ((raw.server.getD {}).withDefaults).bindAddr =
      some ((raw.server.getD {}).bindAddr.getD defaultBindAddr) := or_some_eq _ _
  have hperm : (raw.table.withDefaults es).maxConcurrency = some raw.table.permits := rfl
  unfold LoadBalancer.new
  simp only [Option.getD_some, hfin, hdes, haddr, hperm, heps, hlim, Option.bind_eq_bind,
    Option.bind_some]
  by_cases hle : raw.table.permits ≤ semaphoreMaxPermits
  · simp [guard, hle]
  · simp [guard, hle]

end AzothBalancer
