import AzothBalancer.System

/-!
# A reload against a restart

What a reload run alone leaves, compared with what `LoadBalancer.new` makes of the same file.

* `LoadBalancer.settings` reads a load balancer back as the settings it runs under. After a reload to
  `c`, and after a startup from `c`, the answer is `c` (`settings_published`, `Started.settings`);
  that is the agreement of the two construction paths.
* `KeptState` and `FreshState` are what happens to the live state: an endpoint that was there keeps
  it, an endpoint that was not gets what a startup gives.
* `ReportedChanges` says that the reported lists are the differences of the two endpoint lists.
* `reload_refines_restart` puts these together, for every reachable world.
-/

namespace AzothBalancer

variable {M : Meter}

/-! ## Settings read back -/

/-- The configuration entry an endpoint record carries. -/
def RpcEndpoint.toConfig (ep : RpcEndpoint) : EndpointConfig :=
  ⟨ep.url, ep.rateLimitPerSec, ep.burstSize, some ep.weight⟩

/-- The settings a load balancer runs under: the six settings of the balancer, the four of the client
and the endpoints' configuration in order. -/
def LoadBalancer.settings (lb : LoadBalancer) : Settings where
  maxBatchSize := lb.maxBatchSize
  baseCooldownSecs := lb.baseCooldownSecs
  maxCooldownSecs := lb.maxCooldownSecs
  healthCheckIntervalSecs := lb.healthCheckIntervalSecs
  healthCheckTimeoutSecs := lb.healthCheckTimeoutSecs
  latencySmoothingFactor := lb.latencySmoothingFactor
  connectTimeoutMs := lb.connectTimeoutMs
  timeoutSecs := lb.timeoutSecs
  poolIdleTimeoutSecs := lb.poolIdleTimeoutSecs
  poolMaxIdlePerHost := lb.poolMaxIdlePerHost
  endpoints := lb.endpoints.map RpcEndpoint.toConfig

/-- An entry is read back from a record that has its URL and values. -/
theorem toConfig_eq {ep : RpcEndpoint} {e : EndpointConfig} (hurl : ep.url = e.url)
    (hrate : ep.rateLimitPerSec = e.rateLimitPerSec) (hburst : ep.burstSize = e.burstSize)
    (hweight : e.weight = some ep.weight) : ep.toConfig = e := by
  unfold RpcEndpoint.toConfig
  rw [hurl, hrate, hburst, ← hweight]

/-- Settings are read back after they have been published with client settings and endpoints. -/
theorem settings_published {lb : LoadBalancer} {c : Settings} {eps : List RpcEndpoint}
    {map : String → Option LimiterRef} (hclient : lb.clientSettings = c.client)
    (heps : eps.map RpcEndpoint.toConfig = c.endpoints) :
    (lb.published c eps map).settings = c := by
  simp only [LoadBalancer.clientSettings, Settings.client, ClientSettings.mk.injEq] at hclient
  obtain ⟨h1, h2, h3, h4⟩ := hclient
  unfold LoadBalancer.settings LoadBalancer.published
  simp only [h1, h2, h3, h4, heps]

/-- After a startup from `c`, the settings are `c`.
Source: `balancer.rs` `LoadBalancer::new` -/
theorem Started.settings {c : Settings} {now : Instant} {w : World M} (h : Started c now w) :
    w.lb.settings = c := by
  rw [h.published]
  refine settings_published h.clientSettings ?_
  refine (KeyedList.map_eq_of_forall₂ (f := id) ?_ h.records).symm.trans (List.map_id _)
  rintro e ep ⟨weight, r, hw, -, rfl⟩
  exact (toConfig_eq rfl rfl rfl hw).symm

/-! ## Live state -/

/-- The live state of `ep` is that of `old`: dynamic fields and metrics object are kept, and so is the
limiter, if and only if rate and burst are. -/
structure KeptState (w w' : World M) (old ep : RpcEndpoint) : Prop where
  healthy : ep.healthy = old.healthy
  lastCheck : ep.lastCheck = old.lastCheck
  cooldownUntil : ep.cooldownUntil = old.cooldownUntil
  cooldownAttempts : ep.cooldownAttempts = old.cooldownAttempts
  metrics : ep.metrics = old.metrics
  metricsObject : w'.metrics.get? ep.metrics = w.metrics.get? old.metrics
  limiter : w'.lb.rateLimiters ep.url = w.lb.rateLimiters old.url ↔
    ep.rateLimitPerSec = old.rateLimitPerSec ∧ ep.burstSize = old.burstSize
  limiterObject : w'.lb.rateLimiters ep.url = w.lb.rateLimiters old.url →
    w'.limiter? ep.url = w.limiter? old.url

/-- `ep` is new in `w'` and in the state a startup gives: healthy, never cooled down, with a new
metrics object, whose latency starts at the timeout, and a new limiter. -/
structure FreshState (w w' : World M) (timeoutSecs : ℕ) (now : Instant) (ep : RpcEndpoint) :
    Prop where
  record : ep = .initial ep.url ep.rateLimitPerSec ep.burstSize ep.weight now ep.metrics
  newMetrics : ¬ w.metrics.Valid ep.metrics
  metricsObject : w'.metrics.get? ep.metrics = some (.initial timeoutSecs)
  newLimiter : ∃ r, w'.lb.rateLimiters ep.url = some r ∧ ¬ w.limiters.Valid r
  limiterObject : w'.limiter? ep.url = createRateLimiter M ep.burstSize ep.rateLimitPerSec

/-- Every endpoint of a startup is in the fresh state, against the empty world.
Source: `balancer.rs` `LoadBalancer::new` -/
theorem Started.freshState {c : Settings} {now : Instant} {w : World M} (h : Started c now w)
    {ep : RpcEndpoint} (hep : ep ∈ w.lb.endpoints) :
    ep = .initial ep.url ep.rateLimitPerSec ep.burstSize ep.weight now ep.metrics ∧
      w.metrics.get? ep.metrics = some (.initial c.timeoutSecs) ∧
      w.limiter? ep.url = createRateLimiter M ep.burstSize ep.rateLimitPerSec := by
  obtain ⟨r, l, hr, hl, hcreate⟩ := h.limiters ep hep
  obtain ⟨e, -, weight, m, -, hm, rfl⟩ := KeyedList.exists_left_of_forall₂ h.records hep
  refine ⟨rfl, hm, ?_⟩
  unfold World.limiter?
  rw [hr, hcreate]
  exact hl

/-- The changes reported for the way from the endpoints `old` to the endpoints `new`: without
repetition, the URLs that are new, gone, and in both with another rate, burst or weight. -/
structure ReportedChanges (changes : ConfigChanges) (old new : List RpcEndpoint) : Prop where
  addedNodup : changes.endpointsAdded.Nodup
  removedNodup : changes.endpointsRemoved.Nodup
  modifiedNodup : changes.endpointsModified.Nodup
  added : ∀ u, u ∈ changes.endpointsAdded ↔
    u ∈ new.map RpcEndpoint.url ∧ u ∉ old.map RpcEndpoint.url
  removed : ∀ u, u ∈ changes.endpointsRemoved ↔
    u ∈ old.map RpcEndpoint.url ∧ u ∉ new.map RpcEndpoint.url
  modified : ∀ u, u ∈ changes.endpointsModified ↔ ∃ ep₀ ∈ old, ∃ ep ∈ new, ep₀.url = u ∧
    ep.url = u ∧ ¬ (ep₀.rateLimitPerSec = ep.rateLimitPerSec ∧ ep₀.burstSize = ep.burstSize ∧
      ep₀.weight = ep.weight)

/-- What a reload to the settings `c` does to a world. -/
structure ReloadEffect (w w' : World M) (c : Settings) (now : Instant) (resp : ReloadResponse) :
    Prop where
  settings : w'.lb.settings = c
  kept : ∀ old ∈ w.lb.endpoints, ∀ ep ∈ w'.lb.endpoints, ep.url = old.url → KeptState w w' old ep
  fresh : ∀ ep ∈ w'.lb.endpoints, ep.url ∉ w.lb.endpoints.map RpcEndpoint.url →
    FreshState w w' c.timeoutSecs now ep
  changes : ReportedChanges resp.changes w.lb.endpoints w'.lb.endpoints
  bindAddr : w'.lb.bindAddr = w.lb.bindAddr
  configPath : w'.lb.configPath = w.lb.configPath
  concurrencyLimiter : w'.lb.concurrencyLimiter = w.lb.concurrencyLimiter

section merge

variable {c : Settings} {w : World M} {start s : MergeState M} {eps : List RpcEndpoint}
  {lb : LoadBalancer} {now : Instant} {prom : Registry}

/-- The client sections leave the fields a reload does not write. -/
theorem withClient_untouched (lb : LoadBalancer) (c : ClientSettings) :
    (lb.withClient c).bindAddr = lb.bindAddr ∧ (lb.withClient c).configPath = lb.configPath ∧
      (lb.withClient c).concurrencyLimiter = lb.concurrencyLimiter := by
  unfold LoadBalancer.withClient
  split <;> exact ⟨rfl, rfl, rfl⟩

/-- The merged records carry the entries. -/
theorem MergeStep.toConfig (h : MergeStep lb now c.endpoints start s eps) :
    eps.map RpcEndpoint.toConfig = c.endpoints := by
  refine (KeyedList.map_eq_of_forall₂ (f := id) ?_ h.records).symm.trans (List.map_id _)
  intro e ep hrec
  obtain ⟨hurl, hrate, hburst, hweight⟩ := hrec.config
  exact (toConfig_eq hurl hrate hburst hweight).symm

/-- **An endpoint that was there keeps its live state.** The merged record of its URL comes from a
known endpoint, and the limiter is carried over exactly if rate and burst stay: a new limiter is a
new object.
Source: `config_reloader.rs` `reload`, "Preserve state of existing endpoint" -/
theorem keptState_afterMerge (hw : w.WellFormed) (heps : lb.endpoints = w.lb.endpoints)
    (hmap : lb.rateLimiters = w.lb.rateLimiters) (hmet : start.metrics = w.metrics)
    (hlim : start.limiters = w.limiters) (h : MergeStep lb now c.endpoints start s eps)
    {old ep : RpcEndpoint} (hold : old ∈ w.lb.endpoints) (hep : ep ∈ eps) (hurl : ep.url = old.url) :
    KeptState w (World.afterMerge lb c eps s prom) old ep := by
  obtain ⟨e, he, hrec⟩ := KeyedList.exists_left_of_forall₂ h.records hep
  have hfound : lb.endpoint? old.url = some old := by
    unfold LoadBalancer.endpoint?
    rw [heps]
    exact hw.endpoint?_of_mem hold
  have heurl : ep.url = e.url := hrec.config.1
  have hlimiters := h.limiters e he
  cases hrec with
  | fresh weight r hnone _ _ _ =>
      rw [← heurl, hurl, hfound] at hnone
      cases hnone
  | existing ep₀ weight hsome hweight =>
      rw [← heurl, hurl, hfound] at hsome
      cases hsome
      have hurl' : e.url = old.url := heurl.symm
      have hiff : s.newRateLimiters e.url = w.lb.rateLimiters old.url ↔
          e.rateLimitPerSec = old.rateLimitPerSec ∧ e.burstSize = old.burstSize := by
        constructor
        · intro heq
          by_contra hne
          have hk : ¬ keepsLimiter lb e := by
            rintro ⟨ep₁, hep₁, hr, hb⟩
            rw [hurl', hfound] at hep₁
            cases hep₁
            exact hne ⟨hr.symm, hb.symm⟩
          obtain ⟨r, l, hr, hv, -, -⟩ := hlimiters.fresh hk
          rw [hr] at heq
          exact hv (hlim ▸ hw.limiters _ _ heq.symm)
        · rintro ⟨hr, hb⟩
          have hk : keepsLimiter lb e := ⟨old, by rw [hurl']; exact hfound, hr.symm, hb.symm⟩
          rw [hlimiters.kept hk, hmap, hurl']
      refine ⟨rfl, rfl, rfl, rfl, rfl, ?_, ?_, ?_⟩
      · show s.metrics.get? old.metrics = w.metrics.get? old.metrics
        rw [h.metrics.get? (hmet ▸ hw.metrics old hold), hmet]
      · show s.newRateLimiters old.url = w.lb.rateLimiters old.url ↔ _
        rw [← hurl'] at hiff ⊢
        exact hiff
      · intro heq
        have heq' : s.newRateLimiters old.url = w.lb.rateLimiters old.url := heq
        show s.newRateLimiters old.url >>= s.limiters.get? = w.lb.rateLimiters old.url >>= _
        rw [heq']
        cases hr : w.lb.rateLimiters old.url with
        | none => rfl
        | some r =>
            have hv : start.limiters.Valid r := hlim ▸ hw.limiters _ _ hr
            show s.limiters.get? r = w.limiters.get? r
            rw [h.limiterHeap.get? hv, hlim]

/-- **An endpoint that was not there starts afresh.**
Source: `config_reloader.rs` `reload`, "This is a new endpoint" -/
theorem freshState_afterMerge (heps : lb.endpoints = w.lb.endpoints)
    (hmet : start.metrics = w.metrics) (hlim : start.limiters = w.limiters)
    (htimeout : lb.timeoutSecs = c.timeoutSecs) (h : MergeStep lb now c.endpoints start s eps)
    {ep : RpcEndpoint} (hep : ep ∈ eps) (hnew : ep.url ∉ w.lb.endpoints.map RpcEndpoint.url) :
    FreshState w (World.afterMerge lb c eps s prom) c.timeoutSecs now ep := by
  obtain ⟨e, he, hrec⟩ := KeyedList.exists_left_of_forall₂ h.records hep
  have hnone : lb.endpoint? e.url = none := by
    unfold LoadBalancer.endpoint?
    rw [heps, KeyedList.lookup_eq_none_iff, ← hrec.config.1]
    exact hnew
  have hk : ¬ keepsLimiter lb e := by
    rintro ⟨ep₁, hep₁, -⟩
    rw [hnone] at hep₁
    cases hep₁
  obtain ⟨r, l, hr, hv, hl, hcreate⟩ := (h.limiters e he).fresh hk
  cases hrec with
  | existing ep₀ weight hsome hweight =>
      rw [hnone] at hsome
      cases hsome
  | fresh weight m _ hweight hm hget =>
      refine ⟨rfl, hmet ▸ hm, htimeout ▸ hget, ⟨r, hr, hlim ▸ hv⟩, ?_⟩
      show s.newRateLimiters e.url >>= s.limiters.get? =
        createRateLimiter M e.burstSize e.rateLimitPerSec
      rw [hr, hcreate]
      exact hl

/-- The entry differs from the current record in rate, burst or weight. -/
theorem modifies_iff {current ep : RpcEndpoint} {e : EndpointConfig} (he : ep.toConfig = e) :
    modifies current e = true ↔ ¬ (current.rateLimitPerSec = ep.rateLimitPerSec ∧
      current.burstSize = ep.burstSize ∧ current.weight = ep.weight) := by
  subst he
  rw [not_and_or, not_and_or]
  simp [modifies, RpcEndpoint.toConfig, or_assoc]

/-- **The reported lists are the differences of the endpoint lists.**
Source: `config_reloader.rs` `reload`, the first read section -/
theorem reportedChanges_diff (P : Platform) (hc : c.Valid) (hw : w.WellFormed)
    (heps : eps.map RpcEndpoint.toConfig = c.endpoints) (rebuilt : Bool) :
    let diff := diffSection P w.lb c {}
    ReportedChanges ⟨diff.endpointsAdded, diff.endpointsRemoved, diff.endpointsModified, true,
      rebuilt⟩ w.lb.endpoints eps := by
  have hurls : c.endpoints.map EndpointConfig.url = eps.map RpcEndpoint.url := by
    rw [← heps, List.map_map]
    rfl
  refine ⟨P.hashOrder_nodup _, P.hashOrder_nodup _, ?_, fun u => ?_, fun u => ?_, fun u => ?_⟩
  · exact (List.filter_sublist.map EndpointConfig.url).nodup hc.nodup
  · rw [← hurls]
    simp [diffSection, P.mem_hashOrder]
  · rw [← hurls]
    simp [diffSection, P.mem_hashOrder]
  · constructor
    · intro hu
      obtain ⟨e, he, rfl⟩ := List.mem_map.mp hu
      rw [List.mem_filter] at he
      obtain ⟨hmem, hmod⟩ := he
      cases hcur : w.lb.endpoint? e.url with
      | none => simp [hcur] at hmod
      | some current =>
          simp only [hcur] at hmod
          rw [← heps] at hmem
          obtain ⟨ep, hep, hcfg⟩ := List.mem_map.mp hmem
          exact ⟨current, KeyedList.mem_of_lookup hcur, ep, hep, KeyedList.key_of_lookup hcur,
            congrArg EndpointConfig.url hcfg, (modifies_iff hcfg).mp hmod⟩
    · rintro ⟨current, hcur, ep, hep, rfl, hurl, hdiff⟩
      have hmem : ep.toConfig ∈ c.endpoints := heps ▸ List.mem_map_of_mem hep
      refine List.mem_map.mpr ⟨ep.toConfig, List.mem_filter.mpr ⟨hmem, ?_⟩, hurl⟩
      have hfound : w.lb.endpoint? ep.toConfig.url = some current := by
        show w.lb.endpoint? ep.url = some current
        rw [hurl]
        exact hw.endpoint?_of_mem hcur
      simp only [hfound]
      exact (modifies_iff rfl).mpr hdiff

end merge

/-! ## The refinement -/

/-- A reload to valid settings, run alone on a well-formed world.
Source: `config_reloader.rs` `reload` -/
theorem reloadEffect_execSections (P : Platform) {c : Settings} (hc : c.Valid) (now : Instant)
    {w : World M} (hw : w.WellFormed) :
    ReloadEffect w (execSections P c now w {} reloadProgram).1 c now
      (execSections P c now w {} reloadProgram).2.response := by
  obtain ⟨start, s, eps, -, hstart, hmet, hlim, hstep, hexec⟩ := execSections_reloadProgram P now w hc
  rw [hexec]
  have heps := LoadBalancer.withClient_endpoints w.lb c.client
  have hmap := LoadBalancer.withClient_rateLimiters w.lb c.client
  have hclient := LoadBalancer.withClient_clientSettings w.lb c.client
  obtain ⟨haddr, hpath, hperm⟩ := withClient_untouched w.lb c.client
  refine {
    settings := settings_published hclient hstep.toConfig
    kept := fun old hold ep hep hurl =>
      keptState_afterMerge hw heps hmap hmet hlim hstep hold hep hurl
    fresh := fun ep hep hnew =>
      freshState_afterMerge heps hmet hlim (congrArg ClientSettings.timeoutSecs hclient) hstep hep hnew
    changes := reportedChanges_diff P hc hw hstep.toConfig _
    bindAddr := haddr
    configPath := hpath
    concurrencyLimiter := hperm }

/-- **A reload refines a restart and keeps live state.** In every reachable world, when the file's
content loads and finalizes, a reload run alone answers `Ok` and has the effect `ReloadEffect` for
the finalized settings, which are also the settings of every startup from the same content, whose
endpoints are in the state a reload gives to new ones. When the load or the finalization answers an
error, the reload answers that error and changes nothing.
Source: `config_reloader.rs` `reload`; `balancer.rs` `LoadBalancer::new` -/
theorem reload_refines_restart {P : Platform} {w : World M} (hw : w.Reachable P)
    (read : String → ReadResult) (now : Instant) :
    (∀ raw finalized, tryLoadConfig P read w.lb.configPath = .ok raw →
      (raw.getD {}).finalize P.toLowercase = .ok finalized →
      ∃ c resp w', finalized.balancer >>= BalancerConfig.destructure = some c ∧
        reload P read w now = (.ok resp, w') ∧ ReloadEffect w w' c now resp ∧
        ∀ path now₀ w₀, LoadBalancer.new M P.toLowercase raw path now₀ = some w₀ →
          w₀.lb.settings = w'.lb.settings ∧
          ∀ ep ∈ w₀.lb.endpoints, FreshState ⟨w₀.lb, .empty, .empty, w₀.prom⟩ w₀ c.timeoutSecs now₀ ep) ∧
    (∀ e, tryLoadConfig P read w.lb.configPath = .error e →
      reload P read w now = (.err e.toLoadBalancerError, w)) ∧
    (∀ raw e, tryLoadConfig P read w.lb.configPath = .ok raw →
      (raw.getD {}).finalize P.toLowercase = .err e →
      reload P read w now = (.err e.toLoadBalancerError, w)) := by
  refine ⟨?_, ?_, ?_⟩
  · intro raw finalized hraw hfin
    obtain ⟨b, -, c, -, -, hb, -, hc, hvalid, -⟩ := valid_of_finalize hfin
    have hload : loadSettings P read w.lb.configPath = .ok c := by
      unfold loadSettings
      simp only [hraw, hfin, hb, hc]
    have heffect := reloadEffect_execSections P hvalid now hw.wellFormed
    refine ⟨c, _, _, by rw [hb]; exact hc, reload_eq_ok now hload, heffect, ?_⟩
    intro path now₀ w₀ hnew
    obtain ⟨finalized', b', c', hfin', hb', hc', hstart⟩ := started_of_new hnew
    rw [hfin] at hfin'
    cases hfin'
    rw [hb] at hb'
    cases hb'
    rw [hc] at hc'
    cases hc'
    refine ⟨hstart.settings.trans heffect.settings.symm, fun ep hep => ?_⟩
    obtain ⟨hrec, hmet, hlim⟩ := hstart.freshState hep
    obtain ⟨r, l, hr, -, -⟩ := hstart.limiters ep hep
    exact ⟨hrec, Nat.not_lt_zero _, hmet, ⟨r, hr, Nat.not_lt_zero _⟩, hlim⟩
  · intro e he
    unfold reload loadSettings
    rw [he]
  · intro raw e hraw hfin
    unfold reload loadSettings
    rw [hraw]
    simp only [hfin]

/-- `reload_refines_restart` when the endpoint of the sample world gives way to another, and when it stays. -/
theorem reload_refines_restart_sample :
    (∃ c resp w', reload samplePlatform (fun _ => .content otherFile) sampleWorld 1 = (.ok resp, w') ∧
      ReloadEffect sampleWorld w' c 1 resp) ∧
    ∃ c resp w', reload samplePlatform (fun _ => .content sampleFile) sampleWorld 1 = (.ok resp, w') ∧
      ReloadEffect sampleWorld w' c 1 resp ∧ ∃ old ∈ sampleWorld.lb.endpoints, ∃ ep ∈ w'.lb.endpoints,
        KeptState sampleWorld w' old ep := by
  have hreach : sampleWorld.Reachable samplePlatform := World.reachable_of_new new_sampleWorld
  have hother : (Config.ofEndpoints [otherEndpoint]).finalize samplePlatform.toLowercase =
      .ok { server := some { bindAddr := some defaultBindAddr },
            balancer := some (BalancerConfig.withDefaults {} [otherEndpoint]) } := by
    decide +kernel
  have hsame : (Config.ofEndpoints [sampleEndpoint]).finalize samplePlatform.toLowercase =
      .ok { server := some { bindAddr := some defaultBindAddr },
            balancer := some (BalancerConfig.withDefaults {} [sampleEndpoint]) } := by
    decide +kernel
  constructor
  · obtain ⟨c, resp, w', -, hreload, heffect, -⟩ :=
      (reload_refines_restart hreach (fun _ => .content otherFile) 1).1
        (some (.ofEndpoints [otherEndpoint])) _ (by rfl) hother
    exact ⟨c, resp, w', hreload, heffect⟩
  · obtain ⟨c, resp, w', -, hreload, heffect, -⟩ :=
      (reload_refines_restart hreach (fun _ => .content sampleFile) 1).1
        (some (.ofEndpoints [sampleEndpoint])) _ (by rfl) hsame
    have hurls : (reload samplePlatform (fun _ => .content sampleFile) sampleWorld 1).2.lb.endpoints.map
        RpcEndpoint.url = sampleWorld.lb.endpoints.map RpcEndpoint.url := by decide +kernel
    rw [hreload] at hurls
    have hne : sampleWorld.lb.endpoints ≠ [] := by decide
    have hold := List.head_mem hne
    obtain ⟨ep, hep, hurl⟩ : ∃ ep ∈ w'.lb.endpoints, ep.url = (sampleWorld.lb.endpoints.head hne).url :=
      List.mem_map.mp (hurls.symm ▸ List.mem_map_of_mem hold)
    exact ⟨c, resp, w', hreload, heffect, _, hold, ep, hep, heffect.kept _ hold ep hep hurl⟩

end AzothBalancer
