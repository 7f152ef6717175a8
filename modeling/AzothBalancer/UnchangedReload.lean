import AzothBalancer.RestartRefinement

/-!
# Reloading an unchanged file

A reload whose file finalizes to the settings in force reports no change, and writes nothing but the registry.
No function of the balancer reads the registry, so leaving such a reload out of a run changes neither the
stores nor any later answer.

* `exec_congr`, `reload_congr`, `perform_congr` — worlds that differ in the registry alone do so after every
  command, and answer the same.
* `mergeEndpoints_unchanged` — the merge of the entries in force is the list in force, with its limiters.
* `reload_unchanged`, `unchanged_reload_invisible` — the reload itself, and a run after it.
* `reload_again_invisible` — a reload of the same file as the last one.
-/

namespace AzothBalancer

variable {M : Meter}

/-! ## The registry is not read -/

section unread

variable {w w' : World M}

/-- The worlds differ in the registry alone. -/
theorem World.SameStore.exists_registry (h : w.SameStore w') : ∃ prom, w' = { w with prom := prom } := by
  obtain ⟨lb, metrics, limiters, prom⟩ := w'
  obtain ⟨rfl, rfl, rfl⟩ := h
  exact ⟨prom, rfl⟩

/-- Rewriting a record on both sides. -/
theorem World.SameStore.updateEndpoint (h : w.SameStore w') (url : String) (f : RpcEndpoint → RpcEndpoint) :
    World.SameStore { w with lb := w.lb.updateEndpoint url f }
      { w' with lb := w'.lb.updateEndpoint url f } where
  lb := congrArg (fun lb : LoadBalancer => lb.updateEndpoint url f) h.lb
  metrics := h.metrics
  limiters := h.limiters

/-- A reservation does not read the registry.
Source: `strategy.rs` `reserve_tokens` -/
theorem reserveTokens_congr (h : w.SameStore w') (url : String) (n : ℕ) (now : Instant) :
    (reserveTokens w' url n now).1 = (reserveTokens w url n now).1 ∧
      (reserveTokens w url n now).2.SameStore (reserveTokens w' url n now).2 := by
  obtain ⟨prom, rfl⟩ := h.exists_registry
  unfold reserveTokens
  split
  · exact ⟨rfl, rfl, rfl, rfl⟩
  · dsimp only
    rcases w.lb.rateLimiters url with _ | r
    · exact ⟨rfl, rfl, rfl, rfl⟩
    · dsimp only
      split
      · exact ⟨rfl, rfl, rfl, rfl⟩
      · rcases w.limiters.get? r with _ | l
        · exact ⟨rfl, rfl, rfl, rfl⟩
        · dsimp only
          split <;> exact ⟨rfl, rfl, rfl, rfl⟩

/-- Nor does the scan of a tier.
Source: `strategy.rs` `select_best_endpoint`, the inner loop -/
theorem scanCandidates_congr (n : ℕ) (now : Instant) :
    ∀ (candidates : List RpcEndpoint) (rank : ℕ) {w w' : World M}, w.SameStore w' →
      (scanCandidates n now rank candidates w').1 = (scanCandidates n now rank candidates w).1 ∧
      (scanCandidates n now rank candidates w).2.SameStore (scanCandidates n now rank candidates w').2
  | [], _, _, _, h => ⟨rfl, h⟩
  | ep :: rest, rank, w, w', h => by
      obtain ⟨hanswer, hstore⟩ := reserveTokens_congr h ep.url n now
      rw [scanCandidates, scanCandidates]
      rcases hw : reserveTokens w ep.url n now with ⟨_ | _, w₁⟩ <;>
        rcases hw' : reserveTokens w' ep.url n now with ⟨_ | _, w₁'⟩ <;> rw [hw, hw'] at hanswer hstore
      · exact scanCandidates_congr n now rest (rank + 1) ⟨hstore.lb, hstore.metrics, hstore.limiters⟩
      · cases hanswer
      · cases hanswer
      · exact ⟨rfl, hstore.lb, hstore.metrics, hstore.limiters⟩

/-- Nor does the scan of the tiers.
Source: `strategy.rs` `select_best_endpoint`, the outer loop -/
theorem scanTiers_congr (n : ℕ) (now : Instant) : ∀ (tiers : List (List RpcEndpoint)) {w w' : World M},
    w.SameStore w' → (scanTiers n now tiers w').1 = (scanTiers n now tiers w).1 ∧
      (scanTiers n now tiers w).2.SameStore (scanTiers n now tiers w').2
  | [], _, _, h => ⟨rfl, h⟩
  | tier :: tiers, w, w', h => by
      obtain ⟨hanswer, hstore⟩ := scanCandidates_congr n now tier 0 h
      rw [scanTiers, scanTiers]
      rcases hw : scanCandidates n now 0 tier w with ⟨_ | ep, w₁⟩ <;>
        rcases hw' : scanCandidates n now 0 tier w' with ⟨_ | ep', w₁'⟩ <;> rw [hw, hw'] at hanswer hstore
      · exact scanTiers_congr n now tiers hstore
      · cases hanswer
      · cases hanswer
      · exact ⟨hanswer, hstore⟩

/-- Nor does a selection.
Source: `strategy.rs` `select_best_endpoint` -/
theorem selectBestEndpoint_congr (h : w.SameStore w') (n : ℕ) (now : Instant) :
    (selectBestEndpoint w' n now).1 = (selectBestEndpoint w n now).1 ∧
      (selectBestEndpoint w n now).2.SameStore (selectBestEndpoint w' n now).2 := by
  have htiers : sortedTiers w' now = sortedTiers w now := by
    obtain ⟨prom, rfl⟩ := h.exists_registry
    rfl
  unfold selectBestEndpoint
  rw [h.lb, htiers]
  split
  · exact ⟨rfl, h⟩
  · obtain ⟨hanswer, hstore⟩ := scanTiers_congr n now (sortedTiers w now) h
    rcases hw : scanTiers n now (sortedTiers w now) w with ⟨_ | ep, w₁⟩ <;>
      rcases hw' : scanTiers n now (sortedTiers w now) w' with ⟨_ | ep', w₁'⟩ <;> rw [hw, hw'] at hanswer hstore
    · exact ⟨rfl, hstore.lb, hstore.metrics, hstore.limiters⟩
    · cases hanswer
    · cases hanswer
    · exact ⟨hanswer, hstore⟩

/-- A request is answered the same.
Source: `balancer.rs` `get_next_endpoint` -/
theorem getNextEndpoint_congr (h : w.SameStore w') (n : ℕ) (clock : Clock) :
    (getNextEndpoint w' n clock).1 = (getNextEndpoint w n clock).1 ∧
      (getNextEndpoint w n clock).2.SameStore (getNextEndpoint w' n clock).2 := by
  obtain ⟨hanswer, hstore⟩ := selectBestEndpoint_congr h n clock.now
  unfold getNextEndpoint
  rcases hw : selectBestEndpoint w n clock.now with ⟨_ | ep, w₁⟩ <;>
    rcases hw' : selectBestEndpoint w' n clock.now with ⟨_ | ep', w₁'⟩ <;> rw [hw, hw'] at hanswer hstore
  · exact ⟨rfl, hstore⟩
  · cases hanswer
  · cases hanswer
  · obtain rfl : ep' = ep := Option.some.inj hanswer
    refine ⟨rfl, hstore.lb, ?_, hstore.limiters⟩
    dsimp only
    rw [hstore.metrics]

/-- Nor do triggers.
Source: `utils/cooldown.rs` `trigger_cooldown` -/
theorem cooldownEndpoint_congr (h : w.SameStore w') (ep : RpcEndpoint) (prepare : RpcEndpoint → RpcEndpoint)
    (base max_ : ℕ) (now : Instant) :
    (cooldownEndpoint w ep prepare base max_ now).1.SameStore (cooldownEndpoint w' ep prepare base max_ now).1 ∧
      (cooldownEndpoint w' ep prepare base max_ now).2 = (cooldownEndpoint w ep prepare base max_ now).2 := by
  obtain ⟨prom, rfl⟩ := h.exists_registry
  unfold cooldownEndpoint
  dsimp only
  rcases (triggerCooldown (prepare ep) base max_ now).2 with _ | duration <;> exact ⟨⟨rfl, rfl, rfl⟩, rfl⟩

/-- Nor does a mark.
Source: `balancer.rs` `mark_rate_limited` -/
theorem markRateLimited_congr (h : w.SameStore w') (url : String) (now : Instant) :
    (markRateLimited w url now).1.SameStore (markRateLimited w' url now).1 ∧
      (markRateLimited w' url now).2 = (markRateLimited w url now).2 := by
  unfold markRateLimited
  rw [h.lb]
  rcases w.lb.endpoint? url with _ | ep
  · exact ⟨h, rfl⟩
  · exact cooldownEndpoint_congr h ep id _ _ now

/-- Nor does the other.
Source: `balancer.rs` `mark_unhealthy` -/
theorem markUnhealthy_congr (h : w.SameStore w') (url : String) (now : Instant) :
    (markUnhealthy w url now).1.SameStore (markUnhealthy w' url now).1 ∧
      (markUnhealthy w' url now).2 = (markUnhealthy w url now).2 := by
  unfold markUnhealthy
  rw [h.lb]
  rcases w.lb.endpoint? url with _ | ep
  · exact ⟨h, rfl⟩
  · dsimp only
    split
    · exact cooldownEndpoint_congr h ep _ _ _ now
    · exact ⟨h, rfl⟩

/-- Nor does a probe result.
Source: `utils/health.rs` `perform_health_checks`, the body of the loop over `updates` -/
theorem applyProbe_congr (base max_ timeoutMs : ℕ) (now : Instant) (h : w.SameStore w')
    (result : String × Bool) :
    (applyProbe base max_ timeoutMs now w result).1.SameStore (applyProbe base max_ timeoutMs now w' result).1 ∧
      (applyProbe base max_ timeoutMs now w' result).2 = (applyProbe base max_ timeoutMs now w result).2 := by
  obtain ⟨url, isHealthy⟩ := result
  unfold applyProbe
  dsimp only
  have hlookup : w'.lb.endpoint? url = w.lb.endpoint? url := by rw [h.lb]
  rw [hlookup]
  rcases w.lb.endpoint? url with _ | ep
  · exact ⟨h, rfl⟩
  · have hfailed : (recordFailedProbe w url ep timeoutMs).SameStore
        (recordFailedProbe w' url ep timeoutMs) := by
      obtain ⟨prom, rfl⟩ := h.exists_registry
      exact ⟨rfl, rfl, rfl⟩
    have hrecovered : (recordRecovery w ep).SameStore (recordRecovery w' ep) := by
      obtain ⟨prom, rfl⟩ := h.exists_registry
      exact ⟨rfl, rfl, rfl⟩
    dsimp only
    split
    · split
      · exact ⟨h.updateEndpoint url _, rfl⟩
      · exact ⟨hrecovered.updateEndpoint url _, rfl⟩
    · split
      · exact cooldownEndpoint_congr hfailed ep _ base max_ now
      · exact ⟨hfailed.updateEndpoint url _, rfl⟩

/-- Nor do several.
Source: `utils/health.rs` `perform_health_checks`, the loop over `updates` -/
theorem applyProbes_congr (base max_ timeoutMs : ℕ) (now : Instant) :
    ∀ (results : List (String × Bool)) {w w' : World M}, w.SameStore w' →
      (applyProbes base max_ timeoutMs now results w).1.SameStore
          (applyProbes base max_ timeoutMs now results w').1 ∧
        (applyProbes base max_ timeoutMs now results w').2 = (applyProbes base max_ timeoutMs now results w).2
  | [], _, _, h => ⟨h, rfl⟩
  | result :: rest, w, w', h => by
      obtain ⟨hstore, hpanic⟩ := applyProbe_congr base max_ timeoutMs now h result
      rw [applyProbes, applyProbes]
      rcases hw : applyProbe base max_ timeoutMs now w result with ⟨w₁, panicked⟩
      rcases hw' : applyProbe base max_ timeoutMs now w' result with ⟨w₁', panicked'⟩
      rw [hw, hw'] at hstore hpanic
      obtain rfl : panicked' = panicked := hpanic
      rcases panicked' with _ | _
      · exact applyProbes_congr base max_ timeoutMs now rest hstore
      · exact ⟨hstore, rfl⟩

/-- **No operation reads the registry.** -/
theorem exec_congr (h : w.SameStore w') (op : Operation) :
    (w.exec op).1.SameStore (w'.exec op).1 ∧ (w'.exec op).2 = (w.exec op).2 := by
  rcases op with ⟨n, clock⟩ | ⟨url, now⟩ | ⟨url, now⟩ | ⟨results, timeoutMs, now⟩ | now |
    ⟨url, result, elapsedMs⟩
  · exact ⟨(getNextEndpoint_congr h n clock).2, rfl⟩
  · exact markUnhealthy_congr h url now
  · exact markRateLimited_congr h url now
  · show (applyHealthResults w results timeoutMs now).1.SameStore
        (applyHealthResults w' results timeoutMs now).1 ∧
      (applyHealthResults w' results timeoutMs now).2 = (applyHealthResults w results timeoutMs now).2
    unfold applyHealthResults
    rw [h.lb]
    exact applyProbes_congr _ _ timeoutMs now results h
  · exact ⟨⟨h.lb, h.metrics, h.limiters⟩, rfl⟩
  · obtain ⟨prom, rfl⟩ := h.exists_registry
    show (updateMetrics w url result elapsedMs).SameStore (updateMetrics _ url result elapsedMs) ∧ _
    unfold updateMetrics
    dsimp only
    split <;> exact ⟨⟨rfl, rfl, rfl⟩, rfl⟩

/-- Nor does a health round.
Source: `utils/health.rs` `perform_health_checks` -/
theorem performHealthChecks_congr (h : w.SameStore w') (results : List (String × Bool)) (now : Instant) :
    (performHealthChecks w results now).1.SameStore (performHealthChecks w' results now).1 ∧
      (performHealthChecks w' results now).2 = (performHealthChecks w results now).2 := by
  have hobserved : ∀ prom prom', World.SameStore { w with prom := prom } { w' with prom := prom' } :=
    fun _ _ => ⟨h.lb, h.metrics, h.limiters⟩
  obtain ⟨hstore, hpanic⟩ := applyProbes_congr w.lb.baseCooldownSecs w.lb.maxCooldownSecs
    (timeoutMillis w.lb.healthCheckTimeoutSecs) now results
    (hobserved (results.foldl (fun m r => m.observe .healthCheckLatency [r.1]) w.prom)
      (results.foldl (fun m r => m.observe .healthCheckLatency [r.1]) w'.prom))
  have hsettings : ∀ {α : Type} (f : LoadBalancer → α), f w'.lb = f w.lb := fun f => congrArg f h.lb
  unfold performHealthChecks applyHealthResults
  dsimp only
  rw [hsettings LoadBalancer.baseCooldownSecs, hsettings LoadBalancer.maxCooldownSecs,
    hsettings LoadBalancer.healthCheckTimeoutSecs]
  rcases hw : applyProbes w.lb.baseCooldownSecs w.lb.maxCooldownSecs
      (timeoutMillis w.lb.healthCheckTimeoutSecs) now results
      { w with prom := results.foldl (fun m r => m.observe .healthCheckLatency [r.1]) w.prom } with
    ⟨w₁, panicked⟩
  rcases hw' : applyProbes w.lb.baseCooldownSecs w.lb.maxCooldownSecs
      (timeoutMillis w.lb.healthCheckTimeoutSecs) now results
      { w' with prom := results.foldl (fun m r => m.observe .healthCheckLatency [r.1]) w'.prom } with
    ⟨w₁', panicked'⟩
  rw [hw, hw'] at hstore hpanic
  obtain rfl : panicked' = panicked := hpanic
  rcases panicked' with _ | _
  · exact ⟨⟨hstore.lb, hstore.metrics, hstore.limiters⟩, rfl⟩
  · exact ⟨hstore, rfl⟩

/-- One round of the merge loop, from states that differ in the registry alone.
Source: `config_reloader.rs` `reload`, the second read section -/
theorem mergeEndpoint_congr (lb : LoadBalancer) (now : Instant) (s : MergeState M) (prom : Registry)
    (new : EndpointConfig) : ∃ prom', mergeEndpoint lb now { s with prom := prom } new =
      (mergeEndpoint lb now s new).map fun t => { t with prom := prom' } := by
  unfold mergeEndpoint MergeState.insertFresh
  rcases new.weight with _ | weight
  · exact ⟨prom, rfl⟩
  · rcases lb.endpoint? new.url with _ | existing
    · refine ⟨initializeEndpointMetrics new.url prom, ?_⟩
      dsimp only [Option.bind_eq_bind, Option.bind_some]
      rcases createRateLimiter M new.burstSize new.rateLimitPerSec with _ | l <;> rfl
    · refine ⟨prom, ?_⟩
      dsimp only [Option.bind_eq_bind, Option.bind_some]
      split
      · rcases createRateLimiter M new.burstSize new.rateLimitPerSec with _ | l <;> rfl
      · rcases lb.rateLimiters new.url with _ | r <;> rfl

/-- The whole loop, likewise.
Source: `config_reloader.rs` `reload`, the second read section -/
theorem mergeEndpoints_congr (lb : LoadBalancer) (now : Instant) :
    ∀ (new : List EndpointConfig) (s : MergeState M) (prom : Registry), ∃ prom',
      mergeEndpoints lb now { s with prom := prom } new =
        (mergeEndpoints lb now s new).map fun t => { t with prom := prom' }
  | [], _, prom => ⟨prom, rfl⟩
  | e :: es, s, prom => by
      obtain ⟨prom₁, hone⟩ := mergeEndpoint_congr lb now s prom e
      unfold mergeEndpoints
      rw [List.foldlM_cons, List.foldlM_cons, hone]
      rcases mergeEndpoint lb now s e with _ | t
      · exact ⟨prom, rfl⟩
      · exact mergeEndpoints_congr lb now es t prom₁

/-- **No section of a reload reads the registry.**
Source: `config_reloader.rs` `reload` -/
theorem execSection_congr (P : Platform) (c : Settings) (now : Instant) (h : w.SameStore w')
    (frame : ReloadFrame) (sec : ReloadSection) :
    (execSection P c now w frame sec).1.SameStore (execSection P c now w' frame sec).1 ∧
      (execSection P c now w' frame sec).2 = (execSection P c now w frame sec).2 := by
  obtain ⟨prom, rfl⟩ := h.exists_registry
  unfold execSection
  split
  · exact ⟨⟨rfl, rfl, rfl⟩, rfl⟩
  · cases sec with
    | writeClient | writeClientField f => dsimp only; split <;> exact ⟨⟨rfl, rfl, rfl⟩, rfl⟩
    | merge =>
        obtain ⟨prom', hmerge⟩ := mergeEndpoints_congr w.lb now c.endpoints w.mergeStart prom
        have hmerge' : mergeEndpoints w.lb now (World.mergeStart { w with prom := prom }) c.endpoints = _ :=
          hmerge
        show (mergeSection c now w frame).1.SameStore (mergeSection c now { w with prom := prom } frame).1 ∧
          (mergeSection c now { w with prom := prom } frame).2 = (mergeSection c now w frame).2
        unfold mergeSection
        dsimp only
        rw [hmerge']
        rcases mergeEndpoints w.lb now w.mergeStart c.endpoints with _ | s <;> exact ⟨⟨rfl, rfl, rfl⟩, rfl⟩
    | _ => exact ⟨⟨rfl, rfl, rfl⟩, rfl⟩

/-- Nor do several.
Source: `config_reloader.rs` `reload` -/
theorem execSections_congr (P : Platform) (c : Settings) (now : Instant) :
    ∀ (secs : List ReloadSection) {w w' : World M} (frame : ReloadFrame), w.SameStore w' →
      (execSections P c now w frame secs).1.SameStore (execSections P c now w' frame secs).1 ∧
        (execSections P c now w' frame secs).2 = (execSections P c now w frame secs).2
  | [], _, _, _, h => ⟨h, rfl⟩
  | sec :: secs, w, w', frame, h => by
      obtain ⟨hstore, hframe⟩ := execSection_congr P c now h frame sec
      rw [execSections_cons, execSections_cons, hframe]
      exact execSections_congr P c now secs _ hstore

/-- **Nor does a reload.**
Source: `config_reloader.rs` `reload` -/
theorem reload_congr (P : Platform) (read : String → ReadResult) (h : w.SameStore w') (now : Instant) :
    (reload P read w now).2.SameStore (reload P read w' now).2 ∧
      (reload P read w' now).1 = (reload P read w now).1 := by
  unfold reload
  rw [h.lb]
  rcases loadSettings P read w.lb.configPath with c | e | _
  · obtain ⟨hstore, hframe⟩ := execSections_congr P c now reloadProgram {} h
    dsimp only
    rw [hframe]
    split
    · exact ⟨hstore, rfl⟩
    · exact ⟨hstore, rfl⟩
  · exact ⟨h, rfl⟩
  · exact ⟨h, rfl⟩

end unread

/-! ## The reload itself -/

/-- The entry of a current record with a limiter: the record and the limiter are carried over.
Source: `config_reloader.rs` `reload`, "Preserve state of existing endpoint" -/
theorem mergeEndpoint_unchanged {lb : LoadBalancer} (now : Instant) (s : MergeState M) {ep : RpcEndpoint}
    {r : LimiterRef} (hep : lb.endpoint? ep.url = some ep) (hr : lb.rateLimiters ep.url = some r) :
    mergeEndpoint lb now s ep.toConfig = some { s with
      newRpcEndpoints := s.newRpcEndpoints ++ [ep]
      newRateLimiters := Function.update s.newRateLimiters ep.url (lb.rateLimiters ep.url) } := by
  unfold mergeEndpoint RpcEndpoint.toConfig
  dsimp only [Option.bind_eq_bind, Option.bind_some]
  rw [hep]
  dsimp only
  rw [if_neg (by simp), hr]
  rfl

/-- **The merge of the entries in force** is the list in force, with its limiters.
The induction is on the list; the map is that of the entries merged so far. -/
theorem mergeEndpoints_unchanged {lb : LoadBalancer} (now : Instant) :
    ∀ (eps : List RpcEndpoint) (s : MergeState M),
      (∀ ep ∈ eps, lb.endpoint? ep.url = some ep ∧ (lb.rateLimiters ep.url).isSome) →
      mergeEndpoints lb now s (eps.map RpcEndpoint.toConfig) = some { s with
        newRpcEndpoints := s.newRpcEndpoints ++ eps
        newRateLimiters := fun url =>
          if url ∈ eps.map RpcEndpoint.url then lb.rateLimiters url else s.newRateLimiters url }
  | [], s, _ => by
      simp [mergeEndpoints]
  | ep :: eps, s, h => by
      obtain ⟨⟨hep, hsome⟩, hrest⟩ := List.forall_mem_cons.mp h
      obtain ⟨r, hr⟩ := Option.isSome_iff_exists.mp hsome
      have hstep := mergeEndpoints_unchanged now eps { s with
        newRpcEndpoints := s.newRpcEndpoints ++ [ep]
        newRateLimiters := Function.update s.newRateLimiters ep.url (lb.rateLimiters ep.url) } hrest
      unfold mergeEndpoints at hstep ⊢
      rw [List.map_cons, List.foldlM_cons, mergeEndpoint_unchanged now s hep hr, Option.bind_eq_bind,
        Option.bind_some, hstep, List.append_assoc]
      congr 2
      funext url
      by_cases hurl : url = ep.url
      · subst hurl
        simp
      · simp [hurl]

/-- The settings in force differ from those of the list in nothing.
Source: `config_reloader.rs` `reload`, the first read section -/
theorem diffSection_unchanged (P : Platform) {w : World M} (hw : w.WellFormed) :
    diffSection P w.lb w.lb.settings {} = {} := by
  have hurls : w.lb.settings.endpoints.map EndpointConfig.url = w.lb.endpoints.map RpcEndpoint.url := by
    show (w.lb.endpoints.map RpcEndpoint.toConfig).map EndpointConfig.url = _
    rw [List.map_map]
    rfl
  have hempty : P.hashOrder ∅ = [] := by
    rw [List.eq_nil_iff_forall_not_mem]
    intro url hurl
    exact absurd ((P.mem_hashOrder _ _).mp hurl) (Finset.notMem_empty url)
  unfold diffSection
  dsimp only
  rw [hurls, Finset.sdiff_self, hempty, List.filter_eq_nil_iff.mpr]
  · rfl
  · intro e he
    obtain ⟨ep, hep, rfl⟩ := List.mem_map.mp he
    have hfound : w.lb.endpoint? ep.toConfig.url = some ep := hw.endpoint?_of_mem hep
    rw [hfound]
    simp [modifies, RpcEndpoint.toConfig]

/-- The answer of a reload that changes nothing. -/
def unchangedResponse : ReloadResponse where
  success := true
  message := "Configuration reloaded successfully"
  error := none
  changes := ⟨[], [], [], true, false⟩

/-- **A reload of the settings in force** reports no change and writes nothing but the registry.
Source: `config_reloader.rs` `reload` -/
theorem reload_unchanged (P : Platform) {w : World M} (hw : w.WellFormed) (hm : w.Matched)
    {read : String → ReadResult} (hload : loadSettings P read w.lb.configPath = .ok w.lb.settings)
    (now : Instant) :
    (reload P read w now).1 = .ok unchangedResponse ∧ w.SameStore (reload P read w now).2 := by
  obtain ⟨-, -, -, -, -, -, -, hvalid⟩ := loadSettings_eq_ok hload
  obtain ⟨s, eps, hmerge, hstep, hexec⟩ := execSections_reloadProgram_merge P now w hvalid
  have hclient : w.lb.clientSettings = w.lb.settings.client := rfl
  have hwith : w.lb.withClient w.lb.settings.client = w.lb := if_pos hclient
  have hdiff := diffSection_unchanged P hw
  have hkept : ∀ ep ∈ w.lb.endpoints, w.lb.endpoint? ep.url = some ep ∧ (w.lb.rateLimiters ep.url).isSome :=
    fun ep hep => ⟨hw.endpoint?_of_mem hep, (hm.keys _).mpr (List.mem_map_of_mem hep)⟩
  have hmerged := mergeEndpoints_unchanged now w.lb.endpoints (mergeStartAlone P w.lb.settings w) hkept
  rw [hwith] at hmerge
  have hs := hmerged.symm.trans hmerge
  have heps : eps = w.lb.endpoints := by
    have hlist := hstep.endpoints
    rw [← Option.some.inj hs] at hlist
    exact (List.append_cancel_left hlist).symm
  have hmap : s.newRateLimiters = w.lb.rateLimiters := by
    rw [← Option.some.inj hs]
    funext url
    dsimp only
    split
    · rfl
    · rename_i hurl
      rw [← hm.keys, Option.not_isSome_iff_eq_none] at hurl
      exact hurl.symm
  rw [reload_eq_ok now hload, hexec, hdiff, hwith, heps, hmap]
  refine ⟨?_, rfl, ?_, ?_⟩
  · simp [ReloadFrame.response, unchangedResponse, hclient]
  · rw [← Option.some.inj hs]
    rfl
  · rw [← Option.some.inj hs]
    rfl

/-! ## Runs -/

/-- The endpoint an operation answers, if it is a selection. -/
def World.selected (w : World M) : Operation → Option String
  | .getNextEndpoint n clock => (getNextEndpoint w n clock).1
  | _ => none

/-- What a command answers: the endpoint of a selection, whether it has panicked, the outcome of a reload. -/
def World.answer (P : Platform) (w : World M) :
    Command → Option String × Bool × Option (Outcome LoadBalancerError ReloadResponse)
  | .operation op => (w.selected op, (w.exec op).2, none)
  | .healthRound results now => (none, (performHealthChecks w results now).2, none)
  | .reload read now => (none, false, some (reload P read w now).1)

/-- The answers of a run. -/
def World.answers (P : Platform) : World M → List Command →
    List (Option String × Bool × Option (Outcome LoadBalancerError ReloadResponse))
  | _, [] => []
  | w, cmd :: cmds => w.answer P cmd :: World.answers P (w.perform P cmd).1 cmds

/-- **A command neither reads the registry nor answers from it.** -/
theorem perform_congr (P : Platform) {w w' : World M} (h : w.SameStore w') (cmd : Command) :
    (w.perform P cmd).1.SameStore (w'.perform P cmd).1 ∧ w'.answer P cmd = w.answer P cmd := by
  rcases cmd with op | ⟨results, now⟩ | ⟨read, now⟩
  · obtain ⟨hstore, hpanic⟩ := exec_congr h op
    have hselected : w'.selected op = w.selected op := by
      cases op with
      | getNextEndpoint n clock => exact (getNextEndpoint_congr h n clock).1
      | _ => rfl
    refine ⟨hstore, ?_⟩
    unfold World.answer
    dsimp only
    rw [hselected, hpanic]
  · obtain ⟨hstore, hpanic⟩ := performHealthChecks_congr h results now
    refine ⟨hstore, ?_⟩
    unfold World.answer
    dsimp only
    rw [hpanic]
  · obtain ⟨hstore, houtcome⟩ := reload_congr P read h now
    refine ⟨hstore, ?_⟩
    unfold World.answer
    dsimp only
    rw [houtcome]

/-- Nor does a run. -/
theorem runCommands_congr (P : Platform) {w w' : World M} (h : w.SameStore w') (cmds : List Command) :
    (w.runCommands P cmds).SameStore (w'.runCommands P cmds) ∧ w'.answers P cmds = w.answers P cmds := by
  refine ⟨Runs.run_rel World.SameStore (fun _ _ cmd hs => (perform_congr P hs cmd).1) h, ?_⟩
  induction cmds generalizing w w' with
  | nil => rfl
  | cons cmd cmds ih =>
      obtain ⟨hstore, hanswer⟩ := perform_congr P h cmd
      rw [World.answers, World.answers, hanswer, ih hstore]

/-- In the frame, the settings stay. -/
theorem World.Keeps.settings {w w' : World M} (h : w.Keeps w') : w'.lb.settings = w.lb.settings := by
  have hconfigs : w'.lb.endpoints.map RpcEndpoint.toConfig = w.lb.endpoints.map RpcEndpoint.toConfig := by
    have hprofiles := congrArg (List.map fun p : EndpointProfile =>
      (⟨p.url, p.rateLimitPerSec, p.burstSize, some p.weight⟩ : EndpointConfig)) h.profiles
    rwa [List.map_map, List.map_map] at hprofiles
  unfold LoadBalancer.settings
  rw [hconfigs, h.lb]

/-- A command that is not a reload is in the frame of an operation. -/
theorem keeps_perform (P : Platform) (w : World M) {cmd : Command} (h : ∀ read now, cmd ≠ .reload read now) :
    w.Keeps (w.perform P cmd).1 := by
  rcases cmd with op | ⟨results, now⟩ | ⟨read, now⟩
  · exact keeps_exec w op
  · exact keeps_performHealthChecks w results now
  · exact absurd rfl (h read now)

/-- Commands without a reload are in the frame. -/
theorem keeps_runCommands (P : Platform) (w : World M) {cmds : List Command}
    (h : ∀ cmd ∈ cmds, ∀ read now, cmd ≠ .reload read now) : w.Keeps (w.runCommands P cmds) :=
  Runs.invariant (fun v => w.Keeps v) (fun cmd => ∀ read now, cmd ≠ .reload read now)
    (fun v _ hcmd hkeeps => hkeeps.trans (keeps_perform P v hcmd)) h (.refl w)

/-- **A reload of the settings in force cannot be seen**, by whatever comes after it.
Source: `config_reloader.rs` `reload` -/
theorem unchanged_reload_invisible (P : Platform) {w : World M} (hw : w.WellFormed) (hm : w.Matched)
    {read : String → ReadResult} (hload : loadSettings P read w.lb.configPath = .ok w.lb.settings)
    (now : Instant) (after : List Command) :
    let w' := (reload P read w now).2
    (reload P read w now).1 = .ok unchangedResponse ∧ w.SameStore w' ∧
      (w.runCommands P after).SameStore (w'.runCommands P after) ∧ w'.answers P after = w.answers P after := by
  obtain ⟨houtcome, hstore⟩ := reload_unchanged P hw hm hload now
  exact ⟨houtcome, hstore, runCommands_congr P hstore after⟩

/-- A refused file is refused in every state, with the same outcome, and nothing happens.
Source: `config_reloader.rs` `reload`, up to the destructuring -/
theorem reload_refused {P : Platform} {read : String → ReadResult} {w w' : World M} (now later : Instant)
    (hpath : w'.lb.configPath = w.lb.configPath) (h : ∀ c, loadSettings P read w.lb.configPath ≠ .ok c) :
    reload P read w' later = ((reload P read w now).1, w') := by
  unfold reload
  rw [hpath]
  rcases hload : loadSettings P read w.lb.configPath with c | e | _
  · exact absurd hload (h c)
  · rfl
  · rfl

/-- **Reloading the same file again changes nothing.** In every sequential run, take a reload and another one of
the same file, with any selections, marks, metrics updates and health rounds in between, panicking ones
included. If the first is accepted the second reports no change, and if it is refused so is the second, for the
same reason. Both stores and all objects stay as they are, and without the second reload every later command
answers the same and leaves the same stores.
Source: `config_reloader.rs` `reload` -/
theorem reload_again_invisible {P : Platform} {config : Option Config} {path : String} {start : Instant}
    {w₀ : World M} (hnew : LoadBalancer.new M P.toLowercase config path start = some w₀)
    (before between after : List Command) (hbetween : ∀ cmd ∈ between, ∀ read now, cmd ≠ .reload read now)
    (read : String → ReadResult) (first second : Instant) :
    let w₁ := w₀.runCommands P before
    let w := (reload P read w₁ first).2.runCommands P between
    let w' := (reload P read w second).2
    ((∃ resp, (reload P read w₁ first).1 = .ok resp) → (reload P read w second).1 = .ok unchangedResponse) ∧
      ((∀ resp, (reload P read w₁ first).1 ≠ .ok resp) →
        (reload P read w second).1 = (reload P read w₁ first).1) ∧
      w.SameStore w' ∧ (w.runCommands P after).SameStore (w'.runCommands P after) ∧
      w'.answers P after = w.answers P after := by
  intro w₁ w w'
  obtain ⟨-, -, c₀, -, -, -, hstart⟩ := started_of_new hnew
  have hinv : w₁.WellFormed ∧ w₁.Matched :=
    Runs.invariant (fun w : World M => w.WellFormed ∧ w.Matched) (fun _ => True)
      (fun _ cmd _ h => invariant_perform P cmd h.1 h.2) (fun _ _ => trivial)
      ⟨hstart.wellFormed, hstart.matched⟩
  have hreloaded := invariant_reload P read first hinv.1 hinv.2
  have hkeeps : (reload P read w₁ first).2.Keeps w := keeps_runCommands P _ hbetween
  have hpath : w.lb.configPath = (reload P read w₁ first).2.lb.configPath := by rw [hkeeps.lb]
  by_cases haccepted : ∃ c, loadSettings P read w₁.lb.configPath = .ok c
  · obtain ⟨c, hload⟩ := haccepted
    have heq := reload_eq_ok first hload
    obtain ⟨-, -, -, -, -, -, -, hvalid⟩ := loadSettings_eq_ok hload
    have heffect := reloadEffect_execSections P hvalid first hinv.1
    have hok : (reload P read w₁ first).1 = .ok _ := congrArg Prod.fst heq
    rw [heq] at hkeeps hpath hreloaded
    have hforce : loadSettings P read w.lb.configPath = .ok w.lb.settings := by
      rw [hpath, heffect.configPath, hload, hkeeps.settings, heffect.settings]
    obtain ⟨houtcome, hstore, hafter⟩ := unchanged_reload_invisible P (hkeeps.wellFormed hreloaded.1)
      (hkeeps.matched hreloaded.2) hforce second after
    exact ⟨fun _ => houtcome, fun hno => absurd hok (hno _), hstore, hafter⟩
  · have hrefused : ∀ c, loadSettings P read w₁.lb.configPath ≠ .ok c := fun c hc => haccepted ⟨c, hc⟩
    have hfirst : (reload P read w₁ first).2 = w₁ :=
      congrArg Prod.snd (reload_refused first first rfl hrefused)
    rw [hfirst] at hpath
    have hsecond := reload_refused first second hpath hrefused
    have hstore : w.SameStore w' := by
      show w.SameStore (reload P read w second).2
      rw [hsecond]
      exact .refl w
    refine ⟨fun h => ?_, fun _ => by rw [hsecond], hstore, runCommands_congr P hstore after⟩
    obtain ⟨resp, hresp⟩ := h
    rcases reload_cases P read w₁ first with ⟨o, hreload, hno⟩ | ⟨c, hload, -⟩
    · rw [hreload] at hresp
      exact absurd hresp (hno resp)
    · exact absurd hload (hrefused c)

/-- `reload_again_invisible` in the sample world: a 429 between two reloads of its file. -/
theorem reload_again_invisible_sample :
    let w := (reload samplePlatform (fun _ => .content sampleFile) sampleWorld 1).2.runCommands samplePlatform
      [.operation (.markRateLimited "http://a" 5)]
    (reload samplePlatform (fun _ => .content sampleFile) w 9).1 = .ok unchangedResponse ∧
      w.SameStore (reload samplePlatform (fun _ => .content sampleFile) w 9).2 := by
  intro w
  obtain ⟨haccepted, -, hstore, -⟩ := reload_again_invisible (P := samplePlatform) new_sampleWorld []
    [.operation (.markRateLimited "http://a" 5)] [] (by simp) (fun _ => .content sampleFile) 1 9
  exact ⟨haccepted ⟨_, congrArg Prod.fst (reload_eq_ok 1 (loadSettings_sampleFile _))⟩, hstore⟩

end AzothBalancer
