import AzothBalancer.Instances
import AzothBalancer.Lib.Runs
import AzothBalancer.Operation
import AzothBalancer.ReloadSpec

/-!
# The store over sequential runs

A `Command` is an operation, a whole health round or a whole reload, and a sequential run performs
one command after another. The store's invariant is `World.WellFormed` together with
`World.Matched`:

* startup establishes it (`Started.wellFormed`, `Started.matched`);
* what keeps the frame of an operation keeps it (`World.Keeps.wellFormed`, `World.Keeps.matched`);
* a reload keeps it (`invariant_reload`): a fresh limiter fits by construction, a limiter carried over
  fits because it fitted before, and the one case in which the merge inserts no limiter, an unchanged
  endpoint without one, is excluded by the invariant itself.
-/

namespace AzothBalancer

variable {M : Meter}

/-! ## Commands -/

/-- What happens to the balancer, one at a time. -/
inductive Command where
  | operation (op : Operation)
  | healthRound (results : List (String × Bool)) (now : Instant)
  | reload (read : String → ReadResult) (now : Instant)

/-- Performs a command: the world afterwards, and whether an addition to the clock panicked. A reload
adds nothing to the clock. -/
def World.perform (P : Platform) (w : World M) : Command → World M × Bool
  | .operation op => w.exec op
  | .healthRound results now => performHealthChecks w results now
  | .reload read now => ((AzothBalancer.reload P read w now).2, false)

/-- A health round run alone is in the frame of an operation.
Source: `utils/health.rs` `perform_health_checks` -/
theorem keeps_performHealthChecks (w : World M) (results : List (String × Bool)) (now : Instant) :
    w.Keeps (performHealthChecks w results now).1 := by
  unfold performHealthChecks
  dsimp only
  have hobs : ∀ prom, w.Keeps { w with prom := prom } :=
    fun _ => World.SameStore.keeps ⟨rfl, rfl, rfl⟩
  split
  · rename_i w' hw'
    exact (hobs _).trans (keeps_of_applyHealthResults hw')
  · rename_i w' hw'
    have happ := (hobs _).trans (keeps_of_applyHealthResults hw')
    exact happ.trans (World.SameStore.keeps ⟨rfl, rfl, rfl⟩)

/-! ## The frame keeps the invariant -/

section frame

variable {w w' : World M}

/-- In the frame, every record continues one with the same profile. -/
theorem World.Keeps.exists_profile (h : w.Keeps w') {ep : RpcEndpoint} (hep : ep ∈ w'.lb.endpoints) :
    ∃ ep₀ ∈ w.lb.endpoints, ep₀.profile = ep.profile := by
  have hm : ep.profile ∈ w.lb.endpoints.map RpcEndpoint.profile :=
    h.profiles ▸ List.mem_map_of_mem hep
  exact List.mem_map.mp hm

/-- In the frame, the URLs stay. -/
theorem World.Keeps.urls (h : w.Keeps w') :
    w'.lb.endpoints.map RpcEndpoint.url = w.lb.endpoints.map RpcEndpoint.url := by
  have hm := congrArg (List.map EndpointProfile.url) h.profiles
  simpa [List.map_map, Function.comp_def, RpcEndpoint.profile] using hm

/-- In the frame, the same URLs are listed. -/
theorem World.Keeps.endpoint?_eq_none (h : w.Keeps w') {url : String} :
    w'.lb.endpoint? url = none ↔ w.lb.endpoint? url = none := by
  unfold LoadBalancer.endpoint?
  rw [KeyedList.lookup_eq_none_iff, KeyedList.lookup_eq_none_iff, h.urls]

/-- In the frame, the limiter map stays. -/
theorem World.Keeps.rateLimiters (h : w.Keeps w') : w'.lb.rateLimiters = w.lb.rateLimiters := by
  rw [h.lb]

/-- In the frame, the cooldown bounds stay. -/
theorem World.Keeps.bounds (h : w.Keeps w') :
    w'.lb.baseCooldownSecs = w.lb.baseCooldownSecs ∧
      w'.lb.maxCooldownSecs = w.lb.maxCooldownSecs := by
  rw [h.lb]
  exact ⟨rfl, rfl⟩

/-- In the frame, the creation record under a URL stays. -/
theorem World.Keeps.limiterParams (h : w.Keeps w') (url : String) :
    w'.limiterParams url = w.limiterParams url := by
  unfold World.limiterParams World.limiter?
  rw [h.rateLimiters]
  cases w.lb.rateLimiters url with
  | none => rfl
  | some r => exact h.limiters r

/-- The frame keeps well-formedness. -/
theorem World.Keeps.wellFormed (h : w.Keeps w') (hw : w.WellFormed) : w'.WellFormed where
  nodup := h.urls ▸ hw.nodup
  metrics ep hep := by
    obtain ⟨ep₀, hep₀, hprof⟩ := h.exists_profile hep
    have hm : ep₀.metrics = ep.metrics := congrArg EndpointProfile.metrics hprof
    rw [← hm, h.metrics]
    exact hw.metrics ep₀ hep₀
  limiters url r hr := by
    rw [h.rateLimiters] at hr
    obtain ⟨l, hl⟩ := RefHeap.valid_iff_exists.mp (hw.limiters url r hr)
    have hp := h.limiters r
    rw [hl] at hp
    obtain ⟨l', hl', -⟩ := Option.map_eq_some_iff.mp hp
    exact RefHeap.valid_of_get? hl'

/-- The frame keeps limiters and endpoints matched. -/
theorem World.Keeps.matched (h : w.Keeps w') (hw : w.Matched) : w'.Matched where
  keys url := by
    rw [h.rateLimiters, h.urls]
    exact hw.keys url
  params ep hep := by
    obtain ⟨ep₀, hep₀, hprof⟩ := h.exists_profile hep
    have hurl : ep₀.url = ep.url := congrArg EndpointProfile.url hprof
    have hburst : ep₀.burstSize = ep.burstSize := congrArg EndpointProfile.burstSize hprof
    have hrate : ep₀.rateLimitPerSec = ep.rateLimitPerSec :=
      congrArg EndpointProfile.rateLimitPerSec hprof
    rw [h.limiterParams, ← hurl, ← hburst, ← hrate]
    exact hw.params ep₀ hep₀

end frame

/-! ## Startup establishes the invariant -/

/-- The records of a configuration: one for each entry, with its URL, and a metrics object.
Source: `balancer.rs` `LoadBalancer::new` -/
theorem newEndpoints_spec (timeoutSecs : ℕ) (now : Instant) :
    ∀ (es : List EndpointConfig) {heap heap' : RefHeap EndpointMetrics} {eps : List RpcEndpoint},
      newEndpoints timeoutSecs now es heap = some (eps, heap') →
      RefHeap.Extends heap heap' ∧
        List.Forall₂ (fun e ep => ∃ weight r, e.weight = some weight ∧
          heap'.get? r = some (.initial timeoutSecs) ∧
          ep = .initial e.url e.rateLimitPerSec e.burstSize weight now r) es eps
  | [], heap, heap', eps, h => by
      cases h
      exact ⟨.refl _, .nil⟩
  | e :: es, heap, heap', eps, h => by
      rw [newEndpoints] at h
      obtain ⟨weight, hw, h⟩ := Option.bind_eq_some_iff.mp h
      obtain ⟨⟨rest, heap₂⟩, hrest, h⟩ := Option.bind_eq_some_iff.mp h
      cases h
      obtain ⟨hext, hall⟩ := newEndpoints_spec timeoutSecs now es hrest
      exact ⟨(RefHeap.extends_alloc _ _).trans hext,
        .cons ⟨weight, _, hw, RefHeap.Extends.get?_alloc hext, rfl⟩ hall⟩

/-- The limiter loop, for endpoints with distinct URLs: each gets a limiter made from its burst and
rate, and the map does not change elsewhere.
Source: `balancer.rs` `LoadBalancer::new` -/
theorem newLimiters_spec :
    ∀ (eps : List RpcEndpoint) {map map' : String → Option LimiterRef}
      {heap heap' : RefHeap (RateLimiter M)},
      newLimiters M eps map heap = some (map', heap') → (eps.map RpcEndpoint.url).Nodup →
      RefHeap.Extends heap heap' ∧
        (∀ u, u ∉ eps.map RpcEndpoint.url → map' u = map u) ∧
        ∀ ep ∈ eps, ∃ r l, map' ep.url = some r ∧ heap'.get? r = some l ∧
          createRateLimiter M ep.burstSize ep.rateLimitPerSec = some l
  | [], map, map', heap, heap', h, _ => by
      cases h
      exact ⟨.refl _, fun _ _ => rfl, by simp⟩
  | ep :: eps, map, map', heap, heap', h, hn => by
      rw [newLimiters] at h
      obtain ⟨l, hl, h⟩ := Option.bind_eq_some_iff.mp h
      rw [List.map_cons, List.nodup_cons] at hn
      obtain ⟨hext, helse, hall⟩ := newLimiters_spec eps h hn.2
      refine ⟨(RefHeap.extends_alloc _ _).trans hext, ?_, ?_⟩
      · intro u hu
        rw [List.map_cons, List.mem_cons, not_or] at hu
        rw [helse u hu.2, Function.update_of_ne hu.1]
      · intro ep' hep'
        rcases List.mem_cons.mp hep' with rfl | hep'
        · refine ⟨(heap.alloc l).2, l, ?_, RefHeap.Extends.get?_alloc hext, hl⟩
          rw [helse _ hn.1]
          exact Function.update_self ..
        · exact hall ep' hep'

/-- What startup makes of the settings `c`. -/
structure Started (c : Settings) (now : Instant) (w : World M) : Prop where
  valid : c.Valid
  records : List.Forall₂ (fun e ep => ∃ weight r, e.weight = some weight ∧
    w.metrics.get? r = some (.initial c.timeoutSecs) ∧
    ep = .initial e.url e.rateLimitPerSec e.burstSize weight now r) c.endpoints w.lb.endpoints
  limiters : ∀ ep ∈ w.lb.endpoints, ∃ r l, w.lb.rateLimiters ep.url = some r ∧
    w.limiters.get? r = some l ∧ createRateLimiter M ep.burstSize ep.rateLimitPerSec = some l
  elsewhere : ∀ url, url ∉ w.lb.endpoints.map RpcEndpoint.url → w.lb.rateLimiters url = none
  published : w.lb = w.lb.published c w.lb.endpoints w.lb.rateLimiters
  client : w.lb.client = c.client
  clientSettings : w.lb.clientSettings = c.client

/-- Records made one by one from entries have the entries' URLs. -/
theorem urls_of_records {es : List EndpointConfig} {eps : List RpcEndpoint}
    {R : EndpointConfig → RpcEndpoint → Prop} (hR : ∀ e ep, R e ep → ep.url = e.url)
    (h : List.Forall₂ R es eps) : eps.map RpcEndpoint.url = es.map EndpointConfig.url :=
  (KeyedList.map_eq_of_forall₂ (fun e ep he => (hR e ep he).symm) h).symm

/-- **Startup**, by the settings of the finalized configuration.
Source: `balancer.rs` `LoadBalancer::new` -/
theorem started_of_new {lower : List Char → List Char} {config : Option Config} {path : String}
    {now : Instant} {w : World M} (h : LoadBalancer.new M lower config path now = some w) :
    ∃ finalized b c, (config.getD {}).finalize lower = .ok finalized ∧
      finalized.balancer = some b ∧ b.destructure = some c ∧ Started c now w := by
  unfold LoadBalancer.new at h
  cases hfin : (config.getD {}).finalize lower with
  | err e => simp [hfin] at h
  | panic => simp [hfin] at h
  | ok finalized =>
      obtain ⟨b, server, c, n, addr, hb, hserver, hc, hvalid, hn, haddr⟩ := valid_of_finalize hfin
      simp only [hfin, hserver, hb, hc, hn, haddr, Option.bind_eq_bind, Option.bind_some] at h
      obtain ⟨-, -, h⟩ := Option.bind_eq_some_iff.mp h
      obtain ⟨⟨eps, metrics⟩, heps, h⟩ := Option.bind_eq_some_iff.mp h
      obtain ⟨⟨map, limiters⟩, hlim, h⟩ := Option.bind_eq_some_iff.mp h
      cases h
      obtain ⟨-, hrec⟩ := newEndpoints_spec c.timeoutSecs now c.endpoints heps
      have hurls : eps.map RpcEndpoint.url = c.endpoints.map EndpointConfig.url :=
        urls_of_records (fun e ep ⟨_, _, _, _, he⟩ => he ▸ rfl) hrec
      obtain ⟨-, helse, hlims⟩ := newLimiters_spec eps hlim (hurls ▸ hvalid.nodup)
      exact ⟨finalized, b, c, rfl, hb, hc, {
        valid := hvalid
        records := hrec
        limiters := hlims
        elsewhere := helse
        published := rfl
        client := rfl
        clientSettings := rfl }⟩

/-- Startup gives every URL one record. -/
theorem Started.urls {c : Settings} {now : Instant} {w : World M} (h : Started c now w) :
    w.lb.endpoints.map RpcEndpoint.url = c.endpoints.map EndpointConfig.url :=
  urls_of_records (fun _ _ ⟨_, _, _, _, he⟩ => he ▸ rfl) h.records

/-- Startup establishes well-formedness. -/
theorem Started.wellFormed {c : Settings} {now : Instant} {w : World M} (h : Started c now w) :
    w.WellFormed where
  nodup := h.urls ▸ h.valid.nodup
  metrics ep hep := by
    obtain ⟨e, -, weight, r, -, hr, rfl⟩ := KeyedList.exists_left_of_forall₂ h.records hep
    exact RefHeap.valid_of_get? hr
  limiters url r hr := by
    have hmem : url ∈ w.lb.endpoints.map RpcEndpoint.url := by
      by_contra hn
      rw [h.elsewhere url hn] at hr
      cases hr
    obtain ⟨ep, hep, rfl⟩ := List.mem_map.mp hmem
    obtain ⟨r', l, hr', hl, -⟩ := h.limiters ep hep
    rw [hr'] at hr
    cases hr
    exact RefHeap.valid_of_get? hl

/-- At startup every endpoint has the vitals of a new one. -/
theorem vitals_of_new {lower : List Char → List Char} {config : Option Config} {path : String}
    {now : Instant} {w : World M} (h : LoadBalancer.new M lower config path now = some w) {url : String}
    {v : Vitals} (hv : w.lb.vitals url = some v) : v = .initial := by
  obtain ⟨-, -, c, -, -, -, hstart⟩ := started_of_new h
  obtain ⟨ep, hep, rfl⟩ := Option.map_eq_some_iff.mp hv
  obtain ⟨e, -, weight, r, -, -, rfl⟩ :=
    KeyedList.exists_left_of_forall₂ hstart.records (KeyedList.mem_of_lookup hep)
  rfl

/-- The creation record under a URL, from the limiter found there. -/
theorem limiterParams_of_create {w : World M} {url : String} {r : LimiterRef} {l : RateLimiter M}
    {burst rate : ℕ} (hr : w.lb.rateLimiters url = some r) (hl : w.limiters.get? r = some l)
    (hc : createRateLimiter M burst rate = some l) : w.limiterParams url = some (burst, rate) := by
  unfold World.limiterParams World.limiter?
  rw [hr]
  simp [hl, params_of_createRateLimiter hc]

/-- Startup matches limiters and endpoints. -/
theorem Started.matched {c : Settings} {now : Instant} {w : World M} (h : Started c now w) :
    w.Matched where
  keys url := by
    constructor
    · intro hsome
      by_contra hn
      rw [h.elsewhere url hn] at hsome
      cases hsome
    · intro hmem
      obtain ⟨ep, hep, rfl⟩ := List.mem_map.mp hmem
      obtain ⟨r, l, hr, -, -⟩ := h.limiters ep hep
      rw [hr]
      rfl
  params ep hep := by
    obtain ⟨r, l, hr, hl, hc⟩ := h.limiters ep hep
    exact limiterParams_of_create hr hl hc

/-! ## A reload keeps the invariant -/

section reload

variable {c : Settings} {w : World M} {start s : MergeState M} {eps : List RpcEndpoint}
  {lb : LoadBalancer} {now : Instant} {prom : Registry}

/-- The world a reload leaves, as far as the store is concerned. -/
def World.afterMerge (lb : LoadBalancer) (c : Settings) (eps : List RpcEndpoint) (s : MergeState M)
    (prom : Registry) : World M where
  lb := lb.published c eps s.newRateLimiters
  metrics := s.metrics
  limiters := s.limiters
  prom := prom

/-- A reload of a well-formed store leaves a well-formed store. -/
theorem wellFormed_afterMerge (hc : c.Valid) (hw : w.WellFormed) (heps : lb.endpoints = w.lb.endpoints)
    (hmap : lb.rateLimiters = w.lb.rateLimiters) (hmet : start.metrics = w.metrics)
    (hlim : start.limiters = w.limiters) (hstart : start.newRateLimiters = fun _ => none)
    (h : MergeStep lb now c.endpoints start s eps) :
    (World.afterMerge lb c eps s prom).WellFormed where
  nodup := by
    show (eps.map RpcEndpoint.url).Nodup
    rw [h.urls]
    exact hc.nodup
  metrics := h.metrics_valid (by rw [heps, hmet]; exact hw.metrics)
  limiters := h.limiters_valid hstart (by rw [hmap, hlim]; exact hw.limiters)

/-- The endpoint record under a URL, in a well-formed store. -/
theorem World.WellFormed.endpoint?_of_mem (hw : w.WellFormed) {ep : RpcEndpoint}
    (hep : ep ∈ w.lb.endpoints) : w.lb.endpoint? ep.url = some ep :=
  KeyedList.lookup_of_mem hw.nodup hep

/-- What a reload of a matched store puts under an entry's URL: a limiter made from the entry's burst
and rate. A limiter that is carried over was matched before. -/
theorem params_afterMerge (hw : ∀ ep ∈ w.lb.endpoints,
      w.limiterParams ep.url = some (ep.burstSize, ep.rateLimitPerSec)) (heps : lb.endpoints = w.lb.endpoints)
    (hmap : lb.rateLimiters = w.lb.rateLimiters) (hlim : start.limiters = w.limiters)
    (h : MergeStep lb now c.endpoints start s eps) {e : EndpointConfig} (he : e ∈ c.endpoints) :
    (World.afterMerge lb c eps s prom).limiterParams e.url =
      some (e.burstSize, e.rateLimitPerSec) := by
  refine h.params he fun hk => ?_
  obtain ⟨old, hold, hrate, hburst⟩ := hk
  have hmem : old ∈ w.lb.endpoints := heps ▸ KeyedList.mem_of_lookup hold
  have hurl : old.url = e.url := KeyedList.key_of_lookup hold
  have hparams : w.limiterParams old.url = some (old.burstSize, old.rateLimitPerSec) := hw old hmem
  rw [hurl, hburst, hrate] at hparams
  rw [hmap, hlim]
  exact hparams

/-- A reload of a matched store leaves a matched store. -/
theorem matched_afterMerge (hw : w.Matched) (heps : lb.endpoints = w.lb.endpoints)
    (hmap : lb.rateLimiters = w.lb.rateLimiters) (hlim : start.limiters = w.limiters)
    (hstart : start.newRateLimiters = fun _ => none)
    (h : MergeStep lb now c.endpoints start s eps) :
    (World.afterMerge lb c eps s prom).Matched where
  keys url := by
    show (s.newRateLimiters url).isSome ↔ url ∈ eps.map RpcEndpoint.url
    rw [h.urls]
    constructor
    · intro hsome
      obtain ⟨r, hr⟩ := Option.isSome_iff_exists.mp hsome
      obtain ⟨e, he, rfl⟩ := h.mem_of_limiter hstart hr
      exact List.mem_map_of_mem he
    · intro hmem
      obtain ⟨e, he, rfl⟩ := List.mem_map.mp hmem
      have hp : (World.afterMerge lb c eps s prom).limiterParams e.url = _ :=
        params_afterMerge hw.params heps hmap hlim h he
      unfold World.limiterParams World.limiter? at hp
      by_contra hn
      rw [Option.not_isSome_iff_eq_none] at hn
      have hnone : (World.afterMerge lb c eps s prom).lb.rateLimiters e.url = none := hn
      rw [hnone] at hp
      cases hp
  params ep hep := by
    obtain ⟨e, he, hrec⟩ := KeyedList.exists_left_of_forall₂ h.records hep
    obtain ⟨hurl, hrate, hburst, -⟩ := hrec.config
    rw [hurl, hrate, hburst]
    exact params_afterMerge hw.params heps hmap hlim h he

/-- **A reload keeps the store's invariant**, whatever the file holds.
Source: `config_reloader.rs` `reload` -/
theorem invariant_reload (P : Platform) (read : String → ReadResult) (now : Instant)
    (hw : w.WellFormed) (hm : w.Matched) :
    (reload P read w now).2.WellFormed ∧ (reload P read w now).2.Matched := by
  rcases reload_cases P read w now with ⟨o, ho, -⟩ | ⟨c, -, hc, heq⟩
  · rw [ho]
    exact ⟨hw, hm⟩
  · obtain ⟨start, s, eps, -, hstart, hmet, hlim, hstep, hexec⟩ :=
      execSections_reloadProgram P now w hc
    rw [heq, hexec]
    exact ⟨wellFormed_afterMerge hc hw (by simp) (by simp) hmet hlim hstart hstep,
      matched_afterMerge hm (by simp) (by simp) hlim hstart hstep⟩

end reload

/-! ## Runs -/

/-- **Every command keeps the store's invariant.** -/
theorem invariant_perform (P : Platform) {w : World M} (cmd : Command) (hw : w.WellFormed)
    (hm : w.Matched) : (w.perform P cmd).1.WellFormed ∧ (w.perform P cmd).1.Matched := by
  cases cmd with
  | operation op => exact ⟨(keeps_exec w op).wellFormed hw, (keeps_exec w op).matched hm⟩
  | healthRound results now =>
      have hk := keeps_performHealthChecks w results now
      exact ⟨hk.wellFormed hw, hk.matched hm⟩
  | reload read now => exact invariant_reload P read now hw hm

/-- The state after a sequential run. -/
def World.runCommands (P : Platform) (w : World M) (cmds : List Command) : World M :=
  Runs.run (fun w cmd => (w.perform P cmd).1) w cmds

/-- **The store's invariant over sequential runs**: from the startup of any accepted configuration,
after any commands, URLs are pairwise distinct, the URLs with a limiter are the endpoints' URLs, and
every endpoint's limiter was created from its current burst and rate.
Source: `balancer.rs` `LoadBalancer::new`; `config_reloader.rs` `reload` -/
theorem store_invariant (P : Platform) {config : Option Config} {path : String} {now : Instant}
    {w : World M} (hnew : LoadBalancer.new M P.toLowercase config path now = some w)
    (cmds : List Command) :
    ((w.runCommands P cmds).lb.endpoints.map RpcEndpoint.url).Nodup ∧
      (∀ url, ((w.runCommands P cmds).lb.rateLimiters url).isSome ↔
        url ∈ (w.runCommands P cmds).lb.endpoints.map RpcEndpoint.url) ∧
      ∀ ep ∈ (w.runCommands P cmds).lb.endpoints,
        (w.runCommands P cmds).limiterParams ep.url = some (ep.burstSize, ep.rateLimitPerSec) := by
  obtain ⟨-, -, c, -, -, -, hstart⟩ := started_of_new hnew
  have hinv : (w.runCommands P cmds).WellFormed ∧ (w.runCommands P cmds).Matched :=
    Runs.invariant (fun w : World M => w.WellFormed ∧ w.Matched) (fun _ => True)
      (fun _ cmd _ h => invariant_perform P cmd h.1 h.2) (fun _ _ => trivial)
      ⟨hstart.wellFormed, hstart.matched⟩
  exact ⟨hinv.1.nodup, hinv.2.keys, hinv.2.params⟩

/-- `store_invariant` after a selection, a 429 and a reload to another endpoint. -/
theorem store_invariant_sample :
    let w := sampleWorld.runCommands samplePlatform [.operation (.getNextEndpoint 1 ⟨0, 0⟩),
      .operation (.markRateLimited "http://a" 5), .reload (fun _ => .content otherFile) 7]
    (w.lb.endpoints.map RpcEndpoint.url).Nodup ∧
      (∀ url, (w.lb.rateLimiters url).isSome ↔ url ∈ w.lb.endpoints.map RpcEndpoint.url) ∧
      ∀ ep ∈ w.lb.endpoints, w.limiterParams ep.url = some (ep.burstSize, ep.rateLimitPerSec) :=
  store_invariant samplePlatform new_sampleWorld _

end AzothBalancer
