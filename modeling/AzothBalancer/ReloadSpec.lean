import AzothBalancer.ConfigReloader

/-!
# What a reload computes

The specification of the merge loop and of a reload run alone.

* `MergedRecord` and `MergedLimiter` say what the loop makes of one configuration entry: the record
  of a known endpoint with its configuration replaced, or a new record with a new metrics object;
  the limiter already in the map, or a new one made from the entry's burst and rate.
* `mergeEndpoints_spec`: on valid settings the loop does not panic, produces one record for each
  entry in order, puts limiters only under the entries' URLs, and only adds to the heaps. The
  induction is on the entries; the state of the loop is general in it.
* `execSections_reloadProgram`: a reload run alone, with the merge loop's result as its only
  unknown.
-/

namespace AzothBalancer

variable {M : Meter}

/-! ## One entry -/

/-- The entry belongs to an endpoint whose rate and burst stay as they are. -/
def keepsLimiter (lb : LoadBalancer) (new : EndpointConfig) : Prop :=
  ∃ existing, lb.endpoint? new.url = some existing ∧
    existing.rateLimitPerSec = new.rateLimitPerSec ∧ existing.burstSize = new.burstSize

/-- The record the merge makes of an entry. -/
inductive MergedRecord (lb : LoadBalancer) (now : Instant) (old cur : RefHeap EndpointMetrics)
    (new : EndpointConfig) : RpcEndpoint → Prop where
  /-- A known endpoint keeps its state. -/
  | existing (ep : RpcEndpoint) (weight : ℕ) : lb.endpoint? new.url = some ep →
      new.weight = some weight →
      MergedRecord lb now old cur new
        (ep.reconfigured new.rateLimitPerSec new.burstSize weight)
  /-- A new endpoint starts afresh, with a metrics object of its own. -/
  | fresh (weight r : ℕ) : lb.endpoint? new.url = none → new.weight = some weight →
      ¬ old.Valid r → cur.get? r = some (.initial lb.timeoutSecs) →
      MergedRecord lb now old cur new
        (.initial new.url new.rateLimitPerSec new.burstSize weight now r)

/-- The limiter the merge puts under an entry's URL: the current one if the rate and the burst stay,
a new object otherwise. -/
structure MergedLimiter (lb : LoadBalancer) (old cur : RefHeap (RateLimiter M))
    (map : String → Option LimiterRef) (new : EndpointConfig) : Prop where
  kept : keepsLimiter lb new → map new.url = lb.rateLimiters new.url
  fresh : ¬ keepsLimiter lb new → ∃ r l, map new.url = some r ∧ ¬ old.Valid r ∧
    cur.get? r = some l ∧ createRateLimiter M new.burstSize new.rateLimitPerSec = some l

/-- A merged record has the entry's URL and configuration. -/
theorem MergedRecord.config {lb : LoadBalancer} {now : Instant} {old cur : RefHeap EndpointMetrics}
    {new : EndpointConfig} {ep : RpcEndpoint} (h : MergedRecord lb now old cur new ep) :
    ep.url = new.url ∧ ep.rateLimitPerSec = new.rateLimitPerSec ∧ ep.burstSize = new.burstSize ∧
      new.weight = some ep.weight := by
  cases h with
  | existing ep weight hep hw =>
      have hurl : ep.url = new.url := KeyedList.key_of_lookup hep
      exact ⟨hurl, rfl, rfl, hw⟩
  | fresh weight r hep hw hr hget => exact ⟨rfl, rfl, rfl, hw⟩

/-- A merged record stays one when the heap grows, and for every earlier heap. -/
theorem MergedRecord.mono {lb : LoadBalancer} {now : Instant}
    {old old' cur cur' : RefHeap EndpointMetrics} {new : EndpointConfig} {ep : RpcEndpoint}
    (hold : RefHeap.Extends old' old) (hcur : RefHeap.Extends cur cur')
    (h : MergedRecord lb now old cur new ep) : MergedRecord lb now old' cur' new ep := by
  cases h with
  | existing ep weight hep hw => exact .existing ep weight hep hw
  | fresh weight r hep hw hr hget =>
      refine .fresh weight r hep hw (fun hv => hr (hold.valid hv)) ?_
      rw [hcur.get? (RefHeap.valid_of_get? hget), hget]

/-- A merged limiter stays one when the heap grows and the map changes elsewhere, and for every
earlier heap. -/
theorem MergedLimiter.mono {lb : LoadBalancer} {old old' cur cur' : RefHeap (RateLimiter M)}
    {map map' : String → Option LimiterRef} {new : EndpointConfig}
    (hold : RefHeap.Extends old' old) (hcur : RefHeap.Extends cur cur')
    (hmap : map' new.url = map new.url) (h : MergedLimiter lb old cur map new) :
    MergedLimiter lb old' cur' map' new where
  kept hk := by rw [hmap, h.kept hk]
  fresh hk := by
    obtain ⟨r, l, hr, hv, hget, hl⟩ := h.fresh hk
    refine ⟨r, l, by rw [hmap, hr], fun hv' => hv (hold.valid hv'), ?_, hl⟩
    rw [hcur.get? (RefHeap.valid_of_get? hget), hget]

/-! ## One round of the loop -/

/-- What a stretch of the merge loop over the entries `new` does. -/
structure MergeStep (lb : LoadBalancer) (now : Instant) (new : List EndpointConfig)
    (s s' : MergeState M) (eps : List RpcEndpoint) : Prop where
  endpoints : s'.newRpcEndpoints = s.newRpcEndpoints ++ eps
  records : List.Forall₂ (MergedRecord lb now s.metrics s'.metrics) new eps
  limiters : ∀ e ∈ new, MergedLimiter lb s.limiters s'.limiters s'.newRateLimiters e
  elsewhere : ∀ u, u ∉ new.map EndpointConfig.url → s'.newRateLimiters u = s.newRateLimiters u
  metrics : RefHeap.Extends s.metrics s'.metrics
  limiterHeap : RefHeap.Extends s.limiters s'.limiters

/-- Inserting a fresh limiter for a valid entry succeeds: the map changes at the URL only, and the
limiter is a new object. -/
theorem insertFresh_spec (s : MergeState M) (url : String) {burst rate : ℕ} (hb : 0 < burst)
    (hr : 0 < rate) :
    ∃ l, createRateLimiter M burst rate = some l ∧ s.insertFresh url burst rate = some { s with
      limiters := (s.limiters.alloc l).1
      newRateLimiters := Function.update s.newRateLimiters url (some (s.limiters.alloc l).2) } := by
  obtain ⟨l, hl⟩ := createRateLimiter_isSome (M := M) hb hr
  refine ⟨l, hl, ?_⟩
  unfold MergeState.insertFresh
  rw [hl]
  rfl

/-- The fresh limiter of an entry, in the form the loop's specification uses. -/
theorem mergedLimiter_of_fresh {lb : LoadBalancer} {new : EndpointConfig}
    (hk : ¬ keepsLimiter lb new) {heap : RefHeap (RateLimiter M)} {l : RateLimiter M}
    (hl : createRateLimiter M new.burstSize new.rateLimitPerSec = some l)
    (map : String → Option LimiterRef) :
    MergedLimiter lb heap (heap.alloc l).1
      (Function.update map new.url (some (heap.alloc l).2)) new where
  kept hk' := absurd hk' hk
  fresh _ := ⟨_, l, Function.update_self .., RefHeap.not_valid_alloc, RefHeap.get?_alloc_self, hl⟩

/-- **One round of the merge loop** on a valid entry.
Source: `config_reloader.rs` `reload`, the second read section -/
theorem mergeEndpoint_spec (lb : LoadBalancer) (now : Instant) (s : MergeState M)
    {new : EndpointConfig} (hv : new.Valid) (hnew : s.newRateLimiters new.url = none) :
    ∃ s' ep, mergeEndpoint lb now s new = some s' ∧ MergeStep lb now [new] s s' [ep] := by
  obtain ⟨weight, hw⟩ := Option.isSome_iff_exists.mp hv.weight
  have helse : ∀ (m : String → Option LimiterRef) (v : Option LimiterRef) (u : String),
      u ∉ [new].map EndpointConfig.url → Function.update m new.url v u = m u := by
    intro m v u hu
    exact Function.update_of_ne (by simpa using hu) _ _
  unfold mergeEndpoint
  rw [hw]
  simp only [Option.bind_eq_bind, Option.bind_some]
  cases hep : lb.endpoint? new.url with
  | some existing =>
      have hrec : List.Forall₂ (MergedRecord lb now s.metrics s.metrics) [new]
          [existing.reconfigured new.rateLimitPerSec new.burstSize weight] :=
        .cons (.existing existing weight hep hw) .nil
      simp only
      split
      · rename_i hchg
        -- rate or burst changed: a new limiter
        have hk : ¬ keepsLimiter lb new := by
          rintro ⟨ep, h, hr, hb⟩
          rw [hep] at h
          cases h
          exact hchg.elim (· hr) (· hb)
        obtain ⟨l, hl, hins⟩ := insertFresh_spec
          { s with newRpcEndpoints := s.newRpcEndpoints ++
              [existing.reconfigured new.rateLimitPerSec new.burstSize weight] }
          new.url hv.burst hv.rate
        exact ⟨_, _, hins, {
          endpoints := rfl
          records := hrec
          limiters := by simpa using mergedLimiter_of_fresh hk hl _
          elsewhere := helse _ _
          metrics := .refl _
          limiterHeap := RefHeap.extends_alloc _ _ }⟩
      · rename_i hchg
        rw [not_or, not_not, not_not] at hchg
        have hk : keepsLimiter lb new := ⟨existing, hep, hchg⟩
        cases hlim : lb.rateLimiters new.url with
        | some r =>
            exact ⟨_, _, rfl, {
              endpoints := rfl
              records := hrec
              limiters := by
                intro e he
                rw [List.mem_singleton] at he
                subst he
                exact ⟨fun _ => by rw [hlim]; exact Function.update_self .., fun h => absurd hk h⟩
              elsewhere := helse _ _
              metrics := .refl _
              limiterHeap := .refl _ }⟩
        | none =>
            exact ⟨_, _, rfl, {
              endpoints := rfl
              records := hrec
              limiters := by
                intro e he
                rw [List.mem_singleton] at he
                subst he
                exact ⟨fun _ => by rw [hlim]; exact hnew, fun h => absurd hk h⟩
              elsewhere := fun _ _ => rfl
              metrics := .refl _
              limiterHeap := .refl _ }⟩
  | none =>
      have hk : ¬ keepsLimiter lb new := by
        rintro ⟨ep, h, -⟩
        rw [hep] at h
        cases h
      have hmet : (s.metrics.alloc (.initial lb.timeoutSecs)).1.get?
          (s.metrics.alloc (.initial lb.timeoutSecs)).2 = some (.initial lb.timeoutSecs) :=
        RefHeap.get?_alloc_self
      obtain ⟨l, hl, hins⟩ := insertFresh_spec
        { s with
          newRpcEndpoints := s.newRpcEndpoints ++ [.initial new.url new.rateLimitPerSec
            new.burstSize weight now (s.metrics.alloc (.initial lb.timeoutSecs)).2]
          metrics := (s.metrics.alloc (.initial lb.timeoutSecs)).1 }
        new.url hv.burst hv.rate
      simp only
      rw [hins]
      exact ⟨_, _, rfl, {
        endpoints := rfl
        records := .cons (.fresh weight _ hep hw RefHeap.not_valid_alloc hmet) .nil
        limiters := by simpa using mergedLimiter_of_fresh hk hl _
        elsewhere := helse _ _
        metrics := RefHeap.extends_alloc _ _
        limiterHeap := RefHeap.extends_alloc _ _ }⟩

/-- Two stretches of the merge loop over entries with distinct URLs make one. -/
theorem MergeStep.append {lb : LoadBalancer} {now : Instant} {es fs : List EndpointConfig}
    {s₁ s₂ s₃ : MergeState M} {eps fps : List RpcEndpoint}
    (hdis : ∀ e ∈ es, e.url ∉ fs.map EndpointConfig.url)
    (h₁ : MergeStep lb now es s₁ s₂ eps) (h₂ : MergeStep lb now fs s₂ s₃ fps) :
    MergeStep lb now (es ++ fs) s₁ s₃ (eps ++ fps) where
  endpoints := by rw [h₂.endpoints, h₁.endpoints, List.append_assoc]
  records := by
    refine List.rel_append ?_ ?_
    · exact h₁.records.imp fun _ _ h => h.mono (.refl _) h₂.metrics
    · exact h₂.records.imp fun _ _ h => h.mono h₁.metrics (.refl _)
  limiters := by
    intro e he
    rcases List.mem_append.mp he with he' | he'
    · exact (h₁.limiters e he').mono (.refl _) h₂.limiterHeap (h₂.elsewhere _ (hdis e he'))
    · exact (h₂.limiters e he').mono h₁.limiterHeap (.refl _) rfl
  elsewhere := by
    intro u hu
    rw [List.map_append, List.mem_append, not_or] at hu
    rw [h₂.elsewhere u hu.2, h₁.elsewhere u hu.1]
  metrics := h₁.metrics.trans h₂.metrics
  limiterHeap := h₁.limiterHeap.trans h₂.limiterHeap

/-- **The merge loop** on valid entries with distinct URLs, none of which has a limiter yet.
Source: `config_reloader.rs` `reload`, the second read section -/
theorem mergeEndpoints_spec (lb : LoadBalancer) (now : Instant) :
    ∀ (new : List EndpointConfig) (s : MergeState M), (∀ e ∈ new, e.Valid) →
      (new.map EndpointConfig.url).Nodup → (∀ e ∈ new, s.newRateLimiters e.url = none) →
      ∃ s' eps, mergeEndpoints lb now s new = some s' ∧ MergeStep lb now new s s' eps
  | [], s, _, _, _ => ⟨s, [], rfl, {
      endpoints := (List.append_nil _).symm
      records := .nil
      limiters := by simp
      elsewhere := fun _ _ => rfl
      metrics := .refl _
      limiterHeap := .refl _ }⟩
  | e :: es, s, hv, hn, hnone => by
      rw [List.map_cons, List.nodup_cons] at hn
      obtain ⟨s₁, ep, hs₁, hstep₁⟩ :=
        mergeEndpoint_spec lb now s (hv e List.mem_cons_self) (hnone e List.mem_cons_self)
      have hnone₁ : ∀ e' ∈ es, s₁.newRateLimiters e'.url = none := by
        intro e' he'
        have hne : e'.url ∉ [e].map EndpointConfig.url := by
          simp only [List.map_cons, List.map_nil, List.mem_singleton]
          exact fun h => hn.1 (h ▸ List.mem_map_of_mem he')
        rw [hstep₁.elsewhere _ hne]
        exact hnone e' (List.mem_cons_of_mem _ he')
      obtain ⟨s₂, eps, hs₂, hstep₂⟩ := mergeEndpoints_spec lb now es s₁
        (fun e' he' => hv e' (List.mem_cons_of_mem _ he')) hn.2 hnone₁
      refine ⟨s₂, ep :: eps, ?_, ?_⟩
      · unfold mergeEndpoints at hs₂ ⊢
        rw [List.foldlM_cons, hs₁]
        exact hs₂
      · have hdis : ∀ e' ∈ [e], e'.url ∉ es.map EndpointConfig.url := by simpa using hn.1
        have happ := MergeStep.append hdis hstep₁ hstep₂
        exact happ

/-! ## What the loop leaves -/

section result

variable {lb : LoadBalancer} {now : Instant} {new : List EndpointConfig} {start s : MergeState M}
  {eps : List RpcEndpoint}

/-- The merged records have the entries' URLs, in order. -/
theorem MergeStep.urls (h : MergeStep lb now new start s eps) :
    eps.map RpcEndpoint.url = new.map EndpointConfig.url :=
  (KeyedList.map_eq_of_forall₂ (fun _ _ hr => hr.config.1.symm) h.records).symm

/-- No merged record refers to a missing metrics object. -/
theorem MergeStep.metrics_valid (h : MergeStep lb now new start s eps)
    (hlb : ∀ ep ∈ lb.endpoints, start.metrics.Valid ep.metrics) :
    ∀ ep ∈ eps, s.metrics.Valid ep.metrics := by
  intro ep hep
  obtain ⟨e, -, hrec⟩ := KeyedList.exists_left_of_forall₂ h.records hep
  cases hrec with
  | existing old weight hold _ => exact h.metrics.valid (hlb old (KeyedList.mem_of_lookup hold))
  | fresh weight r _ _ _ hget => exact RefHeap.valid_of_get? hget

/-- The merged map has limiters under the entries' URLs only. -/
theorem MergeStep.mem_of_limiter (h : MergeStep lb now new start s eps)
    (hstart : start.newRateLimiters = fun _ => none) {url : String} {r : LimiterRef}
    (hr : s.newRateLimiters url = some r) : ∃ e ∈ new, e.url = url := by
  by_contra hn
  have hnot : url ∉ new.map EndpointConfig.url := fun hm => hn (List.mem_map.mp hm)
  rw [h.elsewhere url hnot, hstart] at hr
  cases hr

/-- The merged map refers to no missing limiter. -/
theorem MergeStep.limiters_valid (h : MergeStep lb now new start s eps)
    (hstart : start.newRateLimiters = fun _ => none)
    (hlb : ∀ url r, lb.rateLimiters url = some r → start.limiters.Valid r) :
    ∀ url r, s.newRateLimiters url = some r → s.limiters.Valid r := by
  intro url r hr
  obtain ⟨e, he, rfl⟩ := h.mem_of_limiter hstart hr
  by_cases hk : keepsLimiter lb e
  · rw [(h.limiters e he).kept hk] at hr
    exact h.limiterHeap.valid (hlb _ _ hr)
  · obtain ⟨r', l, hr', -, hl, -⟩ := (h.limiters e he).fresh hk
    rw [hr'] at hr
    cases hr
    exact RefHeap.valid_of_get? hl

/-- What the merge puts under an entry's URL was created from the entry's burst and rate, if that is
so of a limiter it carries over. -/
theorem MergeStep.params (h : MergeStep lb now new start s eps) {e : EndpointConfig} (he : e ∈ new)
    (hkeep : keepsLimiter lb e →
      (lb.rateLimiters e.url >>= start.limiters.get?).map RateLimiter.params =
        some (e.burstSize, e.rateLimitPerSec)) :
    (s.newRateLimiters e.url >>= s.limiters.get?).map RateLimiter.params =
      some (e.burstSize, e.rateLimitPerSec) := by
  by_cases hk : keepsLimiter lb e
  · rw [(h.limiters e he).kept hk, ← hkeep hk]
    have hold := hkeep hk
    cases hr : lb.rateLimiters e.url with
    | none => simp [hr] at hold
    | some r =>
        rw [hr] at hold
        obtain ⟨l, hl, -⟩ := Option.map_eq_some_iff.mp hold
        exact congrArg (Option.map RateLimiter.params) (h.limiterHeap.get? (RefHeap.valid_of_get? hl))
  · obtain ⟨r, l, hr, -, hl, hcreate⟩ := (h.limiters e he).fresh hk
    rw [hr]
    show (s.limiters.get? r).map RateLimiter.params = _
    rw [hl, Option.map_some, params_of_createRateLimiter hcreate]

end result

/-! ## The whole call -/

/-- The load balancer after the client sections: the client and the four stored settings are
replaced if one of the four differs. -/
def LoadBalancer.withClient (lb : LoadBalancer) (c : ClientSettings) : LoadBalancer :=
  if lb.clientSettings = c then lb
  else { lb with
    client := c
    connectTimeoutMs := c.connectTimeoutMs
    timeoutSecs := c.timeoutSecs
    poolIdleTimeoutSecs := c.poolIdleTimeoutSecs
    poolMaxIdlePerHost := c.poolMaxIdlePerHost }

/-- The load balancer after the eight publishing writes. -/
def LoadBalancer.published (lb : LoadBalancer) (c : Settings) (endpoints : List RpcEndpoint)
    (rateLimiters : String → Option LimiterRef) : LoadBalancer :=
  { lb with
    endpoints := endpoints
    rateLimiters := rateLimiters
    maxBatchSize := c.maxBatchSize
    baseCooldownSecs := c.baseCooldownSecs
    maxCooldownSecs := c.maxCooldownSecs
    healthCheckIntervalSecs := c.healthCheckIntervalSecs
    healthCheckTimeoutSecs := c.healthCheckTimeoutSecs
    latencySmoothingFactor := c.latencySmoothingFactor }

variable (P : Platform)

/-- Sections in two parts. -/
theorem execSections_append (c : Settings) (now : Instant) (w : World M) (frame : ReloadFrame)
    (as bs : List ReloadSection) :
    execSections P c now w frame (as ++ bs) =
      execSections P c now (execSections P c now w frame as).1
        (execSections P c now w frame as).2 bs :=
  List.foldl_append

/-- Sections by their first one. -/
theorem execSections_cons (c : Settings) (now : Instant) (w : World M) (frame : ReloadFrame)
    (a : ReloadSection) (bs : List ReloadSection) :
    execSections P c now w frame (a :: bs) =
      execSections P c now (execSection P c now w frame a).1 (execSection P c now w frame a).2 bs :=
  rfl

/-- No section. -/
theorem execSections_nil (c : Settings) (now : Instant) (w : World M) (frame : ReloadFrame) :
    execSections P c now w frame [] = (w, frame) := rfl

/-- Two groups of client settings that differ, differ in one of the four compared values. -/
theorem ClientSettings.any_ne_of_ne {a b : ClientSettings} (h : a ≠ b) :
    (a.get .connectTimeoutMs != b.get .connectTimeoutMs ||
      a.get .timeoutSecs != b.get .timeoutSecs ||
      a.get .poolIdleTimeoutSecs != b.get .poolIdleTimeoutSecs ||
      a.get .poolMaxIdlePerHost != b.get .poolMaxIdlePerHost) = true := by
  by_contra hc
  simp only [ClientSettings.get, Bool.or_eq_true, bne_iff_ne, not_or, not_not] at hc
  obtain ⟨⟨⟨h1, h2⟩, h3⟩, h4⟩ := hc
  apply h
  cases a
  cases b
  simp_all

/-- The client sections replace the client exactly if a setting differs.
Source: `config_reloader.rs` `reload` -/
theorem execSections_client (c : Settings) (now : Instant) (w : World M) :
    execSections P c now w {} clientSections =
      ({ w with lb := w.lb.withClient c.client },
        { clientSettingsChanged := decide (w.lb.clientSettings ≠ c.client) }) := by
  by_cases h : w.lb.clientSettings = c.client
  · simp [clientSections, execSections_cons, execSections_nil, execSection,
      LoadBalancer.withClient, h]
  · have hne := ClientSettings.any_ne_of_ne h
    simp only [clientSections, execSections_cons, execSections_nil, execSection,
      Bool.false_eq_true, if_false, Bool.false_or, hne, if_true, LoadBalancer.withClient, if_neg h]
    simp only [ne_eq, h, not_false_eq_true, decide_true]
    rfl

/-- The publishing writes.
Source: `config_reloader.rs` `reload`, "Atomically update the load balancer state" -/
theorem execSections_publish (c : Settings) (now : Instant) (w : World M) {frame : ReloadFrame}
    (h : frame.panicked = false) :
    execSections P c now w frame publishSections =
      ({ w with lb := w.lb.published c frame.newRpcEndpoints frame.newRateLimiters }, frame) := by
  simp only [publishSections, execSections_cons, execSections_nil, execSection, h,
    Bool.false_eq_true, if_false]
  rfl

/-- The registry after the sections that only write it: the series of removed endpoints are gone,
those of new ones are initialized by the merge, and the two totals are set. -/
def reloadedRegistry (c : Settings) (endpoints : List RpcEndpoint) (now : Instant)
    (merged : Registry) : Registry :=
  (merged.set .totalEndpoints [] c.endpoints.length).set .healthyEndpoints []
    (countAvailable (fun _ => now) endpoints)

/-- The client sections do not touch the endpoint list or the limiter map. -/
@[simp] theorem LoadBalancer.withClient_endpoints (lb : LoadBalancer) (c : ClientSettings) :
    (lb.withClient c).endpoints = lb.endpoints := by
  unfold LoadBalancer.withClient
  split <;> rfl

@[simp, inherit_doc LoadBalancer.withClient_endpoints]
theorem LoadBalancer.withClient_rateLimiters (lb : LoadBalancer) (c : ClientSettings) :
    (lb.withClient c).rateLimiters = lb.rateLimiters := by
  unfold LoadBalancer.withClient
  split <;> rfl

@[simp, inherit_doc LoadBalancer.withClient_endpoints]
theorem LoadBalancer.withClient_endpoint? (lb : LoadBalancer) (c : ClientSettings) (url : String) :
    (lb.withClient c).endpoint? url = lb.endpoint? url := by
  unfold LoadBalancer.endpoint?
  rw [LoadBalancer.withClient_endpoints]

/-- After the client sections the stored client settings are the new ones. -/
theorem LoadBalancer.withClient_clientSettings (lb : LoadBalancer) (c : ClientSettings) :
    (lb.withClient c).clientSettings = c := by
  unfold LoadBalancer.withClient
  split
  · assumption
  · rfl

/-- The state the merge loop of a reload run alone starts in: the series of removed endpoints are gone. -/
def mergeStartAlone (P : Platform) (c : Settings) (w : World M) : MergeState M :=
  ⟨[], fun _ => none, w.metrics, w.limiters,
    (diffSection P w.lb c {}).endpointsRemoved.foldl (fun m url => cleanupEndpointMetrics url m) w.prom⟩

/-- A reload run alone, by its merge loop. -/
theorem execSections_reloadProgram_merge {c : Settings} (now : Instant) (w : World M) (hc : c.Valid) :
    ∃ (s : MergeState M) (eps : List RpcEndpoint),
      mergeEndpoints (w.lb.withClient c.client) now (mergeStartAlone P c w) c.endpoints = some s ∧
      MergeStep (w.lb.withClient c.client) now c.endpoints (mergeStartAlone P c w) s eps ∧
      execSections P c now w {} reloadProgram =
        ({ lb := (w.lb.withClient c.client).published c eps s.newRateLimiters
           metrics := s.metrics
           limiters := s.limiters
           prom := reloadedRegistry c eps now s.prom },
          { diffSection P w.lb c {} with
            clientSettingsChanged := decide (w.lb.clientSettings ≠ c.client)
            newRpcEndpoints := eps
            newRateLimiters := s.newRateLimiters }) := by
  obtain ⟨s, eps, hs, hstep⟩ := mergeEndpoints_spec (w.lb.withClient c.client) now c.endpoints
    (mergeStartAlone P c w) hc.endpoint hc.nodup (fun _ _ => rfl)
  have heps : s.newRpcEndpoints = eps := hstep.endpoints
  refine ⟨s, eps, hs, hstep, ?_⟩
  have hread : execSections P c now { w with lb := w.lb.withClient c.client }
      { clientSettingsChanged := decide (w.lb.clientSettings ≠ c.client) }
      [.diff, .cleanup, .merge] =
        ({ lb := w.lb.withClient c.client, metrics := s.metrics, limiters := s.limiters,
           prom := s.prom },
          { diffSection P w.lb c {} with
            clientSettingsChanged := decide (w.lb.clientSettings ≠ c.client)
            newRpcEndpoints := eps
            newRateLimiters := s.newRateLimiters }) := by
    have hm : mergeEndpoints (w.lb.withClient c.client) now (World.mergeStart
        ⟨w.lb.withClient c.client, w.metrics, w.limiters, (diffSection P w.lb c {}).endpointsRemoved.foldl
          (fun m url => cleanupEndpointMetrics url m) w.prom⟩) c.endpoints = some s := hs
    have hdiff : ∀ b, diffSection P (w.lb.withClient c.client) c { clientSettingsChanged := b } =
        { diffSection P w.lb c {} with clientSettingsChanged := b } := by
      intro b
      simp [diffSection]
    have hp : (diffSection P w.lb c {}).panicked = false := rfl
    simp only [execSections_cons, execSections_nil, execSection, Bool.false_eq_true, if_false, hdiff,
      hp, mergeSection]
    rw [hm, ← heps]
  unfold reloadProgram
  rw [execSections_append, execSections_append, execSections_append, execSections_client, hread,
    execSections_publish]
  · rfl
  · rfl

/-- **A reload run alone**, given what its merge loop computes: the client is replaced, the changes
are reported against the old endpoints, and the merged list, the merged map and the six settings
are published.
Source: `config_reloader.rs` `reload` -/
theorem execSections_reloadProgram {c : Settings} (now : Instant) (w : World M) (hc : c.Valid) :
    ∃ (start s : MergeState M) (eps : List RpcEndpoint),
      start.newRpcEndpoints = [] ∧ start.newRateLimiters = (fun _ => none) ∧
      start.metrics = w.metrics ∧ start.limiters = w.limiters ∧
      MergeStep (w.lb.withClient c.client) now c.endpoints start s eps ∧
      execSections P c now w {} reloadProgram =
        ({ lb := (w.lb.withClient c.client).published c eps s.newRateLimiters
           metrics := s.metrics
           limiters := s.limiters
           prom := reloadedRegistry c eps now s.prom },
          { diffSection P w.lb c {} with
            clientSettingsChanged := decide (w.lb.clientSettings ≠ c.client)
            newRpcEndpoints := eps
            newRateLimiters := s.newRateLimiters }) := by
  obtain ⟨s, eps, -, hstep, hexec⟩ := execSections_reloadProgram_merge P now w hc
  exact ⟨mergeStartAlone P c w, s, eps, rfl, rfl, rfl, rfl, hstep, hexec⟩

/-- The settings a reload is going to apply are valid: they come from a finalized configuration.
Source: `config_reloader.rs` `reload` -/
theorem loadSettings_eq_ok {P : Platform} {read : String → ReadResult} {path : String} {c : Settings}
    (h : loadSettings P read path = .ok c) :
    ∃ raw finalized b, tryLoadConfig P read path = .ok raw ∧
      (raw.getD {}).finalize P.toLowercase = .ok finalized ∧ finalized.balancer = some b ∧
      b.destructure = some c ∧ c.Valid := by
  unfold loadSettings at h
  cases hraw : tryLoadConfig P read path with
  | error e => simp [hraw] at h
  | ok raw =>
      cases hfin : (raw.getD {}).finalize P.toLowercase with
      | err e => simp [hraw, hfin] at h
      | panic => simp [hraw, hfin] at h
      | ok finalized =>
          obtain ⟨b, -, c', -, -, hb, -, hc, hvalid, -⟩ := valid_of_finalize hfin
          simp only [hraw, hfin, hb, hc, Outcome.ok.injEq] at h
          subst h
          exact ⟨raw, finalized, b, rfl, hfin, hb, hc, hvalid⟩

/-- A reload whose configuration is accepted runs its sections and answers `Ok`.
Source: `config_reloader.rs` `reload` -/
theorem reload_eq_ok {P : Platform} {read : String → ReadResult} {w : World M} {c : Settings}
    (now : Instant) (h : loadSettings P read w.lb.configPath = .ok c) :
    reload P read w now = (.ok (execSections P c now w {} reloadProgram).2.response,
      (execSections P c now w {} reloadProgram).1) := by
  obtain ⟨-, -, -, -, -, -, -, hvalid⟩ := loadSettings_eq_ok h
  have hpan : (execSections P c now w {} reloadProgram).2.panicked = false := by
    obtain ⟨_, _, _, _, _, _, _, _, heq⟩ := execSections_reloadProgram P now w hvalid
    rw [heq]
    rfl
  unfold reload
  simp [h, hpan]

/-- **A reload** either ends before it has touched anything, or applies valid settings and answers
with the changes.
Source: `config_reloader.rs` `reload` -/
theorem reload_cases (P : Platform) (read : String → ReadResult) (w : World M) (now : Instant) :
    (∃ o, reload P read w now = (o, w) ∧ ∀ resp, o ≠ .ok resp) ∨
      ∃ c, loadSettings P read w.lb.configPath = .ok c ∧ c.Valid ∧
        reload P read w now = (.ok (execSections P c now w {} reloadProgram).2.response,
          (execSections P c now w {} reloadProgram).1) := by
  cases hload : loadSettings P read w.lb.configPath with
  | panic =>
      refine Or.inl ⟨.panic, ?_, by simp⟩
      unfold reload
      rw [hload]
  | err e =>
      refine Or.inl ⟨.err e, ?_, by simp⟩
      unfold reload
      rw [hload]
  | ok c =>
      obtain ⟨-, -, -, -, -, -, -, hvalid⟩ := loadSettings_eq_ok hload
      exact Or.inr ⟨c, rfl, hvalid, reload_eq_ok now hload⟩

end AzothBalancer
