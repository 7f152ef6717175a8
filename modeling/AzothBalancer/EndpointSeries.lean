import AzothBalancer.HandleRpc
import AzothBalancer.Instances
import AzothBalancer.RegistryFrame

/-!
# The series of endpoints

Eleven families carry an `endpoint` label. A reload removes the series of the endpoints it drops from
seven of them (`cleanedFamilies`) and leaves those of the other four (`leakedFamilies`).

Requests, health rounds and reloads run one at a time (`SequentialState.step`). In every state so reached
(`SeriesOwned`) the series of the seven families belong to current endpoints, and those of the four
belong exactly to the URLs that have ever been sent a request or a probe.

`series_cleaned_iff`: the reloads leave no foreign series behind exactly if each of them keeps every URL
that has been sent something before.
-/

namespace AzothBalancer

open JsonText (Json)

variable {M : Meter}

/-! ## Families with an endpoint label -/

/-- The families whose series a reload removes for the endpoints it drops.
Source: `config_reloader.rs` `cleanup_endpoint_metrics` -/
def cleanedFamilies : List Family :=
  [.cooldownSecondsGauge, .cooldownsTriggered, .endpointRateLimitDeferred, .rpcRequestsSucceeded,
    .rpcRequestsFailed, .healthcheckFailed, .requestLatencyPerEndpoint]

/-- The other families with an endpoint label.
Source: `utils/metrics.rs` -/
def leakedFamilies : List Family :=
  [.healthCheckLatency, .requestTimeouts, .upstreamRateLimitedTotal, .priorityEndpointSelected]

/-- No series of a family with an endpoint label carries another URL than these. The endpoint is the
first label of each of them. -/
def Registry.NoForeign (m : Registry) (urls : List String) : Prop :=
  ∀ f ∈ cleanedFamilies ++ leakedFamilies, ∀ labels, (m.series f labels).isSome →
    ∃ url ∈ urls, labels.head? = some url

/-! ## Sequential runs -/

/-- A request run alone, from its arrival to its answer; `u` is what the upstream does with it and `now`
the time of the mark, if one is made.
Source: `main.rs` `handle_rpc` -/
def completeRequest (fromSlice : List UInt8 → Except String Json) (displayStatus : ℕ → String)
    (w : World M) (body : List UInt8) (clock : Clock) (u : UpstreamCall) (now : Instant) : World M :=
  match handleRpc fromSlice false clock w body with
  | (.answered _, w) => w
  | (.handed _ url method, w) =>
      let w := (forwardRequest displayStatus w url method u now).2
      -- the guard that counts the request is dropped
      { w with prom := w.prom.incBy .concurrencyActivePermits [] (-1) }

/-- The world, and the URLs that have been sent a request or a probe. -/
structure SequentialState (M : Meter) where
  world : World M
  used : List String

/-- What runs from beginning to end with nothing in between. -/
inductive SequentialEvent where
  | request (body : List UInt8) (clock : Clock) (u : UpstreamCall) (now : Instant)
  | healthRound (results : List (String × Bool)) (now : Instant)
  | reload (read : String → ReadResult) (now : Instant)

section runs

variable (P : Platform) (fromSlice : List UInt8 → Except String Json) (displayStatus : ℕ → String)

/-- The URL a request is sent to. -/
def sentTo (w : World M) (body : List UInt8) (clock : Clock) : List String :=
  match (handleRpc fromSlice false clock w body).1 with
  | .answered _ => []
  | .handed _ url _ => [url]

/-- One event. A health round probes current endpoints only. -/
def SequentialState.step (s : SequentialState M) : SequentialEvent → SequentialState M
  | .request body clock u now =>
      { world := completeRequest fromSlice displayStatus s.world body clock u now
        used := s.used ++ sentTo fromSlice s.world body clock }
  | .healthRound results now =>
      if ∀ r ∈ results, r.1 ∈ s.world.urls then
        { world := (performHealthChecks s.world results now).1
          used := s.used ++ results.map Prod.fst }
      else s
  | .reload read now => { s with world := (AzothBalancer.reload P read s.world now).2 }

/-- After the event, if it is a successful reload, no series is foreign. -/
def SequentialState.CleansUp (s : SequentialState M) : SequentialEvent → Prop
  | .reload read now => ∀ resp w', AzothBalancer.reload P read s.world now = (.ok resp, w') →
      w'.prom.NoForeign w'.urls
  | _ => True

/-- A reload with an accepted configuration keeps every URL that has been sent something. -/
def SequentialState.KeepsUsed (s : SequentialState M) : SequentialEvent → Prop
  | .reload read _ => ∀ c, loadSettings P read s.world.lb.configPath = .ok c →
      ∀ url ∈ s.used, url ∈ c.endpoints.map EndpointConfig.url
  | _ => True

end runs

/-! ## Who owns a series -/

/-- Who owns the series of the state. -/
structure SequentialState.SeriesOwned (s : SequentialState M) : Prop where
  /-- The cleaned families have series of current endpoints only. -/
  cleaned : ∀ f ∈ cleanedFamilies, ∀ labels, (s.world.prom.series f labels).isSome →
    ∃ url ∈ s.world.urls, labels = [url]
  /-- The other families have series of URLs that have been used. -/
  leaked : ∀ f ∈ leakedFamilies, ∀ labels, (s.world.prom.series f labels).isSome →
    ∃ url ∈ s.used, labels.head? = some url
  /-- Every URL that has been used has such a series. -/
  used : ∀ url ∈ s.used, ∃ f ∈ leakedFamilies, ∃ labels, labels.head? = some url ∧
    (s.world.prom.series f labels).isSome

/-- Series that code may write which runs on the endpoints `urls` and sends something to `sent`. -/
def OwnedWrites (urls sent : List String) (f : Family) (labels : List String) : Prop :=
  (f ∈ cleanedFamilies → ∃ url ∈ urls, labels = [url]) ∧
    (f ∈ leakedFamilies → ∃ url ∈ sent, labels.head? = some url)

/-- The endpoints stay, and only such series are written. -/
structure World.Owns (sent : List String) (w w' : World M) : Prop where
  urls : w'.urls = w.urls
  writes : w.prom.Writes (OwnedWrites w.urls sent) w'.prom

/-- Nothing is written. -/
theorem World.Owns.refl (sent : List String) (w : World M) : w.Owns sent w := ⟨rfl, .refl _ w.prom⟩

/-- Writes compose. -/
theorem World.Owns.trans {sent : List String} {w₁ w₂ w₃ : World M} (h₁₂ : w₁.Owns sent w₂)
    (h₂₃ : w₂.Owns sent w₃) : w₁.Owns sent w₃ where
  urls := h₂₃.urls.trans h₁₂.urls
  writes := h₁₂.writes.trans (h₁₂.urls ▸ h₂₃.writes)

/-- One series is written. -/
theorem World.owns_put {sent : List String} {w : World M} {f : Family} {labels : List String}
    (h : OwnedWrites w.urls sent f labels) (v : ℤ) :
    w.Owns sent { w with prom := w.prom.put f labels (some v) } := ⟨rfl, Registry.writes_put h v⟩

/-- **Code that writes what it owns** and leaves a mark at every URL it sends something to. -/
theorem SequentialState.SeriesOwned.owns {s : SequentialState M} (h : s.SeriesOwned) {w' : World M}
    {sent : List String} (hw : s.world.Owns sent w')
    (hsent : ∀ url ∈ sent, ∃ f ∈ leakedFamilies, ∃ labels, labels.head? = some url ∧
      (w'.prom.series f labels).isSome) :
    SequentialState.SeriesOwned ⟨w', s.used ++ sent⟩ where
  cleaned f hf labels hm := by
    rw [hw.urls]
    rcases hw.writes.isSome hm with hold | hnew
    · exact h.cleaned f hf labels hold
    · exact hnew.1 hf
  leaked f hf labels hm := by
    rcases hw.writes.isSome hm with hold | hnew
    · obtain ⟨url, hurl, hhead⟩ := h.leaked f hf labels hold
      exact ⟨url, List.mem_append_left _ hurl, hhead⟩
    · obtain ⟨url, hurl, hhead⟩ := hnew.2 hf
      exact ⟨url, List.mem_append_right _ hurl, hhead⟩
  used url hurl := by
    rcases List.mem_append.mp hurl with hold | hnew
    · obtain ⟨f, hf, labels, hhead, hm⟩ := h.used url hold
      exact ⟨f, hf, labels, hhead, hw.writes.keeps f labels hm⟩
    · exact hsent url hnew

/-- A family without endpoint label belongs to nobody. -/
theorem ownedWrites_of_not_mem {f : Family} (hf : f ∉ cleanedFamilies ++ leakedFamilies)
    (urls sent labels : List String) : OwnedWrites urls sent f labels := by
  rw [List.mem_append, not_or] at hf
  exact ⟨fun h => absurd h hf.1, fun h => absurd h hf.2⟩

/-- A series of a current endpoint that is sent something. -/
theorem ownedWrites_singleton {urls sent : List String} {url : String} (hurl : url ∈ urls)
    (hsent : url ∈ sent) (f : Family) : OwnedWrites urls sent f [url] :=
  ⟨fun _ => ⟨url, hurl, rfl⟩, fun _ => ⟨url, hsent, rfl⟩⟩

/-- A series of a current endpoint in a cleaned family. -/
theorem ownedWrites_of_cleaned {urls : List String} {url : String} (hurl : url ∈ urls)
    (sent : List String) {f : Family} (hf : f ∉ leakedFamilies) : OwnedWrites urls sent f [url] :=
  ⟨fun _ => ⟨url, hurl, rfl⟩, fun h => absurd h hf⟩

/-- A selection owns what it writes, if it sends something to the endpoint it selects. -/
theorem ownedWrites_of_selection {urls : List String} {selected : Option String} {f : Family}
    {labels : List String} (h : SelectionWrites urls selected f labels) :
    OwnedWrites urls selected.toList f labels := by
  rcases h with h | rfl
  · unfold ScanWrites at h
    split at h
    · obtain ⟨url, hurl, rfl⟩ := h
      exact ownedWrites_of_cleaned hurl _ (by decide)
    · obtain ⟨url, rank, rfl, rfl⟩ := h
      exact ⟨fun hf => absurd hf (by decide), fun _ => ⟨url, by simp, rfl⟩⟩
    · exact h.elim
  · exact ownedWrites_of_not_mem (by decide) _ _ _

/-- A mark owns what it writes. -/
theorem ownedWrites_of_mark {urls : List String} {f : Family} {labels : List String}
    (h : MarkWrites urls f labels) (sent : List String) : OwnedWrites urls sent f labels := by
  unfold MarkWrites at h
  split at h
  · obtain ⟨url, hurl, rfl⟩ := h
    exact ownedWrites_of_cleaned hurl _ (by decide)
  · obtain ⟨url, hurl, rfl⟩ := h
    exact ownedWrites_of_cleaned hurl _ (by decide)
  · exact h.elim

/-- An operation writes what it owns. -/
theorem World.owns_exec (w : World M) (op : Operation) (sent : List String)
    (hsel : ∀ n clock, op = .getNextEndpoint n clock → sent = (getNextEndpoint w n clock).1.toList) :
    w.Owns sent (w.exec op).1 where
  urls := (keeps_exec w op).urls
  writes := by
    apply (writes_exec w op).mono
    intro f labels h
    unfold World.OperationWrites at h
    split at h
    · rw [hsel _ _ rfl]
      exact ownedWrites_of_selection h
    · exact ownedWrites_of_not_mem (h ▸ by decide) _ _ _
    · exact ownedWrites_of_mark h sent

/-! ## Requests -/

/-- A request up to its forwarding: it is answered, or handed on to a current endpoint that is counted as
selected.
Source: `main.rs` `handle_rpc` -/
theorem handleRpc_owns (fromSlice : List UInt8 → Except String Json) (w : World M)
    (body : List UInt8) (clock : Clock) :
    (∃ a w', handleRpc fromSlice false clock w body = (.answered a, w') ∧ w.Owns [] w') ∨
    ∃ p url method w', handleRpc fromSlice false clock w body = (.handed p url method, w') ∧
      url ∈ w.urls ∧ w.Owns [url] w' ∧
      ∃ rank, (w'.prom.series .priorityEndpointSelected [url, rank]).isSome := by
  have hgauge : ∀ (v : World M) (k : ℤ) (sent : List String),
      v.Owns sent { v with prom := v.prom.incBy .concurrencyActivePermits [] k } :=
    fun v k sent => World.owns_put (ownedWrites_of_not_mem (by decide) _ _ _) _
  have hcount : ∀ (v : World M) (a : RpcAnswer), v.Owns [] { v with prom := countAnswer a v.prom } := by
    intro v a
    unfold countAnswer
    split
    · exact World.owns_put (ownedWrites_of_not_mem (by decide) _ _ _) _
    · exact .refl _ v
  have hanswer : ∀ (v : World M) (a : RpcAnswer), v.Owns []
      { v with prom := (countAnswer a v.prom).incBy .concurrencyActivePermits [] (-1) } := fun v a =>
    (hcount v a).trans (hgauge _ _ _)
  let w₁ : World M := { w with prom := w.prom.incBy .concurrencyActivePermits [] 1 }
  have hentered : ∀ sent, w.Owns sent w₁ := hgauge w 1
  unfold handleRpc
  dsimp only
  split
  · exact Or.inl ⟨_, _, rfl, (hentered []).trans (hanswer w₁ _)⟩
  · rw [if_neg Bool.false_ne_true]
    split
    · exact Or.inl ⟨_, _, rfl, (hentered []).trans (hanswer w₁ _)⟩
    · rename_i p hp
      split
      · exact Or.inl ⟨_, _, rfl, (hentered []).trans (hanswer w₁ _)⟩
      · have hsel := World.owns_exec w₁ (.getNextEndpoint p.batchSize clock) _
          (fun _ _ h => by cases h; rfl)
        have hsome : ∀ url, (getNextEndpoint w₁ p.batchSize clock).1 = some url → _ := fun url =>
          isSome_getNextEndpoint w₁ p.batchSize clock
        simp only [World.exec] at hsel
        split
        · rename_i w' hw'
          rw [hw'] at hsel
          exact Or.inl ⟨_, _, rfl, ((hentered []).trans hsel).trans (hanswer _ _)⟩
        · rename_i url w' hw'
          rw [hw'] at hsel hsome
          obtain ⟨hmem, hrank⟩ := hsome url rfl
          exact Or.inr ⟨p, url, _, w', rfl, (hentered []).urls ▸ hmem, (hentered _).trans hsel, hrank⟩

/-- The exits of a request write what they own.
Source: `forwarder.rs` `forward_request` -/
theorem finishRequest_owns (displayStatus : ℕ → String) (w : World M) {url : String}
    (hurl : url ∈ w.urls) (u : UpstreamCall) (now : Instant) :
    w.Owns [url] (finishRequest displayStatus w url u now).2 := by
  have hown : ∀ (v : World M) (f : Family), v.urls = w.urls →
      v.Owns [url] { v with prom := v.prom.inc f [url] } := fun v f hv =>
    World.owns_put (ownedWrites_singleton (hv ▸ hurl) List.mem_cons_self f) _
  have hfail : ∀ (v : World M) (e : LoadBalancerError), v.urls = w.urls →
      v.Owns [url] (failUnhealthy v url e now).2 := by
    intro v e hv
    have hmark := World.owns_exec v (.markUnhealthy url now) [url] (by simp)
    simp only [World.exec] at hmark
    unfold failUnhealthy
    split
    · rename_i v' hv'
      rw [hv'] at hmark
      exact hmark
    · rename_i v' hv'
      rw [hv'] at hmark
      exact hmark.trans (hown v' .rpcRequestsFailed (hmark.urls.trans hv))
  unfold finishRequest
  split
  · exact (hown w .requestTimeouts rfl).trans (hfail _ _ rfl)
  · exact hfail w _ rfl
  · split
    · -- a 429 is counted twice before the mark
      let w₁ : World M := { w with prom := w.prom.inc .upstreamRateLimitedTotal [url] }
      let w₂ : World M := { w₁ with prom := w₁.prom.inc .rpcRequestsFailed [url] }
      have hcounted : w.Owns [url] w₂ :=
        (hown w .upstreamRateLimitedTotal rfl).trans (hown w₁ .rpcRequestsFailed rfl)
      have hmark : w₂.Owns [url] (markRateLimited w₂ url now).1 :=
        World.owns_exec w₂ (.markRateLimited url now) [url] (by simp)
      have hboth := hcounted.trans hmark
      unfold failRateLimited
      dsimp only
      split
      · rename_i v' hv'
        rwa [show markRateLimited w₂ url now = (v', true) from hv'] at hboth
      · rename_i v' hv'
        rwa [show markRateLimited w₂ url now = (v', false) from hv'] at hboth
    · split
      · exact hfail w _ rfl
      · split
        · exact hfail w _ rfl
        · exact hown w _ rfl

/-- A forwarded request writes what it owns: series of the endpoint it was sent to, and of current
endpoints it marks.
Source: `forwarder.rs` `forward_request` -/
theorem forwardRequest_owns (displayStatus : ℕ → String) (w : World M) {url : String}
    (hurl : url ∈ w.urls) (method : String) (u : UpstreamCall) (now : Instant) :
    w.Owns [url] (forwardRequest displayStatus w url method u now).2 := by
  have hput : ∀ (v : World M) (f : Family) (labels : List String) (k : ℤ),
      OwnedWrites v.urls [url] f labels → v.Owns [url] { v with prom := v.prom.incBy f labels k } :=
    fun v f labels k h => World.owns_put h _
  have hlatency : OwnedWrites w.urls [url] .requestLatencyPerEndpoint [url] :=
    ownedWrites_singleton hurl List.mem_cons_self _
  let w₁ : World M := { w with prom := w.prom.incBy .requestLatencyPerEndpoint [url] 0 }
  let w₂ : World M := { w₁ with prom := w₁.prom.inc .rpcRequestsTotal [] }
  let w₃ : World M := { w₂ with prom := w₂.prom.inc .rpcRequestsMethod [method] }
  let w₄ : World M := { w₃ with prom := w₃.prom.observe .requestLatencyPerEndpoint [url] }
  have h₁ : w.Owns [url] w₁ := hput w _ _ _ hlatency
  have h₂ : w₁.Owns [url] w₂ := hput w₁ _ _ _ (ownedWrites_of_not_mem (by decide) _ _ _)
  have h₃ : w₂.Owns [url] w₃ := hput w₂ _ _ _ (ownedWrites_of_not_mem (by decide) _ _ _)
  have h₄ : w₃.Owns [url] w₄ := hput w₃ _ _ _ hlatency
  have h₅ := World.owns_exec w₄ (.updateMetrics url u.result u.elapsedMs) [url] (fun _ _ h => nomatch h)
  have hall := (((h₁.trans h₂).trans h₃).trans h₄).trans h₅
  exact hall.trans (finishRequest_owns displayStatus _ (hall.urls ▸ hurl) u now)

/-- **A request**, from its arrival to its answer.
Source: `main.rs` `handle_rpc` -/
theorem seriesOwned_request (fromSlice : List UInt8 → Except String Json) (displayStatus : ℕ → String)
    {s : SequentialState M} (h : s.SeriesOwned) (body : List UInt8) (clock : Clock) (u : UpstreamCall)
    (now : Instant) : SequentialState.SeriesOwned
      ⟨completeRequest fromSlice displayStatus s.world body clock u now,
        s.used ++ sentTo fromSlice s.world body clock⟩ := by
  rcases handleRpc_owns fromSlice s.world body clock with
    ⟨a, w', hrpc, howns⟩ | ⟨p, url, method, w', hrpc, hmem, howns, rank, hrank⟩
  · simp only [completeRequest, sentTo, hrpc]
    exact h.owns howns fun _ hurl => absurd hurl List.not_mem_nil
  · simp only [completeRequest, sentTo, hrpc]
    have hforward := forwardRequest_owns displayStatus w' (howns.urls ▸ hmem) method u now
    have hleave : ∀ v : World M, v.Owns [url]
        { v with prom := v.prom.incBy .concurrencyActivePermits [] (-1) } := fun v =>
      World.owns_put (ownedWrites_of_not_mem (by decide) _ _ _) _
    refine h.owns (howns.trans (hforward.trans (hleave _))) ?_
    intro url' hurl'
    rw [List.mem_singleton] at hurl'
    subst hurl'
    exact ⟨.priorityEndpointSelected, by decide, [url', rank], rfl,
      (hforward.trans (hleave _)).writes.keeps _ _ hrank⟩

/-! ## Health rounds -/

/-- Observing the latencies of a round writes a series for every probe. -/
theorem writes_observeAll (urls sent : List String) :
    ∀ {results : List (String × Bool)} (m : Registry),
      (∀ r ∈ results, r.1 ∈ urls ∧ r.1 ∈ sent) →
      m.Writes (OwnedWrites urls sent)
          (results.foldl (fun m r => m.observe .healthCheckLatency [r.1]) m) ∧
        ∀ r ∈ results, ((results.foldl (fun m r => m.observe .healthCheckLatency [r.1]) m).series
          .healthCheckLatency [r.1]).isSome
  | [], m, _ => ⟨.refl _ m, by simp⟩
  | r :: rest, m, h => by
      obtain ⟨hurl, hsent⟩ := h r List.mem_cons_self
      obtain ⟨hrest, hsome⟩ := writes_observeAll urls sent (m.observe .healthCheckLatency [r.1])
        fun r' hr' => h r' (List.mem_cons_of_mem _ hr')
      have hone : m.Writes (OwnedWrites urls sent) (m.observe .healthCheckLatency [r.1]) :=
        Registry.writes_put (ownedWrites_singleton hurl hsent _) _
      refine ⟨hone.trans hrest, fun r' hr' => ?_⟩
      rcases List.mem_cons.mp hr' with rfl | hmem
      · apply hrest.keeps
        simp [Registry.observe, Registry.incBy, Registry.put]
      · exact hsome r' hmem

/-- **A health round** of current endpoints.
Source: `utils/health.rs` `perform_health_checks` -/
theorem seriesOwned_healthRound {s : SequentialState M} (h : s.SeriesOwned)
    {results : List (String × Bool)} (hresults : ∀ r ∈ results, r.1 ∈ s.world.urls) (now : Instant) :
    SequentialState.SeriesOwned ⟨(performHealthChecks s.world results now).1,
      s.used ++ results.map Prod.fst⟩ := by
  obtain ⟨hobserve, hsome⟩ := writes_observeAll s.world.urls (results.map Prod.fst) s.world.prom
    fun r hr => ⟨hresults r hr, List.mem_map_of_mem hr⟩
  let w₁ : World M := { s.world with
    prom := results.foldl (fun m r => m.observe .healthCheckLatency [r.1]) s.world.prom }
  have h₁ : s.world.Owns (results.map Prod.fst) w₁ := ⟨rfl, hobserve⟩
  have h₂ : w₁.Owns (results.map Prod.fst)
      (applyHealthResults w₁ results (timeoutMillis w₁.lb.healthCheckTimeoutSecs) now).1 :=
    World.owns_exec w₁ (.applyHealthResults results _ now) _ (fun _ _ h => nomatch h)
  have hround : w₁.Owns (results.map Prod.fst) (performHealthChecks s.world results now).1 := by
    unfold performHealthChecks
    dsimp only
    split
    · rename_i w' hw'
      rwa [show applyHealthResults w₁ results _ now = (w', true) from hw'] at h₂
    · rename_i w' hw'
      rw [show applyHealthResults w₁ results _ now = (w', false) from hw'] at h₂
      exact h₂.trans (World.owns_exec w' (.updateHealthyCount now) _ (fun _ _ h => nomatch h))
  refine h.owns (h₁.trans hround) fun url hurl => ?_
  obtain ⟨r, hr, rfl⟩ := List.mem_map.mp hurl
  exact ⟨.healthCheckLatency, by decide, [r.1], rfl, hround.writes.keeps _ _ (hsome r hr)⟩

/-! ## Reloads -/

/-- A cleanup removes the endpoint's series from the cleaned families, and nothing else.
Source: `config_reloader.rs` `cleanup_endpoint_metrics` -/
theorem series_cleanup (url : String) (m : Registry) (f : Family) (labels : List String) :
    (cleanupEndpointMetrics url m).series f labels =
      if f ∈ cleanedFamilies ∧ labels = [url] then none else m.series f labels := by
  by_cases hl : labels = [url]
  · subst hl
    cases f <;> simp [cleanupEndpointMetrics, Registry.removeLabelValues, Registry.put, cleanedFamilies]
  · simp [cleanupEndpointMetrics, Registry.removeLabelValues, Registry.put, hl]

/-- The cleanup of several endpoints, likewise. -/
theorem series_cleanupAll (f : Family) (labels : List String) (urls : List String) (m : Registry) :
    (urls.foldl (fun m url => cleanupEndpointMetrics url m) m).series f labels =
      if f ∈ cleanedFamilies ∧ ∃ url ∈ urls, labels = [url] then none else m.series f labels := by
  induction urls generalizing m with
  | nil => simp
  | cons url urls ih =>
      rw [List.foldl_cons, ih, series_cleanup]
      by_cases hf : f ∈ cleanedFamilies
      · by_cases hrest : ∃ url ∈ urls, labels = [url]
        · have hall : ∃ url' ∈ url :: urls, labels = [url'] := by
            obtain ⟨url', hurl', hl⟩ := hrest
            exact ⟨url', List.mem_cons_of_mem _ hurl', hl⟩
          rw [if_pos ⟨hf, hrest⟩, if_pos ⟨hf, hall⟩]
        · by_cases hl : labels = [url] <;> simp [hf, hrest, hl]
      · simp [hf]

/-- The series an initialisation writes are cleaned by a reload.
Source: `config_reloader.rs` `initialize_endpoint_metrics` -/
theorem writes_initializeAll {α : Type} (url : α → String) (eps : List α) (m : Registry) :
    m.Writes (fun f labels => f ∈ cleanedFamilies ∧ ∃ ep ∈ eps, labels = [url ep])
      (eps.foldl (fun m ep => initializeEndpointMetrics (url ep) m) m) := by
  induction eps generalizing m with
  | nil => exact .refl _ m
  | cons ep eps ih =>
      have hput : ∀ (m : Registry) {f : Family} (v : ℤ), f ∈ cleanedFamilies →
          m.Writes (fun f labels => f ∈ cleanedFamilies ∧ ∃ ep' ∈ ep :: eps, labels = [url ep'])
            (m.put f [url ep] (some v)) := fun m _ v hf =>
        Registry.writes_put ⟨hf, ep, List.mem_cons_self, rfl⟩ v
      have hone : m.Writes _ (initializeEndpointMetrics (url ep) m) :=
        (((((hput m _ (by decide)).trans (hput _ _ (by decide))).trans (hput _ _ (by decide))).trans
          (hput _ _ (by decide))).trans (hput _ _ (by decide))).trans (hput _ _ (by decide))
      refine hone.trans ((ih _).mono fun f labels ⟨hf, ep', hep', hl⟩ => ?_)
      exact ⟨hf, ep', List.mem_cons_of_mem _ hep', hl⟩

/-- **What a reload leaves of the series.** The endpoints are the configured ones; in a cleaned family
every series is of one of them, if it was of a current endpoint before; the other families are as they
were.
Source: `config_reloader.rs` `reload` -/
theorem series_reload (P : Platform) {c : Settings} (hc : c.Valid) (now : Instant) (w : World M) :
    (execSections P c now w {} reloadProgram).1.urls = c.endpoints.map EndpointConfig.url ∧
      (∀ f ∈ leakedFamilies, (execSections P c now w {} reloadProgram).1.prom.series f =
        w.prom.series f) ∧
      ∀ f ∈ cleanedFamilies, ∀ labels,
        ((execSections P c now w {} reloadProgram).1.prom.series f labels).isSome →
        ((w.prom.series f labels).isSome → ∃ url ∈ w.urls, labels = [url]) →
        ∃ url ∈ c.endpoints.map EndpointConfig.url, labels = [url] := by
  obtain ⟨s, eps, hmerge, hstep, hexec⟩ := execSections_reloadProgram_merge P now w hc
  have hinit := writes_initializeAll EndpointConfig.url
    (c.endpoints.filter fun e => ((w.lb.withClient c.client).endpoint? e.url).isNone)
    (mergeStartAlone P c w).prom
  rw [← mergeEndpoints_prom hmerge] at hinit
  have htotals : ∀ f ∈ cleanedFamilies ++ leakedFamilies, ∀ labels,
      (reloadedRegistry c eps now s.prom).series f labels = s.prom.series f labels := by
    have hgauge : ∀ f ∈ cleanedFamilies ++ leakedFamilies,
        f ≠ .totalEndpoints ∧ f ≠ .healthyEndpoints := by decide
    intro f hf labels
    obtain ⟨htotal, hhealthy⟩ := hgauge f hf
    simp [reloadedRegistry, Registry.set, Registry.put, htotal, hhealthy]
  have hcleanup := fun f labels => series_cleanupAll f labels (diffSection P w.lb c {}).endpointsRemoved
    w.prom
  rw [hexec]
  refine ⟨hstep.urls, fun f hf => funext fun labels => ?_, fun f hf labels hm hold => ?_⟩
  · have hout : f ∉ cleanedFamilies := by
      have hdisjoint : ∀ f ∈ leakedFamilies, f ∉ cleanedFamilies := by decide
      exact hdisjoint f hf
    rw [htotals f (List.mem_append_right _ hf), hinit.frame f labels fun h => hout h.1]
    exact (hcleanup f labels).trans (if_neg fun h => hout h.1)
  · rw [htotals f (List.mem_append_left _ hf)] at hm
    rcases hinit.isSome hm with hkept | ⟨-, e, he, hl⟩
    · -- a series that has survived the cleanup is not of a removed endpoint
      have hkept' : (if f ∈ cleanedFamilies ∧ ∃ url ∈ (diffSection P w.lb c {}).endpointsRemoved,
          labels = [url] then none else w.prom.series f labels).isSome := hcleanup f labels ▸ hkept
      split at hkept'
      · cases hkept'
      · rename_i hnot
        obtain ⟨url, hurl, rfl⟩ := hold hkept'
        refine ⟨url, ?_, rfl⟩
        apply Classical.byContradiction
        intro hnew
        refine hnot ⟨hf, url, ?_, rfl⟩
        rw [diffSection, P.mem_hashOrder, Finset.mem_sdiff, List.mem_toFinset, List.mem_toFinset]
        exact ⟨hurl, hnew⟩
    · exact ⟨e.url, List.mem_map_of_mem (List.mem_of_mem_filter he), hl⟩

/-- **A reload.**
Source: `config_reloader.rs` `reload` -/
theorem seriesOwned_reload (P : Platform) {s : SequentialState M} (h : s.SeriesOwned)
    (read : String → ReadResult) (now : Instant) :
    SequentialState.SeriesOwned ⟨(reload P read s.world now).2, s.used⟩ := by
  rcases reload_cases P read s.world now with ⟨o, hreload, -⟩ | ⟨c, -, hc, hreload⟩
  · rw [hreload]
    exact h
  · rw [hreload]
    obtain ⟨hurls, hleaked, hcleaned⟩ := series_reload P hc now s.world
    refine ⟨fun f hf labels hm => ?_, fun f hf labels hm => ?_, fun url hurl => ?_⟩
    · rw [hurls]
      exact hcleaned f hf labels hm (h.cleaned f hf labels)
    · rw [hleaked f hf] at hm
      exact h.leaked f hf labels hm
    · obtain ⟨f, hf, labels, hhead, hm⟩ := h.used url hurl
      refine ⟨f, hf, labels, hhead, ?_⟩
      show ((execSections P c now s.world {} reloadProgram).1.prom.series f labels).isSome
      rw [hleaked f hf]
      exact hm

/-! ## Runs -/

/-- Where every series has its owner, none is foreign exactly if every URL that has been used is current. -/
theorem SequentialState.SeriesOwned.noForeign_iff {s : SequentialState M} (h : s.SeriesOwned) :
    s.world.prom.NoForeign s.world.urls ↔ ∀ url ∈ s.used, url ∈ s.world.urls := by
  constructor
  · intro hno url hurl
    obtain ⟨f, hf, labels, hhead, hm⟩ := h.used url hurl
    obtain ⟨url', hurl', hhead'⟩ := hno f (List.mem_append_right _ hf) labels hm
    rw [hhead, Option.some.injEq] at hhead'
    exact hhead' ▸ hurl'
  · intro hused f hf labels hm
    rcases List.mem_append.mp hf with hf | hf
    · obtain ⟨url, hurl, rfl⟩ := h.cleaned f hf labels hm
      exact ⟨url, hurl, rfl⟩
    · obtain ⟨url, hurl, hhead⟩ := h.leaked f hf labels hm
      exact ⟨url, hused url hurl, hhead⟩

/-- At startup every series is of an endpoint.
Source: `balancer.rs` `LoadBalancer::new` -/
theorem seriesOwned_start {lower : List Char → List Char} {config : Option Config} {path : String}
    {now : Instant} {w : World M} (h : LoadBalancer.new M lower config path now = some w) :
    SequentialState.SeriesOwned ⟨w, []⟩ := by
  have hinit := writes_initializeAll RpcEndpoint.url w.lb.endpoints
    ((Registry.empty.set .totalEndpoints [] w.lb.endpoints.length).set .healthyEndpoints []
      w.lb.endpoints.length)
  rw [← prom_of_new h] at hinit
  have hfresh : ∀ f ∈ cleanedFamilies ++ leakedFamilies, ∀ labels,
      (w.prom.series f labels).isSome → f ∈ cleanedFamilies ∧ ∃ ep ∈ w.lb.endpoints, labels = [ep.url] := by
    have hgauge : ∀ f ∈ cleanedFamilies ++ leakedFamilies,
        f ≠ .totalEndpoints ∧ f ≠ .healthyEndpoints := by decide
    intro f hf labels hm
    obtain ⟨htotal, hhealthy⟩ := hgauge f hf
    rcases hinit.isSome hm with hold | hnew
    · simp [Registry.set, Registry.put, Registry.empty, htotal, hhealthy] at hold
    · exact hnew
  have hdisjoint : ∀ f ∈ leakedFamilies, f ∉ cleanedFamilies := by decide
  refine ⟨fun f hf labels hm => ?_, fun f hf labels hm => ?_, fun url hurl => absurd hurl List.not_mem_nil⟩
  · obtain ⟨-, ep, hep, hl⟩ := hfresh f (List.mem_append_left _ hf) labels hm
    exact ⟨ep.url, List.mem_map_of_mem hep, hl⟩
  · exact absurd (hfresh f (List.mem_append_right _ hf) labels hm).1 (hdisjoint f hf)

section runs

variable (P : Platform) (fromSlice : List UInt8 → Except String Json) (displayStatus : ℕ → String)

/-- **Every event keeps the owners.** -/
theorem SequentialState.SeriesOwned.step {s : SequentialState M} (h : s.SeriesOwned)
    (e : SequentialEvent) : (s.step P fromSlice displayStatus e).SeriesOwned := by
  cases e with
  | request body clock u now => exact seriesOwned_request fromSlice displayStatus h body clock u now
  | healthRound results now =>
      unfold SequentialState.step
      dsimp only
      split
      · exact seriesOwned_healthRound h ‹_› now
      · exact h
  | reload read now => exact seriesOwned_reload P h read now

/-- **When a reload cleans up.** -/
theorem cleansUp_iff {s : SequentialState M} (h : s.SeriesOwned) (e : SequentialEvent) :
    s.CleansUp P e ↔ s.KeepsUsed P e := by
  cases e with
  | request body clock u now => exact Iff.rfl
  | healthRound results now => exact Iff.rfl
  | reload read now =>
      have howned := seriesOwned_reload P h read now
      unfold SequentialState.CleansUp SequentialState.KeepsUsed
      dsimp only
      rcases reload_cases P read s.world now with ⟨o, hreload, hnot⟩ | ⟨c, hload, hc, hreload⟩
      · rw [hreload]
        constructor
        · intro _ c hload
          rw [reload_eq_ok now hload] at hreload
          exact absurd (Prod.mk.inj hreload).1.symm (hnot _)
        · intro _ resp w' heq
          cases heq
          exact absurd rfl (hnot resp)
      · obtain ⟨hurls, -, -⟩ := series_reload P hc now s.world
        rw [hreload] at howned ⊢
        have hiff := howned.noForeign_iff
        dsimp only at hiff
        rw [hurls] at hiff
        simp only [hload, Outcome.ok.injEq, forall_eq']
        rw [← hiff]
        constructor
        · intro hclean
          rw [← hurls]
          exact hclean _ _ rfl
        · intro hclean resp w' heq
          obtain ⟨-, rfl⟩ := Prod.mk.inj heq
          rw [hurls]
          exact hclean

/-- **When reloads leave no series behind.** In every run from startup of requests, health rounds and
reloads, one at a time: after each successful reload no family with an endpoint label has a series of a URL
outside the endpoint list, exactly if each successful reload keeps all URLs that have been sent a request
or a probe before.
Source: `config_reloader.rs` `reload`, `cleanup_endpoint_metrics` -/
theorem series_cleaned_iff {config : Option Config} {path : String} {now : Instant} {w : World M}
    (hnew : LoadBalancer.new M P.toLowercase config path now = some w) (events : List SequentialEvent) :
    Runs.Along (SequentialState.step P fromSlice displayStatus) (SequentialState.CleansUp P) ⟨w, []⟩
        events ↔
      Runs.Along (SequentialState.step P fromSlice displayStatus) (SequentialState.KeepsUsed P) ⟨w, []⟩
        events :=
  Runs.along_congr SequentialState.SeriesOwned
    (fun _ e (_ : True) h => h.step P fromSlice displayStatus e)
    (fun _ e (_ : True) h => cleansUp_iff P h e) (fun _ _ => trivial) (seriesOwned_start hnew)

end runs

/-- A reload to the same endpoint after a health round. -/
theorem series_cleaned_iff_sample :
    Runs.Along (SequentialState.step samplePlatform (fun _ => .ok .null) fun _ => "")
      (SequentialState.CleansUp samplePlatform) ⟨sampleWorld, []⟩
      [.healthRound [("http://a", true)] 1, .reload (fun _ => .content sampleFile) 2] := by
  rw [series_cleaned_iff samplePlatform _ _ new_sampleWorld]
  refine ⟨trivial, ?_, trivial⟩
  intro c hc
  rw [loadSettings_sampleFile, Outcome.ok.injEq] at hc
  subst hc
  decide +kernel

/-- A probed endpoint is dropped: its latency series stays. -/
theorem probe_series_left_behind : ¬ ∀ (M : Meter) (P : Platform)
    (fromSlice : List UInt8 → Except String Json) (displayStatus : ℕ → String) (config : Option Config)
    (path : String) (now : Instant) (w : World M),
    LoadBalancer.new M P.toLowercase config path now = some w → ∀ events : List SequentialEvent,
      Runs.Along (SequentialState.step P fromSlice displayStatus) (SequentialState.CleansUp P) ⟨w, []⟩
        events := by
  intro h
  have hrun := h leakyBucket samplePlatform (fun _ => .ok .null) (fun _ => "") _ _ _ sampleWorld
    new_sampleWorld [.healthRound [("http://a", true)] 1, .reload (fun _ => .content otherFile) 2]
  obtain ⟨-, hreload, -⟩ := hrun
  have hload := loadSettings_otherFile sampleWorld.lb.configPath
  obtain ⟨-, -, -, -, -, -, -, hc⟩ := loadSettings_eq_ok hload
  generalize hs : SequentialState.step samplePlatform (fun _ => .ok .null) (fun _ => "")
    ⟨sampleWorld, []⟩ (.healthRound [("http://a", true)] 1) = s at hreload
  have hpath : s.world.lb.configPath = sampleWorld.lb.configPath := by rw [← hs]; decide +kernel
  have hprobed : (s.world.prom.series .healthCheckLatency ["http://a"]).isSome := by
    rw [← hs]
    decide +kernel
  obtain ⟨hurls, hleaked, -⟩ := series_reload samplePlatform hc 2 s.world
  have hforeign := hreload _ _ (reload_eq_ok 2 (hpath ▸ hload)) .healthCheckLatency (by decide)
    ["http://a"] (by rw [hleaked _ (by decide)]; exact hprobed)
  rw [hurls] at hforeign
  revert hforeign
  decide

end AzothBalancer
