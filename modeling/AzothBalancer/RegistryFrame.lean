import AzothBalancer.System

/-!
# Which series are written where

`Registry.Writes A` says that a piece of code writes only the series in `A`, given by family and label
values, and removes none. A selection writes `SelectionWrites`, a mark or the write section of a health
round `MarkWrites`; both name the endpoints whose series they are. A startup and a merge initialise
series, which moves no counter, and a cleanup removes series.

`value_systemStep`: what neither selections nor marks write stays as it is under everything the balancer
does, as long as no reload removes an endpoint (`System.RemovesNothing`).
-/

namespace AzothBalancer

variable {M : Meter}

namespace Registry

/-- Only series in `A` are written, and none is removed. -/
structure Writes (A : Family → List String → Prop) (m m' : Registry) : Prop where
  frame : ∀ f labels, ¬ A f labels → m'.series f labels = m.series f labels
  keeps : ∀ f labels, (m.series f labels).isSome → (m'.series f labels).isSome

variable {A B : Family → List String → Prop} {m m₁ m₂ m₃ : Registry} {f : Family}
  {labels : List String}

/-- Nothing is written. -/
theorem Writes.refl (A : Family → List String → Prop) (m : Registry) : m.Writes A m :=
  ⟨fun _ _ _ => rfl, fun _ _ h => h⟩

/-- Writes compose. -/
theorem Writes.trans (h₁₂ : m₁.Writes A m₂) (h₂₃ : m₂.Writes A m₃) : m₁.Writes A m₃ where
  frame f labels hA := (h₂₃.frame f labels hA).trans (h₁₂.frame f labels hA)
  keeps f labels hm := h₂₃.keeps f labels (h₁₂.keeps f labels hm)

/-- More series may be written. -/
theorem Writes.mono (h : m₁.Writes A m₂) (hAB : ∀ f labels, A f labels → B f labels) :
    m₁.Writes B m₂ where
  frame f labels hB := h.frame f labels fun hA => hB (hAB f labels hA)
  keeps := h.keeps

/-- One series is written. -/
theorem writes_put (hA : A f labels) (v : ℤ) : m.Writes A (m.put f labels (some v)) where
  frame f' labels' hA' := by
    unfold put
    dsimp only
    rw [if_neg]
    rintro ⟨rfl, rfl⟩
    exact hA' hA
  keeps f' labels' hm := by
    unfold put
    dsimp only
    split
    · rfl
    · exact hm

/-- What is not written shows what it showed. -/
theorem Writes.value (h : m₁.Writes A m₂) (hA : ¬ A f labels) :
    m₂.value f labels = m₁.value f labels := by
  unfold Registry.value
  rw [h.frame f labels hA]

/-- A series that exists afterwards existed before, or is one of those written. -/
theorem Writes.isSome (h : m₁.Writes A m₂) (hm : (m₂.series f labels).isSome) :
    (m₁.series f labels).isSome ∨ A f labels := by
  by_cases hA : A f labels
  · exact Or.inr hA
  · rw [h.frame f labels hA] at hm
    exact Or.inl hm

end Registry

/-- The URLs of the endpoints. -/
def World.urls (w : World M) : List String := w.lb.endpoints.map RpcEndpoint.url

/-! ## Selections -/

/-- What the scan of the candidates `urls` writes when it answers `selected`. -/
def ScanWrites (urls : List String) (selected : Option String) : Family → List String → Prop
  | .endpointRateLimitDeferred, labels => ∃ url ∈ urls, labels = [url]
  | .priorityEndpointSelected, labels => ∃ url rank, selected = some url ∧ labels = [url, rank]
  | _, _ => False

/-- A scan of more candidates writes more. -/
theorem ScanWrites.mono {urls urls' : List String} (h : ∀ url ∈ urls, url ∈ urls')
    {selected : Option String} {f : Family} {labels : List String}
    (hw : ScanWrites urls selected f labels) : ScanWrites urls' selected f labels := by
  unfold ScanWrites at hw ⊢
  split at hw
  · obtain ⟨url, hurl, rfl⟩ := hw
    exact ⟨url, h url hurl, rfl⟩
  · exact hw
  · exact hw

/-- What a selection writes that answers `selected`. -/
def SelectionWrites (urls : List String) (selected : Option String) (f : Family)
    (labels : List String) : Prop :=
  ScanWrites urls selected f labels ∨ f = .allEndpointsRateLimited

/-- A reservation does not count. -/
@[simp] theorem reserveTokens_prom (w : World M) (url : String) (n : ℕ) (now : Instant) :
    (reserveTokens w url n now).2.prom = w.prom := by
  rcases reserveTokens_spec w url n now with ⟨e, he⟩ | ⟨heap, -, heq⟩
  · rw [he]
  · rw [heq]

/-- The inner loop counts a deferral for every candidate it passes and one selection.
Source: `strategy.rs` `select_best_endpoint`, the inner loop -/
theorem writes_scanCandidates (n : ℕ) (now : Instant) :
    ∀ (candidates : List RpcEndpoint) (rank : ℕ) (w : World M),
      w.prom.Writes (ScanWrites (candidates.map RpcEndpoint.url)
          ((scanCandidates n now rank candidates w).1.map RpcEndpoint.url))
        (scanCandidates n now rank candidates w).2.prom
  | [], _, w => .refl _ w.prom
  | ep :: rest, rank, w => by
      have hres := reserveTokens_prom w ep.url n now
      rw [scanCandidates]
      split
      · rename_i w' hw'
        rw [hw'] at hres
        rw [← hres]
        have hselect : ScanWrites ((ep :: rest).map RpcEndpoint.url) (some ep.url)
            .priorityEndpointSelected [ep.url, toString (rank + 1)] := ⟨_, _, rfl, rfl⟩
        exact Registry.writes_put hselect _
      · rename_i w' hw'
        rw [hw'] at hres
        rw [← hres]
        have hrest := writes_scanCandidates n now rest (rank + 1)
          { w' with prom := logRateLimited ep w'.prom }
        have hdefer : ∀ selected, ScanWrites ((ep :: rest).map RpcEndpoint.url) selected
            .endpointRateLimitDeferred [ep.url] := fun _ => ⟨ep.url, List.mem_cons_self, rfl⟩
        refine .trans (Registry.writes_put (hdefer _) _) (hrest.mono fun f labels => ?_)
        exact ScanWrites.mono fun url hurl => List.mem_cons_of_mem _ hurl

/-- The outer loop, likewise.
Source: `strategy.rs` `select_best_endpoint`, the outer loop -/
theorem writes_scanTiers (n : ℕ) (now : Instant) :
    ∀ (tiers : List (List RpcEndpoint)) (w : World M),
      w.prom.Writes (ScanWrites (tiers.flatten.map RpcEndpoint.url)
          ((scanTiers n now tiers w).1.map RpcEndpoint.url)) (scanTiers n now tiers w).2.prom
  | [], w => .refl _ w.prom
  | tier :: tiers, w => by
      have hscan := writes_scanCandidates n now tier 0 w
      have htier : ∀ url ∈ tier.map RpcEndpoint.url, url ∈ (tier :: tiers).flatten.map RpcEndpoint.url := by
        intro url hurl
        rw [List.flatten_cons, List.map_append]
        exact List.mem_append_left _ hurl
      have htiers : ∀ url ∈ tiers.flatten.map RpcEndpoint.url,
          url ∈ (tier :: tiers).flatten.map RpcEndpoint.url := by
        intro url hurl
        rw [List.flatten_cons, List.map_append]
        exact List.mem_append_right _ hurl
      rw [scanTiers]
      split
      · rename_i ep w' hw'
        rw [hw'] at hscan
        exact hscan.mono fun f labels => ScanWrites.mono htier
      · rename_i w' hw'
        rw [hw'] at hscan
        -- a scan without result selects nothing, so what it writes is also written by the whole
        have hnone : ∀ selected f labels, ScanWrites (tier.map RpcEndpoint.url) none f labels →
            ScanWrites ((tier :: tiers).flatten.map RpcEndpoint.url) selected f labels := by
          intro selected f labels hw
          unfold ScanWrites at hw ⊢
          split at hw
          · obtain ⟨url, hurl, rfl⟩ := hw
            exact ⟨url, htier url hurl, rfl⟩
          · obtain ⟨url, rank, hsel, -⟩ := hw
            cases hsel
          · exact hw
        refine .trans (hscan.mono (hnone _)) ?_
        exact (writes_scanTiers n now tiers w').mono fun f labels => ScanWrites.mono htiers

/-- The candidates of a selection are endpoints. -/
theorem urls_sortedTiers (w : World M) (now : Instant) :
    ∀ url ∈ (sortedTiers w now).flatten.map RpcEndpoint.url, url ∈ w.urls := by
  intro url hurl
  obtain ⟨ep, hep, rfl⟩ := List.mem_map.mp hurl
  have havail := mem_availableEndpoints_of_sortedTiers (List.mem_flatten.mp hep)
  exact List.mem_map_of_mem (List.mem_of_mem_filter havail)

/-- A selection.
Source: `strategy.rs` `select_best_endpoint` -/
theorem writes_selectBestEndpoint (w : World M) (n : ℕ) (now : Instant) :
    w.prom.Writes (SelectionWrites w.urls ((selectBestEndpoint w n now).1.map RpcEndpoint.url))
      (selectBestEndpoint w n now).2.prom := by
  have hscan := (writes_scanTiers n now (sortedTiers w now) w).mono fun f labels hw =>
    (Or.inl (hw.mono (urls_sortedTiers w now)) : SelectionWrites w.urls _ f labels)
  unfold selectBestEndpoint
  split
  · exact .refl _ w.prom
  · split
    · rename_i ep w' hw'
      rw [hw'] at hscan
      exact hscan
    · rename_i w' hw'
      rw [hw'] at hscan
      exact hscan.trans (Registry.writes_put (Or.inr rfl) _)

/-- A selection that stamps its endpoint.
Source: `balancer.rs` `get_next_endpoint` -/
theorem writes_getNextEndpoint (w : World M) (n : ℕ) (clock : Clock) :
    w.prom.Writes (SelectionWrites w.urls (getNextEndpoint w n clock).1)
      (getNextEndpoint w n clock).2.prom := by
  have hsel := writes_selectBestEndpoint w n clock.now
  unfold getNextEndpoint
  split
  · rename_i ep w' hw'
    rw [hw'] at hsel
    exact hsel
  · rename_i w' hw'
    rw [hw'] at hsel
    exact hsel

/-- The inner loop counts the candidate it answers.
Source: `strategy.rs` `log_selection` -/
theorem isSome_scanCandidates (n : ℕ) (now : Instant) :
    ∀ (candidates : List RpcEndpoint) (rank : ℕ) (w : World M) (ep : RpcEndpoint),
      (scanCandidates n now rank candidates w).1 = some ep → ∃ rank', ((scanCandidates n now rank
        candidates w).2.prom.series .priorityEndpointSelected [ep.url, rank']).isSome
  | [], _, _, _, h => by cases h
  | c :: rest, rank, w, ep, h => by
      rw [scanCandidates] at h ⊢
      split at h
      · cases h
        exact ⟨toString (rank + 1), by simp [logSelection, Registry.inc, Registry.incBy, Registry.put]⟩
      · exact isSome_scanCandidates n now rest (rank + 1) _ ep h

/-- The outer loop, likewise. -/
theorem isSome_scanTiers (n : ℕ) (now : Instant) :
    ∀ (tiers : List (List RpcEndpoint)) (w : World M) (ep : RpcEndpoint),
      (scanTiers n now tiers w).1 = some ep → ∃ rank, ((scanTiers n now tiers
        w).2.prom.series .priorityEndpointSelected [ep.url, rank]).isSome
  | [], _, _, h => by cases h
  | tier :: tiers, w, ep, h => by
      have htier := isSome_scanCandidates n now tier 0 w ep
      rw [scanTiers] at h ⊢
      split at h
      · rename_i ep' w' hw'
        cases h
        rw [hw'] at htier
        exact htier rfl
      · exact isSome_scanTiers n now tiers _ ep h

/-- A selection counts the endpoint it answers.
Source: `strategy.rs` `select_best_endpoint` -/
theorem isSome_selectBestEndpoint (w : World M) (n : ℕ) (now : Instant) (ep : RpcEndpoint)
    (h : (selectBestEndpoint w n now).1 = some ep) : ∃ rank, ((selectBestEndpoint w n
      now).2.prom.series .priorityEndpointSelected [ep.url, rank]).isSome := by
  have hscan := isSome_scanTiers n now (sortedTiers w now) w ep
  unfold selectBestEndpoint at h ⊢
  split at h
  · cases h
  · rw [if_neg ‹_›]
    rcases hres : scanTiers n now (sortedTiers w now) w with ⟨_ | ep', w'⟩
    · rw [hres] at h
      cases h
    · rw [hres] at h hscan
      exact hscan h

/-- A selection counts the endpoint it answers, which is a current one.
Source: `balancer.rs` `get_next_endpoint` -/
theorem isSome_getNextEndpoint (w : World M) (n : ℕ) (clock : Clock) {url : String}
    (h : (getNextEndpoint w n clock).1 = some url) : url ∈ w.urls ∧ ∃ rank,
      ((getNextEndpoint w n clock).2.prom.series .priorityEndpointSelected [url, rank]).isSome := by
  rcases selectBestEndpoint_spec w n clock.now with ⟨w', hw', -⟩ | ⟨ep, w', hw', hmem, -⟩
  · simp [getNextEndpoint, hw'] at h
  · have hcounted := isSome_selectBestEndpoint w n clock.now ep (by rw [hw'])
    have hurl : ep.url = url := by simpa [getNextEndpoint, hw'] using h
    subst hurl
    refine ⟨List.mem_map_of_mem (List.mem_of_mem_filter hmem), ?_⟩
    unfold getNextEndpoint
    rw [hw'] at hcounted ⊢
    exact hcounted

/-! ## Marks and health rounds -/

/-- What marks and the write sections of health rounds write, at the endpoints `urls`. -/
def MarkWrites (urls : List String) : Family → List String → Prop
  | .cooldownSecondsGauge, labels | .healthcheckFailed, labels => ∃ url ∈ urls, labels = [url]
  | _, _ => False

/-- A cooldown is published in its gauge. -/
theorem writes_cooldownEndpoint (w : World M) {ep : RpcEndpoint} (hep : ep ∈ w.lb.endpoints)
    (prepare : RpcEndpoint → RpcEndpoint) (base max_ : ℕ) (now : Instant) :
    w.prom.Writes (MarkWrites w.urls) (cooldownEndpoint w ep prepare base max_ now).1.prom := by
  have hgauge : MarkWrites w.urls .cooldownSecondsGauge [ep.url] :=
    ⟨ep.url, List.mem_map_of_mem hep, rfl⟩
  unfold cooldownEndpoint
  dsimp only
  split
  · exact Registry.writes_put hgauge _
  · exact .refl _ w.prom

/-- Source: `balancer.rs` `mark_rate_limited` -/
theorem writes_markRateLimited (w : World M) (url : String) (now : Instant) :
    w.prom.Writes (MarkWrites w.urls) (markRateLimited w url now).1.prom := by
  unfold markRateLimited
  split
  · exact .refl _ w.prom
  · rename_i ep hep
    exact writes_cooldownEndpoint w (KeyedList.mem_of_lookup hep) _ _ _ now

/-- Source: `balancer.rs` `mark_unhealthy` -/
theorem writes_markUnhealthy (w : World M) (url : String) (now : Instant) :
    w.prom.Writes (MarkWrites w.urls) (markUnhealthy w url now).1.prom := by
  unfold markUnhealthy
  split
  · exact .refl _ w.prom
  · rename_i ep hep
    split
    · exact writes_cooldownEndpoint w (KeyedList.mem_of_lookup hep) _ _ _ now
    · exact .refl _ w.prom

/-- Applying one probe result counts a failed probe and publishes a cooldown.
Source: `utils/health.rs` `perform_health_checks` -/
theorem writes_applyProbe (base max_ timeoutMs : ℕ) (now : Instant) (w : World M)
    (result : String × Bool) :
    w.prom.Writes (MarkWrites w.urls) (applyProbe base max_ timeoutMs now w result).1.prom := by
  unfold applyProbe
  dsimp only
  split
  · exact .refl _ w.prom
  · rename_i ep hep
    have hmem : ep ∈ w.lb.endpoints := KeyedList.mem_of_lookup hep
    split
    · split <;> exact .refl _ w.prom
    · have hfail : MarkWrites w.urls .healthcheckFailed [result.1] := by
        have hurl : ep.url = result.1 := KeyedList.key_of_lookup hep
        exact ⟨result.1, hurl ▸ List.mem_map_of_mem hmem, rfl⟩
      have hrecord : w.prom.Writes (MarkWrites w.urls)
          (recordFailedProbe w result.1 ep timeoutMs).prom := Registry.writes_put hfail _
      split
      · apply hrecord.trans
        exact writes_cooldownEndpoint (recordFailedProbe w result.1 ep timeoutMs) hmem _ _ _ now
      · exact hrecord

/-- Applying probe results, likewise. -/
theorem writes_applyProbes (base max_ timeoutMs : ℕ) (now : Instant) :
    ∀ (results : List (String × Bool)) (w : World M), w.prom.Writes (MarkWrites w.urls)
      (applyProbes base max_ timeoutMs now results w).1.prom
  | [], w => .refl _ w.prom
  | result :: rest, w => by
      have hone := writes_applyProbe base max_ timeoutMs now w result
      have hurls : (applyProbe base max_ timeoutMs now w result).1.urls = w.urls :=
        (keeps_applyProbe base max_ timeoutMs now w result).urls
      rw [applyProbes]
      split
      · rename_i w' hw'
        rw [hw'] at hone
        exact hone
      · rename_i w' hw'
        rw [hw'] at hone hurls
        refine hone.trans ?_
        rw [← hurls]
        exact writes_applyProbes base max_ timeoutMs now rest w'

/-! ## Operations -/

/-- The families operations write. -/
def operationFamilies : List Family :=
  [.priorityEndpointSelected, .endpointRateLimitDeferred, .allEndpointsRateLimited,
    .cooldownSecondsGauge, .healthcheckFailed, .healthyEndpoints]

/-- What an operation writes. -/
def World.OperationWrites (w : World M) : Operation → Family → List String → Prop
  | .getNextEndpoint n clock => SelectionWrites w.urls (getNextEndpoint w n clock).1
  | .updateHealthyCount _ => fun f _ => f = .healthyEndpoints
  | _ => MarkWrites w.urls

/-- **What an operation writes.** -/
theorem writes_exec (w : World M) (op : Operation) :
    w.prom.Writes (w.OperationWrites op) (w.exec op).1.prom := by
  cases op with
  | getNextEndpoint n clock => exact writes_getNextEndpoint w n clock
  | markUnhealthy url now => exact writes_markUnhealthy w url now
  | markRateLimited url now => exact writes_markRateLimited w url now
  | applyHealthResults results timeoutMs now => exact writes_applyProbes _ _ timeoutMs now results w
  | updateHealthyCount now => exact Registry.writes_put rfl _
  | updateMetrics url result elapsedMs =>
      show w.prom.Writes (MarkWrites w.urls) (AzothBalancer.updateMetrics w url result elapsedMs).prom
      unfold AzothBalancer.updateMetrics
      split <;> exact .refl _ w.prom

/-- Nothing outside these families is written. -/
theorem mem_of_operationWrites {w : World M} {op : Operation} {f : Family} {labels : List String}
    (h : w.OperationWrites op f labels) : f ∈ operationFamilies := by
  unfold World.OperationWrites at h
  split at h
  · rcases h with h | rfl
    · unfold ScanWrites at h
      split at h <;> first | exact h.elim | simp [operationFamilies]
    · simp [operationFamilies]
  · subst h
    simp [operationFamilies]
  · unfold MarkWrites at h
    split at h <;> first | exact h.elim | simp [operationFamilies]

/-- What no operation writes shows what it showed. -/
theorem value_exec (w : World M) (op : Operation) {f : Family} (hf : f ∉ operationFamilies)
    (labels : List String) : (w.exec op).1.prom.value f labels = w.prom.value f labels :=
  (writes_exec w op).value fun h => hf (mem_of_operationWrites h)

/-! ## Startup -/

/-- The gauges of endpoints and cooldowns. -/
def gaugeFamilies : List Family := [.cooldownSecondsGauge, .totalEndpoints, .healthyEndpoints]

/-- Initialising an endpoint's series moves no counter. -/
theorem value_initializeEndpointMetrics (url : String) (m : Registry) {f : Family}
    (hf : f ≠ .cooldownSecondsGauge) (labels : List String) :
    (initializeEndpointMetrics url m).value f labels = m.value f labels := by
  simp [initializeEndpointMetrics, hf]

/-- Initialising the series of several endpoints moves no counter. -/
theorem value_initializeAll {α : Type} (url : α → String) {f : Family}
    (hf : f ≠ .cooldownSecondsGauge) (labels : List String) (eps : List α) (m : Registry) :
    (eps.foldl (fun m ep => initializeEndpointMetrics (url ep) m) m).value f labels =
      m.value f labels := by
  induction eps generalizing m with
  | nil => rfl
  | cons ep eps ih => rw [List.foldl_cons, ih, value_initializeEndpointMetrics _ m hf]

/-- The registry after startup.
Source: `balancer.rs` `LoadBalancer::new` -/
theorem prom_of_new {lower : List Char → List Char} {config : Option Config} {path : String}
    {now : Instant} {w : World M} (h : LoadBalancer.new M lower config path now = some w) :
    w.prom = w.lb.endpoints.foldl (fun m ep => initializeEndpointMetrics ep.url m)
      ((Registry.empty.set .totalEndpoints [] w.lb.endpoints.length).set .healthyEndpoints []
        w.lb.endpoints.length) := by
  unfold LoadBalancer.new at h
  split at h
  · rename_i finalized hfin
    obtain ⟨_, -, h⟩ := Option.bind_eq_some_iff.mp h
    obtain ⟨_, -, h⟩ := Option.bind_eq_some_iff.mp h
    obtain ⟨_, -, h⟩ := Option.bind_eq_some_iff.mp h
    obtain ⟨_, -, h⟩ := Option.bind_eq_some_iff.mp h
    obtain ⟨_, -, h⟩ := Option.bind_eq_some_iff.mp h
    obtain ⟨_, -, h⟩ := Option.bind_eq_some_iff.mp h
    obtain ⟨_, -, h⟩ := Option.bind_eq_some_iff.mp h
    obtain ⟨_, -, h⟩ := Option.bind_eq_some_iff.mp h
    cases h
    rfl
  · cases h

/-- At startup every counter is at zero.
Source: `balancer.rs` `LoadBalancer::new` -/
theorem value_of_new {lower : List Char → List Char} {config : Option Config} {path : String}
    {now : Instant} {w : World M} (h : LoadBalancer.new M lower config path now = some w) {f : Family}
    (hf : f ∉ gaugeFamilies) (labels : List String) : w.prom.value f labels = 0 := by
  simp only [gaugeFamilies, List.mem_cons, List.not_mem_nil, or_false, not_or] at hf
  rw [prom_of_new h, value_initializeAll _ hf.1]
  simp [hf]

/-! ## Reloads -/

/-- One round of the merge loop initialises the series of an entry without a current record.
Source: `config_reloader.rs` `reload`, the second read section -/
theorem mergeEndpoint_prom {lb : LoadBalancer} {now : Instant} {s s' : MergeState M}
    {new : EndpointConfig} (h : mergeEndpoint lb now s new = some s') :
    s'.prom = if (lb.endpoint? new.url).isNone then initializeEndpointMetrics new.url s.prom
      else s.prom := by
  have hins : ∀ {t t' : MergeState M} {url : String} {burst rate : ℕ},
      t.insertFresh url burst rate = some t' → t'.prom = t.prom := by
    intro t t' url burst rate ht
    obtain ⟨l, -, ht⟩ := Option.bind_eq_some_iff.mp ht
    cases ht
    rfl
  unfold mergeEndpoint at h
  obtain ⟨weight, -, h⟩ := Option.bind_eq_some_iff.mp h
  cases hep : lb.endpoint? new.url with
  | some existing =>
      simp only [hep] at h
      split at h
      · rw [hins h]
        rfl
      · split at h <;> cases h <;> rfl
  | none =>
      simp only [hep] at h
      obtain ⟨t, ht, h⟩ := Option.bind_eq_some_iff.mp h
      cases h
      simp [hins ht]

/-- The merge loop initialises the series of the entries without a current record. -/
theorem mergeEndpoints_prom {lb : LoadBalancer} {now : Instant} :
    ∀ {new : List EndpointConfig} {s s' : MergeState M}, mergeEndpoints lb now s new = some s' →
      s'.prom = (new.filter fun e => (lb.endpoint? e.url).isNone).foldl
        (fun m e => initializeEndpointMetrics e.url m) s.prom
  | [], s, s', h => by
      cases h
      rfl
  | e :: new, s, s', h => by
      obtain ⟨t, ht, h⟩ := Option.bind_eq_some_iff.mp h
      have hone := mergeEndpoint_prom ht
      rw [mergeEndpoints_prom h, hone]
      cases hep : (lb.endpoint? e.url).isNone <;> simp [hep]

/-- **A section of a reload moves no counter**, unless it cleans up after endpoints.
Source: `config_reloader.rs` `reload` -/
theorem value_execSection (P : Platform) (c : Settings) (now : Instant) (w : World M)
    (frame : ReloadFrame) {sec : ReloadSection} (hsec : sec = .cleanup → frame.endpointsRemoved = [])
    {f : Family} (hf : f ∉ gaugeFamilies) (labels : List String) :
    (execSection P c now w frame sec).1.prom.value f labels = w.prom.value f labels := by
  simp only [gaugeFamilies, List.mem_cons, List.not_mem_nil, or_false, not_or] at hf
  obtain ⟨hcool, htotal, hhealthy⟩ := hf
  unfold execSection
  split
  · rfl
  · cases sec with
    | compareClient f | diff | writeEndpoints | writeRateLimiters | publish s => rfl
    | writeClient | writeClientField f => dsimp only; split <;> rfl
    | cleanup => simp [hsec rfl]
    | setTotal => simp [htotal]
    | countHealthy => simp [updateHealthyCount, updateHealthyCountAt, hhealthy]
    | merge =>
        show (mergeSection c now w frame).1.prom.value f labels = _
        unfold mergeSection
        split
        · rfl
        · rename_i s hs
          simp only [mergeEndpoints_prom hs, World.mergeStart]
          exact value_initializeAll _ hcool labels _ w.prom

/-! ## The system -/

/-- The step is not the cleanup of a reload that removes an endpoint. -/
def System.RemovesNothing (s : System M) : SystemEvent → Prop
  | .reloadSection k => ∀ call, s.reloads[k]? = some call → call.rest.head? = some .cleanup →
      call.frame.endpointsRemoved = []
  | _ => True

/-- A reload step moves no counter, unless it cleans up after endpoints. -/
theorem value_reloadStep (P : Platform) {s : System M} {e : SystemEvent} (h : s.RemovesNothing e)
    (hop : ∀ op, e ≠ .operation op) {f : Family} (hf : f ∉ gaugeFamilies) (labels : List String) :
    (s.step P e).world.prom.value f labels = s.world.prom.value f labels := by
  cases e with
  | operation op => exact absurd rfl (hop op)
  | startReload read now =>
      simp only [System.step]
      split <;> rfl
  | reloadSection k =>
      cases hk : s.reloads[k]? with
      | none => rw [System.step_reloadSection_of_none P hk]
      | some call =>
          rw [System.step_reloadSection P hk]
          simp only [ReloadCall.advance]
          split
          · rfl
          · rename_i sec rest hrest
            apply value_execSection P call.settings call.now s.world call.frame _ hf
            intro hsec
            apply h call hk
            rw [hrest, hsec]
            rfl

/-- **What no operation writes keeps its value**, as long as no endpoint is removed. -/
theorem value_systemStep (P : Platform) {s : System M} {e : SystemEvent} (h : s.RemovesNothing e)
    {f : Family} (hf : f ∉ operationFamilies ++ gaugeFamilies) (labels : List String) :
    (s.step P e).world.prom.value f labels = s.world.prom.value f labels := by
  rw [List.mem_append, not_or] at hf
  by_cases hop : ∃ op, e = .operation op
  · obtain ⟨op, rfl⟩ := hop
    exact value_exec s.world op hf.1 labels
  · exact value_reloadStep P h (fun op he => hop ⟨op, he⟩) hf.2 labels

end AzothBalancer
