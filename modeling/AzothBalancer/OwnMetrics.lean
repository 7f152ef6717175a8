import AzothBalancer.System

/-!
# A metrics object of its own

Endpoint records hold shared pointers to their metrics, so two records could share one object. In no
reachable state do they (`World.Reachable.ownMetrics`): an object enters a list when it is created, for one
record, and a reload hands it on to the record with the same URL.
-/

namespace AzothBalancer

variable {M : Meter}

/-- No two records have the same metrics object. -/
def OwnMetrics (eps : List RpcEndpoint) : Prop := (eps.map RpcEndpoint.metrics).Nodup

/-- One more record has an object of its own if no other record has it. -/
theorem OwnMetrics.append {eps : List RpcEndpoint} (h : OwnMetrics eps) {ep : RpcEndpoint}
    (hep : ∀ ep' ∈ eps, ep'.metrics ≠ ep.metrics) : OwnMetrics (eps ++ [ep]) := by
  unfold OwnMetrics at h ⊢
  rw [List.map_append, List.map_singleton, List.nodup_append]
  refine ⟨h, List.nodup_singleton _, ?_⟩
  intro r hr r' hr'
  obtain ⟨ep', hep', rfl⟩ := List.mem_map.mp hr
  rw [List.mem_singleton] at hr'
  subst hr'
  exact hep ep' hep'

/-- Two records of such a list with the same object are the same. -/
theorem OwnMetrics.eq_of_metrics {eps : List RpcEndpoint} (h : OwnMetrics eps) {ep ep' : RpcEndpoint}
    (hep : ep ∈ eps) (hep' : ep' ∈ eps) (heq : ep.metrics = ep'.metrics) : ep = ep' :=
  List.inj_on_of_nodup_map h hep hep' heq

/-! ## Startup -/

/-- Startup's loop creates an object for every record.
Source: `balancer.rs` `LoadBalancer::new` -/
theorem ownMetrics_newEndpoints (timeoutSecs : ℕ) (now : Instant) :
    ∀ (es : List EndpointConfig) {heap heap' : RefHeap EndpointMetrics} {eps : List RpcEndpoint},
      newEndpoints timeoutSecs now es heap = some (eps, heap') →
      OwnMetrics eps ∧ ∀ ep ∈ eps, ¬ heap.Valid ep.metrics
  | [], heap, heap', eps, h => by
      cases h
      exact ⟨List.nodup_nil, fun _ hep => absurd hep List.not_mem_nil⟩
  | e :: es, heap, heap', eps, h => by
      rw [newEndpoints] at h
      obtain ⟨weight, -, h⟩ := Option.bind_eq_some_iff.mp h
      obtain ⟨⟨rest, heap₂⟩, hrest, h⟩ := Option.bind_eq_some_iff.mp h
      cases h
      obtain ⟨hown, hfresh⟩ := ownMetrics_newEndpoints timeoutSecs now es hrest
      constructor
      · unfold OwnMetrics
        rw [List.map_cons, List.nodup_cons]
        refine ⟨?_, hown⟩
        intro hmem
        obtain ⟨ep, hep, heq⟩ := List.mem_map.mp hmem
        apply hfresh ep hep
        rw [heq]
        exact RefHeap.valid_alloc_self
      · intro ep hep
        rcases List.mem_cons.mp hep with rfl | hep
        · exact Nat.lt_irrefl heap.cells.length
        · exact fun hv => hfresh ep hep hv.alloc

/-- At startup, every endpoint has an object of its own.
Source: `balancer.rs` `LoadBalancer::new` -/
theorem ownMetrics_of_new {lower : List Char → List Char} {config : Option Config} {path : String}
    {now : Instant} {w : World M} (h : LoadBalancer.new M lower config path now = some w) :
    OwnMetrics w.lb.endpoints := by
  unfold LoadBalancer.new at h
  cases hfin : (config.getD {}).finalize lower with
  | err e => simp [hfin] at h
  | panic => simp [hfin] at h
  | ok finalized =>
      obtain ⟨b, server, c, n, addr, hb, hserver, hc, -, hn, haddr⟩ := valid_of_finalize hfin
      simp only [hfin, hserver, hb, hc, hn, haddr, Option.bind_eq_bind, Option.bind_some] at h
      obtain ⟨-, -, h⟩ := Option.bind_eq_some_iff.mp h
      obtain ⟨⟨eps, metrics⟩, heps, h⟩ := Option.bind_eq_some_iff.mp h
      obtain ⟨⟨map, limiters⟩, -, h⟩ := Option.bind_eq_some_iff.mp h
      cases h
      exact (ownMetrics_newEndpoints c.timeoutSecs now c.endpoints heps).1

/-! ## The merge -/

/-- A stage of the merge loop: its records have objects of their own, and the object of each is that of the
record with the same URL, or was created since the loop began in `old`. -/
structure MergeState.OwnMetrics (lb : LoadBalancer) (old : RefHeap EndpointMetrics) (s : MergeState M) :
    Prop where
  own : AzothBalancer.OwnMetrics s.newRpcEndpoints
  valid : ∀ ep ∈ s.newRpcEndpoints, s.metrics.Valid ep.metrics
  origin : ∀ ep ∈ s.newRpcEndpoints,
    (∃ ep₀, lb.endpoint? ep.url = some ep₀ ∧ ep₀.metrics = ep.metrics) ∨ ¬ old.Valid ep.metrics
  heap : RefHeap.Extends old s.metrics

section merge

variable {lb : LoadBalancer} {old : RefHeap EndpointMetrics} {now : Instant}

/-- One round of the loop, for a URL it has not seen. -/
theorem MergeState.OwnMetrics.step (hlb : AzothBalancer.OwnMetrics lb.endpoints)
    (hold : ∀ ep ∈ lb.endpoints, old.Valid ep.metrics) {s s' : MergeState M} {new : EndpointConfig}
    {ep : RpcEndpoint} (h : s.OwnMetrics lb old) (hnew : ∀ ep' ∈ s.newRpcEndpoints, ep'.url ≠ new.url)
    (hstep : MergeStep lb now [new] s s' [ep]) : s'.OwnMetrics lb old := by
  obtain ⟨hrec, -⟩ := List.forall₂_cons.mp hstep.records
  have hheap : RefHeap.Extends old s'.metrics := h.heap.trans hstep.metrics
  have hepurl : ep.url = new.url := hrec.config.1
  have horigin : s'.metrics.Valid ep.metrics ∧
      ((∃ ep₀, lb.endpoint? new.url = some ep₀ ∧ ep₀.metrics = ep.metrics) ∨
        ¬ s.metrics.Valid ep.metrics) := by
    cases hrec with
    | existing ep₀ weight hep₀ _ =>
        exact ⟨hheap.valid (hold ep₀ (KeyedList.mem_of_lookup hep₀)), .inl ⟨ep₀, hep₀, rfl⟩⟩
    | fresh weight r _ _ hr hget => exact ⟨RefHeap.valid_of_get? hget, .inr hr⟩
  -- no earlier record has the object of the new one
  have hapart : ∀ ep' ∈ s.newRpcEndpoints, ep'.metrics ≠ ep.metrics := by
    intro ep' hep' heq
    rcases horigin.2 with ⟨ep₀, hep₀, hsame⟩ | hfresh
    · rcases h.origin ep' hep' with ⟨ep₁, hep₁, hsame'⟩ | hnot
      · have heq' : ep₁ = ep₀ := hlb.eq_of_metrics (KeyedList.mem_of_lookup hep₁)
          (KeyedList.mem_of_lookup hep₀) (by rw [hsame', heq, hsame])
        apply hnew ep' hep'
        rw [← KeyedList.key_of_lookup hep₁, heq', KeyedList.key_of_lookup hep₀]
      · apply hnot
        rw [heq, ← hsame]
        exact hold ep₀ (KeyedList.mem_of_lookup hep₀)
    · exact hfresh (heq ▸ h.valid ep' hep')
  have hmem : ∀ {ep'}, ep' ∈ s'.newRpcEndpoints → ep' ∈ s.newRpcEndpoints ∨ ep' = ep := by
    intro ep' hep'
    rw [hstep.endpoints] at hep'
    simpa using hep'
  refine ⟨?_, ?_, ?_, hheap⟩
  · rw [hstep.endpoints]
    exact h.own.append hapart
  · intro ep' hep'
    rcases hmem hep' with hearlier | rfl
    · exact hstep.metrics.valid (h.valid ep' hearlier)
    · exact horigin.1
  · intro ep' hep'
    rcases hmem hep' with hearlier | rfl
    · exact h.origin ep' hearlier
    · rw [hepurl]
      exact horigin.2.imp_right fun hr hv => hr (h.heap.valid hv)

/-- The loop, on valid entries with distinct URLs.
Source: `config_reloader.rs` `reload`, the second read section -/
theorem MergeState.OwnMetrics.mergeEndpoints (hlb : AzothBalancer.OwnMetrics lb.endpoints)
    (hold : ∀ ep ∈ lb.endpoints, old.Valid ep.metrics) :
    ∀ (new : List EndpointConfig) {s s' : MergeState M}, s.OwnMetrics lb old →
      (∀ e ∈ new, e.Valid) → (new.map EndpointConfig.url).Nodup →
      (∀ e ∈ new, s.newRateLimiters e.url = none) →
      (∀ e ∈ new, ∀ ep ∈ s.newRpcEndpoints, ep.url ≠ e.url) →
      AzothBalancer.mergeEndpoints lb now s new = some s' → s'.OwnMetrics lb old
  | [], _, _, h, _, _, _, _, heq => by
      cases heq
      exact h
  | e :: es, s, s', h, hv, hn, hnone, hurls, heq => by
      rw [List.map_cons, List.nodup_cons] at hn
      obtain ⟨s₁, ep, hs₁, hstep₁⟩ :=
        mergeEndpoint_spec lb now s (hv e List.mem_cons_self) (hnone e List.mem_cons_self)
      unfold AzothBalancer.mergeEndpoints at heq
      rw [List.foldlM_cons, hs₁] at heq
      have hepurl : ep.url = e.url := (List.forall₂_cons.mp hstep₁.records).1.config.1
      have hne : ∀ e' ∈ es, e'.url ≠ e.url := fun e' he' heq' => hn.1 (heq' ▸ List.mem_map_of_mem he')
      apply MergeState.OwnMetrics.mergeEndpoints hlb hold es
        (h.step hlb hold (hurls e List.mem_cons_self) hstep₁)
        (fun e' he' => hv e' (List.mem_cons_of_mem _ he')) hn.2 _ _ heq
      · intro e' he'
        rw [hstep₁.elsewhere]
        · exact hnone e' (List.mem_cons_of_mem _ he')
        · simpa using hne e' he'
      · intro e' he' ep' hep'
        rw [hstep₁.endpoints, List.mem_append, List.mem_singleton] at hep'
        rcases hep' with hearlier | rfl
        · exact hurls e' (List.mem_cons_of_mem _ he') ep' hearlier
        · rw [hepurl]
          exact (hne e' he').symm

/-- The merge section gives every record an object of its own.
Source: `config_reloader.rs` `reload`, the second read section -/
theorem ownMetrics_mergeSection {c : Settings} (hc : c.Valid) (now : Instant) {w : World M}
    (hw : w.WellFormed) (hown : OwnMetrics w.lb.endpoints) {frame : ReloadFrame}
    (hframe : OwnMetrics frame.newRpcEndpoints) :
    OwnMetrics (mergeSection c now w frame).2.newRpcEndpoints := by
  unfold mergeSection
  split
  · exact hframe
  · rename_i s hs
    have hnone : ∀ ep, ep ∉ w.mergeStart.newRpcEndpoints := fun _ => List.not_mem_nil
    have hstart : w.mergeStart.OwnMetrics w.lb w.metrics := {
      own := List.nodup_nil
      valid := fun ep hep => absurd hep (hnone ep)
      origin := fun ep hep => absurd hep (hnone ep)
      heap := .refl _ }
    exact (hstart.mergeEndpoints hown hw.metrics c.endpoints hc.endpoint hc.nodup (fun _ _ => rfl)
      (fun _ _ ep hep => absurd hep (hnone ep)) hs).own

end merge

/-! ## Interleavings -/

/-- The frame of an operation keeps the objects of the records. -/
theorem World.Keeps.ownMetrics {w w' : World M} (h : w.Keeps w') (hown : OwnMetrics w.lb.endpoints) :
    OwnMetrics w'.lb.endpoints := by
  have hrefs : w'.lb.endpoints.map RpcEndpoint.metrics = w.lb.endpoints.map RpcEndpoint.metrics := by
    have hm := congrArg (List.map EndpointProfile.metrics) h.profiles
    simpa [List.map_map, Function.comp_def, RpcEndpoint.profile] using hm
  unfold OwnMetrics
  rw [hrefs]
  exact hown

/-- A section keeps the objects apart.
Source: `config_reloader.rs` `reload` -/
theorem ownMetrics_execSection (P : Platform) {c : Settings} (hc : c.Valid) (now : Instant) {w : World M}
    {frame : ReloadFrame} (hwf : w.WellFormed) (hw : OwnMetrics w.lb.endpoints)
    (hf : OwnMetrics frame.newRpcEndpoints) (sec : ReloadSection) :
    OwnMetrics (execSection P c now w frame sec).1.lb.endpoints ∧
      OwnMetrics (execSection P c now w frame sec).2.newRpcEndpoints := by
  by_cases hq : sec.isQuiet
  · obtain ⟨hs, heps, -, -⟩ := execSection_quiet P c now w frame hq
    rw [hs.endpoints, heps]
    exact ⟨hw, hf⟩
  · have hmerge := ownMetrics_mergeSection hc now hwf hw hf
    have hlb : (mergeSection c now w frame).1.lb = w.lb := by
      unfold mergeSection
      split <;> rfl
    unfold execSection
    split
    · exact ⟨hw, hf⟩
    · cases sec with
      | merge => exact ⟨hlb ▸ hw, hmerge⟩
      | writeEndpoints => exact ⟨hf, hf⟩
      | writeRateLimiters => exact ⟨hw, hf⟩
      | _ => exact absurd rfl hq

/-- **In every reachable state, every endpoint has a metrics object of its own.** -/
theorem World.Reachable.ownMetrics {P : Platform} {w : World M} (h : w.Reachable P) :
    OwnMetrics w.lb.endpoints := by
  have hkept : System.Kept P (fun w : World M => OwnMetrics w.lb.endpoints)
      (fun frame => OwnMetrics frame.newRpcEndpoints) := {
    operation := fun w op hw => (keeps_exec w op).ownMetrics hw
    empty := List.nodup_nil
    section_ := fun _ now _ _ sec hc hwf hw hf => ownMetrics_execSection P hc now hwf hw hf sec }
  obtain ⟨s, hs, rfl⟩ := h
  exact (hs.of_kept hkept fun _ _ _ _ hnew => ownMetrics_of_new hnew).world

end AzothBalancer
