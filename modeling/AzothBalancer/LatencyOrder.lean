import AzothBalancer.SelectionOptimum

/-!
# The order of the second tier

In the second tier the strategy prefers, among endpoints of one weight, the lower total cost. The cost
is the latency average plus the penalty average, floored at one second "to prevent costs from dropping
too low and creating feedback loops". So the order of the costs is that of the latencies only above the
floor (and below saturation); below it the last selection decides.

* `getTotalCost_le`, `sums_of_getTotalCost_le` — what a lower latency does to the cost.
* `key_le_of_selected` — no selectable endpoint comes before the selected one.
* `tier2_latency_order` — the order of the tier; `floor_hides_latency` is a selection in which the floor
  decides.
-/

namespace AzothBalancer

open LeastBy OrderDual

variable {M : Meter}

/-! ## Costs -/

namespace EndpointMetrics

variable {m m' : EndpointMetrics}

/-- A lower latency and a penalty that is not larger do not cost more.
Source: `endpoint.rs` `get_total_cost` -/
theorem getTotalCost_le (hl : m.emaLatencyMs < m'.emaLatencyMs)
    (hp : m.emaErrorPenaltyMs ≤ m'.emaErrorPenaltyMs) : m.getTotalCost ≤ m'.getTotalCost := by
  unfold getTotalCost saturatingAdd64
  omega

/-- **Where a lower latency costs no less**, both sums are hidden: by the floor, or by saturation.
Source: `endpoint.rs` `get_total_cost` -/
theorem sums_of_getTotalCost_le (hl : m.emaLatencyMs < m'.emaLatencyMs)
    (hp : m.emaErrorPenaltyMs ≤ m'.emaErrorPenaltyMs) (h : m'.getTotalCost ≤ m.getTotalCost) :
    m'.emaLatencyMs + m'.emaErrorPenaltyMs ≤ 1000 ∨ u64Max ≤ m.emaLatencyMs + m.emaErrorPenaltyMs := by
  have hfloor : 1000 < u64Max := by decide
  unfold getTotalCost saturatingAdd64 at h
  omega

end EndpointMetrics

/-! ## The selected endpoint -/

section selected

variable {w : World M} {n : ℕ} {now : Instant} {e f : RpcEndpoint}

/-- **No selectable endpoint comes before the selected one.**
Source: `strategy.rs` `select_best_endpoint` -/
theorem key_le_of_selected (h : (selectBestEndpoint w n now).1 = some e) (hf : f ∈ w.lb.endpoints)
    (hsel : Selectable w n now f) : selectionKey w e ≤ selectionKey w f := by
  obtain ⟨pre, post, hsplit, -, hpre, hpost⟩ := ((selection_optimum w n now).1 e).mp h
  rw [hsplit] at hf
  rcases List.mem_append.mp hf with hbefore | hafter
  · exact (hpre f hbefore hsel).le
  · rcases List.mem_cons.mp hafter with rfl | hlater
    · exact le_rfl
    · exact hpost f hlater hsel

/-- An available endpoint of positive weight is selectable if every limiter grants the batch. -/
theorem selectable_of_granted (hgrants : EveryLimiterGrants w n now) (hf : f ∈ w.lb.endpoints)
    (havail : f.isAvailable now = true) (hw : 0 < f.weight) : Selectable w n now f := by
  rw [selectable_iff]
  refine ⟨by simp [havail, hw], ?_⟩
  unfold World.lets
  rw [hgrants f hf]

/-- In the second tier, endpoints of one weight compare by cost, then by the last selection. -/
theorem selectionKey_le_iff (h2 : tierOf e.weight = some 2) (hw : f.weight = e.weight) :
    selectionKey w e ≤ selectionKey w f ↔
      (w.metricsOf e).getTotalCost < (w.metricsOf f).getTotalCost ∨
        (w.metricsOf e).getTotalCost = (w.metricsOf f).getTotalCost ∧
          (w.metricsOf f).lastSelected ≤ (w.metricsOf e).lastSelected := by
  unfold selectionKey candidateKey tierCost
  simp [hw, h2, Prod.Lex.toLex_le_toLex]

end selected

/-- **The order of the second tier.** With every limiter granting the batch, where an endpoint of weight
50 to 99 is selected although another available one of its weight has a strictly smaller latency and a
penalty that is not larger, the costs do not tell the two apart (the selected endpoint's latency and
penalty are together at most 1000 ms, or the other's reach `u64::MAX`), and the other was not selected
more recently.
Source: `strategy.rs` `select_best_endpoint`; `endpoint.rs` `get_total_cost` -/
theorem tier2_latency_order {w : World M} {n : ℕ} {now : Instant} {e : RpcEndpoint}
    (hgrants : EveryLimiterGrants w n now) (h : (selectBestEndpoint w n now).1 = some e)
    (hlo : 50 ≤ e.weight) (hhi : e.weight ≤ 99) :
    ∀ f ∈ w.lb.endpoints, f.isAvailable now = true → f.weight = e.weight →
      (w.metricsOf f).emaLatencyMs < (w.metricsOf e).emaLatencyMs →
      (w.metricsOf f).emaErrorPenaltyMs ≤ (w.metricsOf e).emaErrorPenaltyMs →
      ((w.metricsOf e).emaLatencyMs + (w.metricsOf e).emaErrorPenaltyMs ≤ 1000 ∨
        u64Max ≤ (w.metricsOf f).emaLatencyMs + (w.metricsOf f).emaErrorPenaltyMs) ∧
      (w.metricsOf f).lastSelected ≤ (w.metricsOf e).lastSelected := by
  intro f hf havail hw hlatency hpenalty
  have h2 : tierOf e.weight = some 2 := by
    unfold tierOf tier1MinWeight tier2MinWeight
    rw [if_neg (by omega), if_pos hlo]
  have hsel := selectable_of_granted hgrants hf havail (by omega)
  have hcost := EndpointMetrics.getTotalCost_le hlatency hpenalty
  rcases (selectionKey_le_iff h2 hw).mp (key_le_of_selected h hf hsel) with hless | ⟨heq, hlast⟩
  · exact absurd hless (Nat.not_lt.mpr hcost)
  · exact ⟨EndpointMetrics.sums_of_getTotalCost_le hlatency hpenalty heq.le, hlast⟩

/-! ## Below the floor -/

/-- Two endpoints of weight 60, the first with 900 ms of latency and selected at second 2, the second with
100 ms and selected at second 1. -/
def sampleFloored : World leakyBucket :=
  { (LoadBalancer.new leakyBucket asciiLowercase
      (some (.ofEndpoints [otherEndpoint, sampleEndpoint])) "config.toml" 0).get (by decide) with
    metrics := ⟨[{ emaLatencyMs := 900, lastSelected := 2 }, { emaLatencyMs := 100, lastSelected := 1 }]⟩ }

/-- Both limiters grant a cell. -/
theorem everyLimiterGrants_sampleFloored : EveryLimiterGrants sampleFloored 1 0 := by
  unfold EveryLimiterGrants
  decide +kernel

/-- The first endpoint is selected. -/
theorem exists_selected_sampleFloored : ∃ e, (selectBestEndpoint sampleFloored 1 0).1 = some e ∧
    e.weight = 60 ∧ (sampleFloored.metricsOf e).emaLatencyMs = 900 ∧
    (sampleFloored.metricsOf e).emaErrorPenaltyMs = 0 ∧ (sampleFloored.metricsOf e).lastSelected = 2 := by
  decide +kernel

/-- **The floor hides the latencies.** The endpoint with 900 ms is selected, and the one with 100 ms is
available.
Source: `strategy.rs` `select_best_endpoint`; `endpoint.rs` `get_total_cost` -/
theorem floor_hides_latency : ¬ ∀ (M : Meter) (w : World M) (n : ℕ) (now : Instant) (e : RpcEndpoint),
    EveryLimiterGrants w n now → (selectBestEndpoint w n now).1 = some e → 50 ≤ e.weight →
    e.weight ≤ 99 → ∀ f ∈ w.lb.endpoints, f.isAvailable now = true → f.weight = e.weight →
      ¬ ((w.metricsOf f).emaLatencyMs < (w.metricsOf e).emaLatencyMs ∧
        (w.metricsOf f).emaErrorPenaltyMs ≤ (w.metricsOf e).emaErrorPenaltyMs) := by
  intro h
  obtain ⟨e, hsel, hw, hlatency, hpenalty, -⟩ := exists_selected_sampleFloored
  have hfast : ∃ f ∈ sampleFloored.lb.endpoints, f.isAvailable 0 = true ∧ f.weight = 60 ∧
      (sampleFloored.metricsOf f).emaLatencyMs = 100 ∧
      (sampleFloored.metricsOf f).emaErrorPenaltyMs = 0 := by decide +kernel
  obtain ⟨f, hf, havail, hfw, hflatency, hfpenalty⟩ := hfast
  exact h leakyBucket sampleFloored 1 0 e everyLimiterGrants_sampleFloored hsel (by omega) (by omega) f hf
    havail (hfw.trans hw.symm) ⟨by omega, by omega⟩

/-- `tier2_latency_order` on the two endpoints. -/
theorem tier2_latency_order_sample : ∃ e, (selectBestEndpoint sampleFloored 1 0).1 = some e ∧
    ∀ f ∈ sampleFloored.lb.endpoints, f.isAvailable 0 = true → f.weight = e.weight →
      (sampleFloored.metricsOf f).emaLatencyMs < (sampleFloored.metricsOf e).emaLatencyMs →
      (sampleFloored.metricsOf f).emaErrorPenaltyMs ≤ (sampleFloored.metricsOf e).emaErrorPenaltyMs →
      ((sampleFloored.metricsOf e).emaLatencyMs + (sampleFloored.metricsOf e).emaErrorPenaltyMs ≤ 1000 ∨
        u64Max ≤ (sampleFloored.metricsOf f).emaLatencyMs +
          (sampleFloored.metricsOf f).emaErrorPenaltyMs) ∧
      (sampleFloored.metricsOf f).lastSelected ≤ (sampleFloored.metricsOf e).lastSelected := by
  obtain ⟨e, hsel, hw, -⟩ := exists_selected_sampleFloored
  exact ⟨e, hsel, tier2_latency_order everyLimiterGrants_sampleFloored hsel (by omega) (by omega)⟩

end AzothBalancer
