import AzothBalancer.Lib.Runs
import AzothBalancer.Operation
import AzothBalancer.SelectionOptimum

/-!
# Sticky selection

Among endpoints of one weight the strategy prefers the one selected last, and a selection makes its endpoint
the one selected last. So a selection repeats itself: `selection_sticks` says that the endpoint answered once
is answered by every later request, for as long as it stays selectable, nothing else becomes selectable, and
the clock is not set back behind its last selection. Outside the second tier this is so whatever the requests
report on the way; in the second tier, where the cost decides first, for as long as the costs stand.

`Front` is the invariant: the endpoint is ahead of all others of a pool. The key of a selection is split into
what a selection leaves as it is (`standing`) and the time of the last selection.
-/

namespace AzothBalancer

open LeastBy OrderDual

variable {M : Meter}

/-! ## The key in two parts -/

/-- When an endpoint was last selected. -/
def World.lastSelected (w : World M) (ep : RpcEndpoint) : ℕ := (w.metricsOf ep).lastSelected

/-- Tier, weight and cost as a selection compares them. -/
def World.standing (w : World M) (ep : RpcEndpoint) : ℕ ×ₗ ℕᵒᵈ ×ₗ ℕ :=
  toLex ((tierOf ep.weight).getD 4,
    toLex (toDual ep.weight, tierCost w.metricsOf (tierOf ep.weight = some 2) ep))

section keys

variable {w w' : World M} {a b e : RpcEndpoint}

/-- An endpoint is ahead by its standing, or by a later selection. -/
theorem selectionKey_lt_iff_standing : selectionKey w a < selectionKey w b ↔
    w.standing a < w.standing b ∨ w.standing a = w.standing b ∧ w.lastSelected b < w.lastSelected a := by
  unfold selectionKey candidateKey World.standing World.lastSelected
  simp only [Prod.Lex.toLex_lt_toLex, toDual_lt_toDual, EmbeddingLike.apply_eq_iff_eq, Prod.mk.injEq]
  tauto

/-- It is not behind likewise. -/
theorem selectionKey_le_iff_standing : selectionKey w a ≤ selectionKey w b ↔
    w.standing a < w.standing b ∨ w.standing a = w.standing b ∧ w.lastSelected b ≤ w.lastSelected a := by
  unfold selectionKey candidateKey World.standing World.lastSelected
  simp only [Prod.Lex.toLex_le_toLex, Prod.Lex.toLex_lt_toLex, toDual_le_toDual,
    EmbeddingLike.apply_eq_iff_eq, Prod.mk.injEq]
  tauto

/-- Outside the second tier, costs do not count. -/
theorem standing_congr (he : tierOf e.weight ≠ some 2) (b : RpcEndpoint) :
    (w'.standing e < w'.standing b ↔ w.standing e < w.standing b) ∧
      (w'.standing e = w'.standing b ↔ w.standing e = w.standing b) := by
  by_cases hb : tierOf b.weight = some 2
  · have htier : (tierOf e.weight).getD 4 ≠ 2 := by
      rcases htier : tierOf e.weight with _ | k
      · simp
      · rw [htier] at he
        simpa using he
    simp [World.standing, Prod.Lex.toLex_lt_toLex, hb, htier]
  · simp [World.standing, tierCost, he, hb]

end keys

/-! ## The endpoint in front -/

/-- The endpoint is in the pool and ahead of all others in it, earlier places in the list winning ties. -/
def Front (pool : RpcEndpoint → Prop) (w : World M) (e : RpcEndpoint) : Prop :=
  pool e ∧ ∃ pre post, w.lb.endpoints = pre ++ e :: post ∧
    (∀ a ∈ pre, pool a → selectionKey w e < selectionKey w a) ∧
    ∀ b ∈ post, pool b → selectionKey w e ≤ selectionKey w b

section front

variable {pool : RpcEndpoint → Prop} {w w' : World M} {e : RpcEndpoint} {n : ℕ} {now : Instant}

/-- What a selection answers is in front of what it could have answered.
Source: `strategy.rs` `select_best_endpoint` -/
theorem selectBestEndpoint_eq_some_iff :
    (selectBestEndpoint w n now).1 = some e ↔ Front (Selectable w n now) w e := by
  rw [selectBestEndpoint_eq_head?]
  unfold selectables Front
  rw [head?_leastBy_filter_eq_some_iff]
  simp only [decide_eq_true_eq]
  constructor
  · rintro ⟨pre, post, hlist, hsel, hpre, hpost⟩
    exact ⟨hsel, pre, post, hlist, hpre, hpost⟩
  · rintro ⟨hsel, pre, post, hlist, hpre, hpost⟩
    exact ⟨pre, post, hlist, hsel, hpre, hpost⟩

/-- The endpoint in front of a pool is in front of a smaller one that it is in. -/
theorem Front.mono (h : Front pool w e) {pool' : RpcEndpoint → Prop} (he : pool' e)
    (hsub : ∀ a ∈ w.lb.endpoints, pool' a → pool a) : Front pool' w e := by
  obtain ⟨-, pre, post, hlist, hpre, hpost⟩ := h
  refine ⟨he, pre, post, hlist, fun a ha hp => ?_, fun b hb hp => ?_⟩
  · exact hpre a ha (hsub a (by simp [hlist, ha]) hp)
  · exact hpost b hb (hsub b (by simp [hlist, hb]) hp)

/-- The endpoint in front stays there if its standing against the others stays, its own selection is not taken
back, and no other is selected unless it shares its metrics. -/
theorem Front.later (h : Front pool w e) (hlb : w'.lb = w.lb)
    (hstanding : ∀ b, (w'.standing e < w'.standing b ↔ w.standing e < w.standing b) ∧
      (w'.standing e = w'.standing b ↔ w.standing e = w.standing b))
    (hself : w.lastSelected e ≤ w'.lastSelected e)
    (hothers : ∀ b, w'.lastSelected b = w.lastSelected b ∨
      w'.lastSelected b = w'.lastSelected e ∧ w.lastSelected b = w.lastSelected e) :
    Front pool w' e := by
  obtain ⟨he, pre, post, hlist, hpre, hpost⟩ := h
  refine ⟨he, pre, post, by rw [hlb, hlist], fun a ha hp => ?_, fun b hb hp => ?_⟩
  · have hkey := hpre a ha hp
    rw [selectionKey_lt_iff_standing] at hkey ⊢
    rw [(hstanding a).1, (hstanding a).2]
    refine hkey.imp id fun ⟨hsame, hlt⟩ => ⟨hsame, ?_⟩
    rcases hothers a with heq | ⟨-, heq⟩
    · rw [heq]
      exact lt_of_lt_of_le hlt hself
    · rw [heq] at hlt
      exact absurd hlt (lt_irrefl _)
  · have hkey := hpost b hb hp
    rw [selectionKey_le_iff_standing] at hkey ⊢
    rw [(hstanding b).1, (hstanding b).2]
    refine hkey.imp id fun ⟨hsame, hle⟩ => ⟨hsame, ?_⟩
    rcases hothers b with heq | ⟨heq, -⟩
    · rw [heq]
      exact hle.trans hself
    · rw [heq]

end front

/-! ## Operations -/

/-- The operation leaves the endpoint in front: a request finds it selectable, finds nothing selectable outside
the pool, and does not read a time before its last selection; metrics move only where costs do not count; and
no mark or health check is applied. -/
def SteadyFor (pool : RpcEndpoint → Prop) (e : RpcEndpoint) (w : World M) : Operation → Prop
  | .getNextEndpoint n clock =>
      Selectable w n clock.now e ∧ (∀ ep ∈ w.lb.endpoints, Selectable w n clock.now ep → pool ep) ∧
        w.lastSelected e ≤ clock.unixSecs
  | .updateMetrics .. => tierOf e.weight ≠ some 2
  | .updateHealthyCount _ => True
  | .markUnhealthy .. | .markRateLimited .. | .applyHealthResults .. => False

instance (pool : RpcEndpoint → Prop) [DecidablePred pool] (e : RpcEndpoint) (w : World M) :
    ∀ op, Decidable (SteadyFor pool e w op)
  | .getNextEndpoint n clock => inferInstanceAs (Decidable (Selectable w n clock.now e ∧
      (∀ ep ∈ w.lb.endpoints, Selectable w n clock.now ep → pool ep) ∧
        w.lastSelected e ≤ clock.unixSecs))
  | .updateMetrics .. => inferInstanceAs (Decidable (tierOf e.weight ≠ some 2))
  | .updateHealthyCount _ => inferInstanceAs (Decidable True)
  | .markUnhealthy .. | .markRateLimited .. | .applyHealthResults .. => inferInstanceAs (Decidable False)

/-- The world after an operation. -/
def World.after (w : World M) (op : Operation) : World M := (w.exec op).1

section operations

variable {pool : RpcEndpoint → Prop} {w : World M} {e : RpcEndpoint} {n : ℕ} {clock : Clock}

/-- What is stamped. A stamp moves the last selection of the endpoint and of whatever shares its metrics.
Source: `balancer.rs` `get_next_endpoint` -/
theorem lastSelected_stamp {w' : World M}
    (hmet : w'.metrics = w.metrics.modify e.metrics fun m => { m with lastSelected := clock.unixSecs })
    (b : RpcEndpoint) :
    w'.lastSelected b = w.lastSelected b ∨ b.metrics = e.metrics ∧ w'.lastSelected b = clock.unixSecs := by
  unfold World.lastSelected World.metricsOf
  rw [hmet, RefHeap.get?_modify]
  split
  · rename_i href
    rcases hget : w.metrics.get? b.metrics with _ | m
    · exact .inl rfl
    · exact .inr ⟨href, rfl⟩
  · exact .inl rfl

/-- A stamp moves no standing. -/
theorem standing_stamp {w' : World M}
    (hmet : w'.metrics = w.metrics.modify e.metrics fun m => { m with lastSelected := clock.unixSecs })
    (b : RpcEndpoint) : w'.standing b = w.standing b := by
  have hcost : (w'.metricsOf b).getTotalCost = (w.metricsOf b).getTotalCost := by
    unfold World.metricsOf
    rw [hmet, RefHeap.get?_modify]
    split
    · rcases w.metrics.get? b.metrics with _ | m <;> rfl
    · rfl
  unfold World.standing tierCost
  rw [hcost]

/-- **A request that finds the endpoint in front** answers it and leaves it in front.
Source: `balancer.rs` `get_next_endpoint` -/
theorem Front.getNextEndpoint (h : Front pool w e) (hsteady : SteadyFor pool e w (.getNextEndpoint n clock)) :
    (AzothBalancer.getNextEndpoint w n clock).1 = some e.url ∧
      Front pool (AzothBalancer.getNextEndpoint w n clock).2 e := by
  obtain ⟨hsel, hpool, hclock⟩ := hsteady
  have hanswer : (selectBestEndpoint w n clock.now).1 = some e :=
    selectBestEndpoint_eq_some_iff.mpr (h.mono hsel hpool)
  rcases getNextEndpoint_spec w n clock with ⟨w', hw', -⟩ | ⟨ep, w', hw', hbest, -, hlb, -, hmet⟩
  · have hnone : (AzothBalancer.getNextEndpoint w n clock).1 = some e.url := by
      unfold AzothBalancer.getNextEndpoint
      rcases hbest : selectBestEndpoint w n clock.now with ⟨_ | ep, w₁⟩
      · rw [hbest] at hanswer
        cases hanswer
      · rw [hbest] at hanswer
        cases hanswer
        rfl
    rw [hw'] at hnone
    cases hnone
  · rw [hbest] at hanswer
    cases hanswer
    rw [hw']
    refine ⟨rfl, h.later hlb (fun b => ?_) ?_ fun b => ?_⟩
    · rw [standing_stamp hmet, standing_stamp hmet]
      exact ⟨Iff.rfl, Iff.rfl⟩
    · rcases lastSelected_stamp hmet e with heq | ⟨-, heq⟩
      · rw [heq]
      · rw [heq]
        exact hclock
    · rcases lastSelected_stamp hmet b with heq | ⟨href, heq⟩
      · exact .inl heq
      · -- the endpoint shares the metrics of the one in front
        have hsame : w.metricsOf b = w.metricsOf e := by
          unfold World.metricsOf
          rw [href]
        have hsame' : w'.metricsOf b = w'.metricsOf e := by
          unfold World.metricsOf
          rw [href]
        unfold World.lastSelected
        rw [hsame, hsame']
        exact .inr ⟨rfl, rfl⟩

/-- The outcome of a request stamps nothing.
Source: `endpoint.rs` `EndpointMetrics::update` -/
theorem lastSelected_updateMetrics (url : String) (result : UpstreamResult) (elapsedMs : ℕ) (b : RpcEndpoint) :
    (updateMetrics w url result elapsedMs).lastSelected b = w.lastSelected b := by
  unfold updateMetrics World.lastSelected World.metricsOf
  split
  · rfl
  · rename_i ep _
    dsimp only
    rw [RefHeap.get?_modify]
    split
    · rcases w.metrics.get? b.metrics with _ | m
      · rfl
      · show ((m.update _ _).lastSelected) = m.lastSelected
        unfold EndpointMetrics.update
        split <;> rfl
    · rfl

/-- What a steady operation stamps belongs to the endpoint in front. -/
theorem Front.after (h : Front pool w e) {op : Operation} (hsteady : SteadyFor pool e w op) :
    Front pool (w.after op) e ∧ (w.after op).lb = w.lb ∧
      ∀ b, b.metrics ≠ e.metrics → (w.after op).lastSelected b = w.lastSelected b := by
  rcases op with ⟨n, clock⟩ | ⟨url, now⟩ | ⟨url, now⟩ | ⟨results, timeoutMs, now⟩ | now |
    ⟨url, result, elapsedMs⟩
  · have hnext := h.getNextEndpoint hsteady
    refine ⟨hnext.2, ?_⟩
    show (AzothBalancer.getNextEndpoint w n clock).2.lb = w.lb ∧ ∀ b, b.metrics ≠ e.metrics →
      (AzothBalancer.getNextEndpoint w n clock).2.lastSelected b = w.lastSelected b
    rcases getNextEndpoint_spec w n clock with ⟨w', hw', hs⟩ | ⟨ep, w', hw', hbest, -, hlb, -, hmet⟩
    · rw [hw'] at hnext
      cases hnext.1
    · have hep : ep = e := by
        have hanswer := selectBestEndpoint_eq_some_iff.mpr (h.mono hsteady.1 hsteady.2.1)
        rw [hbest] at hanswer
        exact Option.some.inj hanswer
      subst hep
      rw [hw']
      refine ⟨hlb, fun b hne => ?_⟩
      rcases lastSelected_stamp hmet b with heq | ⟨href, -⟩
      · exact heq
      · exact absurd href hne
  · exact hsteady.elim
  · exact hsteady.elim
  · exact hsteady.elim
  · exact ⟨h, rfl, fun _ _ => rfl⟩
  · have hlb : (updateMetrics w url result elapsedMs).lb = w.lb := by
      unfold updateMetrics
      split <;> rfl
    have hlast := lastSelected_updateMetrics (w := w) url result elapsedMs
    refine ⟨h.later hlb (standing_congr hsteady) (hlast e).ge fun b => .inl (hlast b), hlb, fun b _ => hlast b⟩

end operations

/-! ## Runs -/

/-- **A selection repeats itself.** From any state, let a request be answered with `e` by a clock not behind
its last selection. Then every later request is answered with `e`, as long as each finds `e`
selectable, finds nothing selectable that the first could not have answered, and reads a time not before the
last selection of `e`; outside the second tier, whatever the upstreams do to the metrics in between, in the
second tier, as long as they stay. No other endpoint's last selection moves, except by sharing metrics.
Source: `strategy.rs` `select_best_endpoint`; `balancer.rs` `get_next_endpoint` -/
theorem selection_sticks {w : World M} {n : ℕ} {clock : Clock} {e : RpcEndpoint} {ops : List Operation}
    (hfirst : (selectBestEndpoint w n clock.now).1 = some e) (hclock : w.lastSelected e ≤ clock.unixSecs)
    (hsteady : Runs.Along World.after (SteadyFor (Selectable w n clock.now) e)
      (getNextEndpoint w n clock).2 ops) :
    Runs.Along World.after
        (fun v op => ∀ k later, op = .getNextEndpoint k later → (getNextEndpoint v k later).1 = some e.url)
        (getNextEndpoint w n clock).2 ops ∧
      ∀ ep ∈ w.lb.endpoints, ep.metrics ≠ e.metrics →
        (Runs.run World.after (getNextEndpoint w n clock).2 ops).lastSelected ep = w.lastSelected ep := by
  have hfront : Front (Selectable w n clock.now) w e := selectBestEndpoint_eq_some_iff.mp hfirst
  have hsteady₀ : SteadyFor (Selectable w n clock.now) e w (.getNextEndpoint n clock) :=
    ⟨hfront.1, fun _ _ h => h, hclock⟩
  have hstart := hfront.after hsteady₀
  constructor
  · refine Runs.along_of_along (fun v => Front (Selectable w n clock.now) v e) ?_ hsteady hstart.1
    intro v op hop hv
    refine ⟨(hv.after hop).1, ?_⟩
    rintro k later rfl
    exact (hv.getNextEndpoint hop).1
  · intro ep _ hne
    have hrun := Runs.invariant_along
      (fun v => Front (Selectable w n clock.now) v e ∧ v.lastSelected ep = w.lastSelected ep)
      (SteadyFor (Selectable w n clock.now) e)
      (fun v op hop hv => ⟨(hv.1.after hop).1, ((hv.1.after hop).2.2 ep hne).trans hv.2⟩) hsteady
      ⟨hstart.1, hstart.2.2 ep hne⟩
    exact hrun.2

/-- What the first request of the sample is answered with. -/
def sampleSticky : RpcEndpoint := (selectBestEndpoint sampleSelected 1 0).1.get (by decide +kernel)

/-- `selection_sticks` for the two endpoints of one weight. -/
theorem selection_sticks_sample :
    Runs.Along World.after
      (fun v op => ∀ k later, op = .getNextEndpoint k later →
        (getNextEndpoint v k later).1 = some sampleSticky.url)
      (getNextEndpoint sampleSelected 1 ⟨0, 1001⟩).2
      [.getNextEndpoint 1 ⟨0, 1001⟩, .updateHealthyCount 0, .getNextEndpoint 2 ⟨0, 1002⟩] := by
  have hfirst : (selectBestEndpoint sampleSelected 1 0).1 = some sampleSticky := (Option.some_get _).symm
  have hclock : sampleSelected.lastSelected sampleSticky ≤ 1001 := by decide +kernel
  have hsteady : Runs.Along World.after (SteadyFor (Selectable sampleSelected 1 0) sampleSticky)
      (getNextEndpoint sampleSelected 1 ⟨0, 1001⟩).2
      [.getNextEndpoint 1 ⟨0, 1001⟩, .updateHealthyCount 0, .getNextEndpoint 2 ⟨0, 1002⟩] := by
    decide +kernel
  exact (selection_sticks (n := 1) hfirst hclock hsteady).1

end AzothBalancer
