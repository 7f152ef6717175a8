import AzothBalancer.Balancer

/-!
# What a selection does

A selection walks its candidates and asks one limiter after another. Since a refused decision
changes nothing, the walk leaves no trace at the candidates it skips: the limiters afterwards are
those of *one* decision, the granted one (`Reserved`), or none at all.

* `reserveTokens_spec` — one candidate;
* `scanCandidates_spec`, `scanTiers_spec` — the two loops, by recursion on their lists;
* `selectBestEndpoint_fst` — which endpoint a selection answers: the first one, in the order of the
  sorted tiers, that its limiter lets through;
* `getNextEndpoint_spec` — the operation: either it answers nothing and has touched only the
  registry, or it answers the URL of an available endpoint of positive weight, has charged the batch
  to that URL's limiter and stamped that endpoint's metrics object.
-/

namespace AzothBalancer

variable {M : Meter}

/-- Only the registry differs. -/
structure World.SameStore (w w' : World M) : Prop where
  lb : w'.lb = w.lb
  metrics : w'.metrics = w.metrics
  limiters : w'.limiters = w.limiters

theorem World.SameStore.refl (w : World M) : w.SameStore w := ⟨rfl, rfl, rfl⟩

theorem World.SameStore.trans {w₁ w₂ w₃ : World M} (h₁₂ : w₁.SameStore w₂) (h₂₃ : w₂.SameStore w₃) :
    w₁.SameStore w₃ :=
  ⟨h₂₃.lb.trans h₁₂.lb, h₂₃.metrics.trans h₁₂.metrics, h₂₃.limiters.trans h₁₂.limiters⟩

/-- A reservation of `n` cells under `url` succeeded in `w` and left these limiters. -/
inductive Reserved (w : World M) (url : String) (n : ℕ) (now : Instant) :
    RefHeap (RateLimiter M) → Prop where
  /-- The URL has no limiter: nothing is charged. -/
  | unlimited : w.limiter? url = none → Reserved w url n now w.limiters
  /-- There is nothing to charge. -/
  | nothing : n = 0 → Reserved w url n now w.limiters
  /-- The URL's limiter granted the cells. -/
  | charged {r : LimiterRef} {l : RateLimiter M} : w.lb.rateLimiters url = some r →
      w.limiters.get? r = some l → 0 < n → (l.checkN now n).1 = true →
      Reserved w url n now (w.limiters.modify r fun _ => (l.checkN now n).2)

/-- A reservation looks at the load balancer and the limiters only. -/
theorem Reserved.of_sameStore {w w' : World M} {url : String} {n : ℕ} {now : Instant}
    {heap : RefHeap (RateLimiter M)} (hs : w.SameStore w') (h : Reserved w' url n now heap) :
    Reserved w url n now heap := by
  have hl : w'.limiter? url = w.limiter? url := by
    unfold World.limiter?
    rw [hs.lb, hs.limiters]
  cases h with
  | unlimited hn =>
      rw [hs.limiters]
      exact .unlimited (hl ▸ hn)
  | nothing hn =>
      rw [hs.limiters]
      exact .nothing hn
  | charged hr hg hn hok =>
      rw [hs.limiters] at hg ⊢
      exact .charged (hs.lb ▸ hr) hg hn hok

/-- **One reservation**: refused, it changes nothing; granted, it changes the limiters only.
Source: `strategy.rs` `reserve_tokens` -/
theorem reserveTokens_spec (w : World M) (url : String) (n : ℕ) (now : Instant) :
    (∃ e, reserveTokens w url n now = (.error e, w)) ∨
      ∃ heap, Reserved w url n now heap ∧
        reserveTokens w url n now = (.ok (), { w with limiters := heap }) := by
  unfold reserveTokens
  split
  · exact Or.inl ⟨_, rfl⟩
  · split
    · rename_i hr
      refine Or.inr ⟨w.limiters, .unlimited ?_, rfl⟩
      simp [World.limiter?, hr]
    · rename_i r hr
      split
      · rename_i hn
        exact Or.inr ⟨w.limiters, .nothing hn, rfl⟩
      · rename_i hn
        split
        · rename_i hg
          refine Or.inr ⟨w.limiters, .unlimited ?_, rfl⟩
          simp [World.limiter?, hr, hg]
        · rename_i l hg
          cases hok : (l.checkN now n).1 with
          | true =>
              refine Or.inr ⟨_, .charged hr hg (Nat.pos_of_ne_zero hn) hok, ?_⟩
              simp [hok]
          | false =>
              refine Or.inl ⟨.rateLimited url, ?_⟩
              have hsame := RefHeap.modify_const_of_get? hg
              simp [hok, RateLimiter.checkN_of_refused hok, hsame]

/-- **The inner loop**: it answers nothing and only counts, or it answers a candidate after one
granted reservation.
Source: `strategy.rs` `select_best_endpoint`, the inner loop -/
theorem scanCandidates_spec (n : ℕ) (now : Instant) :
    ∀ (candidates : List RpcEndpoint) (rank : ℕ) (w : World M),
      (∃ w', scanCandidates n now rank candidates w = (none, w') ∧ w.SameStore w') ∨
        ∃ ep w', scanCandidates n now rank candidates w = (some ep, w') ∧ ep ∈ candidates ∧
          w'.lb = w.lb ∧ w'.metrics = w.metrics ∧ Reserved w ep.url n now w'.limiters
  | [], _, w => Or.inl ⟨w, rfl, .refl w⟩
  | ep :: rest, rank, w => by
      rw [scanCandidates]
      rcases reserveTokens_spec w ep.url n now with ⟨e, he⟩ | ⟨heap, hres, heq⟩
      · rw [he]
        have hs : w.SameStore { w with prom := logRateLimited ep w.prom } := ⟨rfl, rfl, rfl⟩
        rcases scanCandidates_spec n now rest (rank + 1) { w with prom := logRateLimited ep w.prom }
          with ⟨w', hw', hsame⟩ | ⟨ep', w', hw', hmem, hlb, hmet, hres⟩
        · exact Or.inl ⟨w', hw', hs.trans hsame⟩
        · exact Or.inr ⟨ep', w', hw', List.mem_cons_of_mem _ hmem, hlb, hmet, hres.of_sameStore hs⟩
      · rw [heq]
        exact Or.inr ⟨ep, _, rfl, List.mem_cons_self, rfl, rfl, hres⟩

/-- **The outer loop**, likewise.
Source: `strategy.rs` `select_best_endpoint`, the outer loop -/
theorem scanTiers_spec (n : ℕ) (now : Instant) :
    ∀ (tiers : List (List RpcEndpoint)) (w : World M),
      (∃ w', scanTiers n now tiers w = (none, w') ∧ w.SameStore w') ∨
        ∃ ep w', scanTiers n now tiers w = (some ep, w') ∧ (∃ tier ∈ tiers, ep ∈ tier) ∧
          w'.lb = w.lb ∧ w'.metrics = w.metrics ∧ Reserved w ep.url n now w'.limiters
  | [], w => Or.inl ⟨w, rfl, .refl w⟩
  | tier :: tiers, w => by
      rw [scanTiers]
      rcases scanCandidates_spec n now tier 0 w with ⟨w₁, hw₁, hs⟩ | ⟨ep, w₁, hw₁, hmem, hrest⟩
      · rw [hw₁]
        rcases scanTiers_spec n now tiers w₁ with ⟨w', hw', hsame⟩ | ⟨ep, w', hw', ⟨t, ht, hep⟩, hrest⟩
        · exact Or.inl ⟨w', hw', hs.trans hsame⟩
        · obtain ⟨hlb, hmet, hres⟩ := hrest
          exact Or.inr ⟨ep, w', hw', ⟨t, List.mem_cons_of_mem _ ht, hep⟩, hlb.trans hs.lb,
            hmet.trans hs.metrics, hres.of_sameStore hs⟩
      · rw [hw₁]
        exact Or.inr ⟨ep, w₁, rfl, ⟨tier, List.mem_cons_self, hmem⟩, hrest⟩

/-- Sorting a tier keeps its candidates. -/
theorem mem_sortCandidates {metricsOf : RpcEndpoint → EndpointMetrics} {useCost : Bool}
    {candidates : List RpcEndpoint} {ep : RpcEndpoint} :
    ep ∈ sortCandidates metricsOf useCost candidates ↔ ep ∈ candidates :=
  (List.perm_insertionSort _ _).mem_iff

/-- What the tiers contain is available and has positive weight. -/
theorem mem_availableEndpoints_of_sortedTiers {w : World M} {now : Instant} {ep : RpcEndpoint}
    (h : ∃ tier ∈ sortedTiers w now, ep ∈ tier) : ep ∈ availableEndpoints w.lb now := by
  obtain ⟨tier, ht, hep⟩ := h
  obtain ⟨⟨k, useCost⟩, -, rfl⟩ := List.mem_map.mp ht
  exact List.mem_of_mem_filter (mem_sortCandidates.mp hep)

/-- **A selection**: it answers nothing and only counts, or it answers an available endpoint of
positive weight after one granted reservation.
Source: `strategy.rs` `select_best_endpoint` -/
theorem selectBestEndpoint_spec (w : World M) (n : ℕ) (now : Instant) :
    (∃ w', selectBestEndpoint w n now = (none, w') ∧ w.SameStore w') ∨
      ∃ ep w', selectBestEndpoint w n now = (some ep, w') ∧ ep ∈ availableEndpoints w.lb now ∧
        w'.lb = w.lb ∧ w'.metrics = w.metrics ∧ Reserved w ep.url n now w'.limiters := by
  unfold selectBestEndpoint
  split
  · exact Or.inl ⟨w, rfl, .refl w⟩
  · rcases scanTiers_spec n now (sortedTiers w now) w with ⟨w', hw', hs⟩ | ⟨ep, w', hw', hmem, hrest⟩
    · rw [hw']
      exact Or.inl ⟨_, rfl, hs.trans ⟨rfl, rfl, rfl⟩⟩
    · rw [hw']
      exact Or.inr ⟨ep, w', rfl, mem_availableEndpoints_of_sortedTiers hmem, hrest⟩

/-! ## Which endpoint -/

/-- The limiter under a URL lets `n` cells through.
Source: `strategy.rs`, `reserve_tokens(..).is_ok()` -/
def World.lets (w : World M) (n : ℕ) (now : Instant) (url : String) : Bool :=
  match (reserveTokens w url n now).1 with
  | .ok _ => true
  | .error _ => false

/-- What a limiter lets through does not depend on the registry. -/
theorem World.SameStore.lets {w w' : World M} (h : w.SameStore w') (n : ℕ) (now : Instant)
    (url : String) : w'.lets n now url = w.lets n now url := by
  have hfst : (reserveTokens w' url n now).1 = (reserveTokens w url n now).1 := by
    unfold reserveTokens
    rw [h.lb, h.limiters]
    split
    · rfl
    · cases w.lb.rateLimiters url with
      | none => rfl
      | some r =>
          dsimp only
          split
          · rfl
          · cases w.limiters.get? r with
            | none => rfl
            | some l =>
                dsimp only
                split <;> rfl
  unfold World.lets
  rw [hfst]

/-- The first candidate that is let through.
Source: `strategy.rs` `select_best_endpoint`, the inner loop -/
theorem scanCandidates_fst (n : ℕ) (now : Instant) :
    ∀ (candidates : List RpcEndpoint) (rank : ℕ) (w : World M),
      (scanCandidates n now rank candidates w).1 = candidates.find? fun ep => w.lets n now ep.url
  | [], _, _ => rfl
  | ep :: rest, rank, w => by
      rw [scanCandidates, List.find?_cons]
      rcases reserveTokens_spec w ep.url n now with ⟨e, he⟩ | ⟨heap, -, heq⟩
      · have hlets : w.lets n now ep.url = false := by
          unfold World.lets
          rw [he]
        have hs : w.SameStore { w with prom := logRateLimited ep w.prom } := ⟨rfl, rfl, rfl⟩
        have hrest := scanCandidates_fst n now rest (rank + 1) { w with prom := logRateLimited ep w.prom }
        simp only [hs.lets] at hrest
        rw [he, hlets]
        exact hrest
      · have hlets : w.lets n now ep.url = true := by
          unfold World.lets
          rw [heq]
        rw [heq, hlets]

/-- The first candidate that is let through, tier by tier.
Source: `strategy.rs` `select_best_endpoint`, the outer loop -/
theorem scanTiers_fst (n : ℕ) (now : Instant) :
    ∀ (tiers : List (List RpcEndpoint)) (w : World M),
      (scanTiers n now tiers w).1 = tiers.flatten.find? fun ep => w.lets n now ep.url
  | [], _ => rfl
  | tier :: tiers, w => by
      have htier := scanCandidates_fst n now tier 0 w
      rw [scanTiers, List.flatten_cons, List.find?_append, ← htier]
      rcases scanCandidates_spec n now tier 0 w with ⟨w₁, hw₁, hs⟩ | ⟨ep, w₁, hw₁, -⟩
      · have hrest := scanTiers_fst n now tiers w₁
        simp only [hs.lets] at hrest
        rw [hw₁]
        exact hrest
      · rw [hw₁]
        rfl

/-- **Which endpoint a selection answers**: the first of the sorted tiers that its limiter lets
through.
Source: `strategy.rs` `select_best_endpoint` -/
theorem selectBestEndpoint_fst (w : World M) (n : ℕ) (now : Instant) :
    (selectBestEndpoint w n now).1 =
      (sortedTiers w now).flatten.find? fun ep => w.lets n now ep.url := by
  rw [← scanTiers_fst]
  unfold selectBestEndpoint
  split
  · rename_i hempty
    simp [sortedTiers, List.isEmpty_iff.mp hempty, sortCandidates, scanTiers, scanCandidates]
  · rcases scanTiers n now (sortedTiers w now) w with ⟨_ | ep, w'⟩ <;> rfl

/-- **The operation.** `ep` is the selected record.
Source: `balancer.rs` `get_next_endpoint` -/
theorem getNextEndpoint_spec (w : World M) (n : ℕ) (clock : Clock) :
    (∃ w', getNextEndpoint w n clock = (none, w') ∧ w.SameStore w') ∨
      ∃ ep w', getNextEndpoint w n clock = (some ep.url, w') ∧
        selectBestEndpoint w n clock.now = (some ep, { w' with metrics := w.metrics }) ∧
        ep ∈ availableEndpoints w.lb clock.now ∧ w'.lb = w.lb ∧
        Reserved w ep.url n clock.now w'.limiters ∧
        w'.metrics = w.metrics.modify ep.metrics fun m => { m with lastSelected := clock.unixSecs } := by
  unfold getNextEndpoint
  rcases selectBestEndpoint_spec w n clock.now with ⟨w', hw', hs⟩ | ⟨ep, w', hw', hep, hlb, hmet, hres⟩
  · rw [hw']
    exact Or.inl ⟨w', rfl, hs⟩
  · rw [hw']
    refine Or.inr ⟨ep, _, rfl, ?_, hep, hlb, hres, ?_⟩
    · rw [← hmet]
    · rw [hmet]

end AzothBalancer
