import AzothBalancer.PriorityStats

/-!
# A selection as an optimum

`select_best_endpoint` distributes the endpoints over three tiers, sorts each and scans them one after
another. What it answers is the least of the endpoints it could answer (`Selectable`) under one key
(`selectionKey`): the tier, then the tier's own comparison.

* `selectable_iff` — the four conditions, as the scan finds them;
* `head?_tier` — what a sorted tier contributes;
* `selectBestEndpoint_isSome_iff` — when there is an answer;
* `selection_optimum` — the whole selection: the first least endpoint of the list, which a single
  pass over the list finds.
-/

namespace AzothBalancer

open LeastBy OrderDual

variable {M : Meter}

/-- The limiter under a URL grants `n` cells: the batch fits `u32`, and it is empty, or there is no
limiter, or the limiter's decision is positive. -/
def World.Grants (w : World M) (n : ℕ) (now : Instant) (url : String) : Prop :=
  n ≤ u32Max ∧ (n = 0 ∨ ∀ l ∈ w.limiter? url, (l.checkN now n).1 = true)

instance (w : World M) (n : ℕ) (now : Instant) (url : String) : Decidable (w.Grants n now url) :=
  inferInstanceAs (Decidable (_ ∧ (_ ∨ ∀ l ∈ w.limiter? url, _)))

/-- The endpoints a selection may answer. -/
structure Selectable (w : World M) (n : ℕ) (now : Instant) (ep : RpcEndpoint) : Prop where
  healthy : ep.healthy = true
  cooled : ep.isInCooldown now = false
  weight : 0 < ep.weight
  granted : w.Grants n now ep.url

instance (w : World M) (n : ℕ) (now : Instant) (ep : RpcEndpoint) :
    Decidable (Selectable w n now ep) :=
  decidable_of_iff
    (ep.healthy = true ∧ ep.isInCooldown now = false ∧ 0 < ep.weight ∧ w.Grants n now ep.url)
    ⟨fun ⟨hh, hc, hw, hg⟩ => ⟨hh, hc, hw, hg⟩, fun ⟨hh, hc, hw, hg⟩ => ⟨hh, hc, hw, hg⟩⟩

/-- The one key of a selection: the tier ascending, the weight descending, in the second tier the
total cost ascending, the last selection descending. -/
def selectionKey (w : World M) (ep : RpcEndpoint) : ℕ ×ₗ ℕᵒᵈ ×ₗ ℕ ×ₗ ℕᵒᵈ :=
  toLex ((tierOf ep.weight).getD 4, candidateKey w.metricsOf (tierOf ep.weight = some 2) ep)

/-- What a reservation looks at.
Source: `strategy.rs` `reserve_tokens` -/
theorem lets_iff (w : World M) (n : ℕ) (now : Instant) (url : String) :
    w.lets n now url = true ↔ w.Grants n now url := by
  unfold World.lets reserveTokens World.Grants
  by_cases hbig : u32Max < n
  · simp [hbig]
  · rw [if_neg hbig]
    simp only [Nat.not_lt.mp hbig, true_and]
    cases hr : w.lb.rateLimiters url with
    | none => simp [World.limiter?, hr]
    | some r =>
        by_cases hn : n = 0
        · simp [hn]
        · cases hl : w.limiters.get? r with
          | none => simp [World.limiter?, hr, hl]
          | some l =>
              cases hok : (l.checkN now n).1 <;> simp [World.limiter?, hr, hl, hn, hok]

/-- The four conditions, as the scan finds them. -/
theorem selectable_iff (w : World M) (n : ℕ) (now : Instant) (ep : RpcEndpoint) :
    Selectable w n now ep ↔
      (ep.isAvailable now && 0 < ep.weight) = true ∧ w.lets n now ep.url = true := by
  rw [lets_iff]
  unfold RpcEndpoint.isAvailable
  simp only [Bool.and_eq_true, Bool.not_eq_true', decide_eq_true_eq]
  constructor
  · intro h
    exact ⟨⟨⟨h.healthy, h.cooled⟩, h.weight⟩, h.granted⟩
  · rintro ⟨⟨⟨hh, hc⟩, hw⟩, hg⟩
    exact ⟨hh, hc, hw, hg⟩

/-- The endpoints a selection may answer, in the order of the list. -/
def selectables (w : World M) (n : ℕ) (now : Instant) : List RpcEndpoint :=
  w.lb.endpoints.filter fun ep => Selectable w n now ep

/-- The selectable endpoints of a tier are its candidates that are let through. -/
theorem filter_tierCandidates (w : World M) (n : ℕ) (now : Instant) (k : ℕ) :
    (tierCandidates w now k).filter (fun ep => w.lets n now ep.url) =
      (selectables w n now).filter fun ep => tierOf ep.weight = some k := by
  unfold tierCandidates availableEndpoints selectables
  rw [List.filter_filter, List.filter_filter, List.filter_filter]
  apply List.filter_congr
  intro ep _
  rw [Bool.eq_iff_iff]
  simp only [Bool.and_eq_true, decide_eq_true_eq, selectable_iff]
  tauto

/-- Within a tier, the key compares as the tier does. -/
theorem leastBy_selectionKey {w : World M} {k : ℕ} {eps : List RpcEndpoint}
    (h : ∀ ep ∈ eps, tierOf ep.weight = some k) :
    leastBy (selectionKey w) eps = leastBy (candidateKey w.metricsOf (k = 2)) eps := by
  apply leastBy_congr
  intro a ha b hb
  unfold selectionKey
  simp [h a ha, h b hb, Prod.Lex.toLex_le_toLex]

/-- **What a sorted tier contributes**: its first least endpoint that is let through.
Source: `strategy.rs` `select_best_endpoint`, the inner loop -/
theorem head?_tier (w : World M) (n : ℕ) (now : Instant) (k : ℕ) :
    ((sortCandidates w.metricsOf (k = 2) (tierCandidates w now k)).filter
        fun ep => w.lets n now ep.url).head? =
      (leastBy (selectionKey w)
        ((selectables w n now).filter fun ep => tierOf ep.weight = some k)).head? := by
  unfold sortCandidates
  rw [insertionSort_congr (compareCandidates_ne_gt _ _), filter_insertionSort,
    filter_tierCandidates, head?_insertionSort, leastBy_selectionKey]
  intro ep hep
  simpa using (List.mem_filter.mp hep).2

/-- A lower key means an earlier tier, or the same. -/
theorem tier_le_of_selectionKey_le {w : World M} {a b : RpcEndpoint}
    (h : selectionKey w a ≤ selectionKey w b) :
    (tierOf a.weight).getD 4 ≤ (tierOf b.weight).getD 4 := by
  unfold selectionKey at h
  rcases Prod.Lex.toLex_le_toLex.mp h with hlt | ⟨heq, -⟩
  · exact hlt.le
  · exact heq.le

/-- The tiers together contribute the first least endpoint of all. -/
theorem head?_tiers (w : World M) (n : ℕ) (now : Instant) :
    (leastBy (selectionKey w) (selectables w n now)).head? =
      ((leastBy (selectionKey w)
          ((selectables w n now).filter fun ep => tierOf ep.weight = some 1)).head?.or
        ((leastBy (selectionKey w)
            ((selectables w n now).filter fun ep => tierOf ep.weight = some 2)).head?.or
          (leastBy (selectionKey w)
            ((selectables w n now).filter fun ep => tierOf ep.weight = some 3)).head?)) := by
  have htier : ∀ ep ∈ selectables w n now,
      ∃ k, tierOf ep.weight = some k ∧ (k = 1 ∨ k = 2 ∨ k = 3) := by
    intro ep hep
    have hsel := (List.mem_filter.mp hep).2
    exact exists_tierOf (of_decide_eq_true hsel).weight
  -- an endpoint of the first tier precedes all others, one of the second all of the third
  rw [head?_leastBy_split (p := fun ep => tierOf ep.weight = some 1)]
  · congr 1
    rw [head?_leastBy_split (p := fun ep => tierOf ep.weight = some 2), List.filter_filter,
      List.filter_filter]
    · congr 3
      · apply List.filter_congr
        intro ep _
        rw [Bool.eq_iff_iff]
        simp only [Bool.and_eq_true, Bool.not_eq_true', decide_eq_true_eq, decide_eq_false_iff_not]
        grind
      · apply List.filter_congr
        intro ep hep
        obtain ⟨k, hk, hcases⟩ := htier ep hep
        rw [Bool.eq_iff_iff]
        simp only [Bool.and_eq_true, Bool.not_eq_true', decide_eq_true_eq, decide_eq_false_iff_not]
        grind
    · intro a ha b hb hab
      obtain ⟨ha, ha1⟩ := List.mem_filter.mp ha
      obtain ⟨i, hi, hcases⟩ := htier a ha
      have hle := tier_le_of_selectionKey_le hab
      simp only [hi, Option.getD_some, Bool.not_eq_true', decide_eq_false_iff_not,
        decide_eq_true_eq, Option.some.injEq] at hle ha1 ⊢
      intro hb2
      rw [hb2, Option.getD_some] at hle
      omega
  · intro a ha b hb hab
    obtain ⟨i, hi, hcases⟩ := htier a ha
    have hle := tier_le_of_selectionKey_le hab
    simp only [hi, Option.getD_some, decide_eq_true_eq, Option.some.injEq] at hle ⊢
    intro hb1
    rw [hb1, Option.getD_some] at hle
    omega

/-- **A selection answers the first least endpoint** of those it may answer.
Source: `strategy.rs` `select_best_endpoint` -/
theorem selectBestEndpoint_eq_head? (w : World M) (n : ℕ) (now : Instant) :
    (selectBestEndpoint w n now).1 = (leastBy (selectionKey w) (selectables w n now)).head? := by
  have htiers : (sortedTiers w now).flatten =
      sortCandidates w.metricsOf (1 = 2) (tierCandidates w now 1) ++
        (sortCandidates w.metricsOf (2 = 2) (tierCandidates w now 2) ++
          (sortCandidates w.metricsOf (3 = 2) (tierCandidates w now 3) ++ [])) := rfl
  rw [selectBestEndpoint_fst, ← List.head?_filter, htiers, List.append_nil, List.filter_append,
    List.filter_append, List.head?_append, List.head?_append, head?_tier, head?_tier, head?_tier, head?_tiers]

/-- A selection answers something exactly if some endpoint is selectable.
Source: `strategy.rs` `select_best_endpoint` -/
theorem selectBestEndpoint_isSome_iff (w : World M) (n : ℕ) (now : Instant) :
    (selectBestEndpoint w n now).1.isSome ↔ ∃ ep ∈ w.lb.endpoints, Selectable w n now ep := by
  rw [selectBestEndpoint_eq_head?, Option.isSome_iff_ne_none, ne_eq, List.head?_eq_none_iff,
    leastBy_eq_nil]
  unfold selectables
  rw [List.filter_eq_nil_iff]
  simp only [decide_eq_true_eq, not_forall, not_not, exists_prop]

/-- **Selection is the lexicographic optimum.** For every world, batch size and instant, the selection
answers `ep` exactly if `ep` is selectable and first in the order of the key, earlier places in the
list winning ties; it answers nothing exactly if no endpoint is selectable; and its answer is that of
a single pass over the selectable endpoints under the one key.
Source: `strategy.rs` `select_best_endpoint`, `reserve_tokens` -/
theorem selection_optimum (w : World M) (n : ℕ) (now : Instant) :
    (∀ ep, (selectBestEndpoint w n now).1 = some ep ↔
      ∃ pre post, w.lb.endpoints = pre ++ ep :: post ∧ Selectable w n now ep ∧
        (∀ a ∈ pre, Selectable w n now a → selectionKey w ep < selectionKey w a) ∧
        ∀ b ∈ post, Selectable w n now b → selectionKey w ep ≤ selectionKey w b) ∧
    ((selectBestEndpoint w n now).1 = none ↔
      ∀ ep ∈ w.lb.endpoints, ¬ Selectable w n now ep) ∧
    (selectBestEndpoint w n now).1 =
      (w.lb.endpoints.filter fun ep => Selectable w n now ep).argmin (selectionKey w) := by
  refine ⟨fun ep => ?_, ?_, ?_⟩
  · rw [selectBestEndpoint_eq_head?]
    unfold selectables
    rw [head?_leastBy_filter_eq_some_iff]
    simp only [decide_eq_true_eq]
  · rw [← Option.not_isSome_iff_eq_none, selectBestEndpoint_isSome_iff]
    push Not
    exact Iff.rfl
  · rw [selectBestEndpoint_eq_head?]
    exact head?_leastBy_eq_argmin

end AzothBalancer
