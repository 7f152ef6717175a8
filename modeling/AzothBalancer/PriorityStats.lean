import AzothBalancer.Instances
import AzothBalancer.Lib.LeastBy
import AzothBalancer.SelectionSpec

/-!
# Reported priorities

`/status` ranks the endpoints by a comparison of its own (`getEndpointPriorityStats`). The strategy
compares by weight, in the second tier by cost, and then prefers the *most* recently selected; the
status compares by weight, always by cost, and then prefers the *least* recently selected.

Both comparisons are lexicographic keys (`candidateKey`, `EndpointStat.priorityKey`), so what each
puts first is read off from `LeastBy`: start from the heaviest available endpoints and filter key by
key (`selectBestEndpoint_of_granted`, `head?_usableEntries`). `prioritiesAgree_iff` is the condition
under which the two agree; `lru_reported_mru_selected` is two endpoints on which they do not.
-/

namespace AzothBalancer

open LeastBy OrderDual

variable {M : Meter}

/-! ## The report -/

/-- The entry of an endpoint in the report, before it is ranked.
Source: `balancer.rs` `get_endpoint_priority_stats`, the first `json!` -/
structure EndpointStat where
  url : String
  weight : ℕ
  healthy : Bool
  available : Bool
  inCooldown : Bool
  cooldownRemainingSecs : ℕ
  totalCostMs : ℕ
  lastSelectedSecsAgo : ℕ
  deriving DecidableEq, Repr

/-- A ranked entry. -/
structure PriorityStat extends EndpointStat where
  priorityRank : ℕ
  deriving DecidableEq, Repr

/-- The `priority_info` of a status. -/
structure PriorityInfo where
  strategy : String
  endpoints : List PriorityStat
  deriving DecidableEq, Repr

/-- The entry of an endpoint.
Source: `balancer.rs` `get_endpoint_priority_stats`, `endpoints.iter().map(..)` -/
def endpointStat (w : World M) (clock : Clock) (ep : RpcEndpoint) : EndpointStat where
  url := ep.url
  weight := ep.weight
  healthy := ep.healthy
  available := ep.isAvailable clock.now
  inCooldown := ep.isInCooldown clock.now
  cooldownRemainingSecs := ep.cooldownRemainingSecs clock.now
  totalCostMs := (w.metricsOf ep).getTotalCost
  -- `saturating_sub`
  lastSelectedSecsAgo := clock.unixSecs - (w.metricsOf ep).lastSelected

/-- The comparison of two entries: weight descending, total cost ascending, seconds since the last
selection descending.
Source: `balancer.rs` `get_endpoint_priority_stats`, the `sort_by` closure -/
def compareStats (a b : EndpointStat) : Ordering :=
  (compare b.weight a.weight).then <|
    (compare a.totalCostMs b.totalCostMs).then <|
      compare b.lastSelectedSecsAgo a.lastSelectedSecsAgo

/-- Ranks from `1` on.
Source: `balancer.rs` `get_endpoint_priority_stats`, `ranked_stats` -/
def rankStats (stats : List EndpointStat) : List PriorityStat :=
  stats.mapIdx fun i stat => ⟨stat, i + 1⟩

/-- The endpoints in order of priority.
Source: `balancer.rs` `get_endpoint_priority_stats` -/
def getEndpointPriorityStats (w : World M) (clock : Clock) : PriorityInfo where
  strategy := "priority_based_with_lru_tie_breaking"
  endpoints := rankStats <|
    (w.lb.endpoints.map (endpointStat w clock)).insertionSort fun a b => compareStats a b ≠ .gt

/-- The report says that the endpoint can be selected. -/
def EndpointStat.usable (stat : EndpointStat) : Bool := stat.available && 0 < stat.weight

/-- The entries of endpoints that can be selected, in order of rank. -/
def usableEntries (w : World M) (clock : Clock) : List PriorityStat :=
  (getEndpointPriorityStats w clock).endpoints.filter fun entry => entry.usable

/-- What is selected is what the report ranks first among the usable entries. -/
def PrioritiesAgree (w : World M) (n : ℕ) (clock : Clock) : Prop :=
  ∀ ep, (selectBestEndpoint w n clock.now).1 = some ep →
    ∃ entry ∈ usableEntries w clock, entry.toEndpointStat = endpointStat w clock ep ∧
      ∀ other ∈ usableEntries w clock, entry.priorityRank ≤ other.priorityRank

/-! ## The comparisons as keys -/

/-- The key of the status. -/
def EndpointStat.priorityKey (stat : EndpointStat) : ℕᵒᵈ ×ₗ ℕ ×ₗ ℕᵒᵈ :=
  toLex (toDual stat.weight, toLex (stat.totalCostMs, toDual stat.lastSelectedSecsAgo))

/-- The cost as a tier counts it. -/
def tierCost (metricsOf : RpcEndpoint → EndpointMetrics) (useCost : Bool) (ep : RpcEndpoint) : ℕ :=
  if useCost then (metricsOf ep).getTotalCost else 0

/-- The key of the strategy. -/
def candidateKey (metricsOf : RpcEndpoint → EndpointMetrics) (useCost : Bool) (ep : RpcEndpoint) :
    ℕᵒᵈ ×ₗ ℕ ×ₗ ℕᵒᵈ :=
  toLex (toDual ep.weight,
    toLex (tierCost metricsOf useCost ep, toDual (metricsOf ep).lastSelected))

/-- A lexicographic comparison of three numbers, the first and the last descending, is a key. -/
theorem compare_ne_gt_iff (x y z x' y' z' : ℕ) :
    (compare x' x).then ((compare y y').then (compare z' z)) ≠ .gt ↔
      (toLex (toDual x, toLex (y, toDual z)) : ℕᵒᵈ ×ₗ ℕ ×ₗ ℕᵒᵈ) ≤
        toLex (toDual x', toLex (y', toDual z')) := by
  simp only [Prod.Lex.toLex_le_toLex, toDual_lt_toDual, toDual_le_toDual, toDual_inj]
  rcases lt_trichotomy x' x with hx | rfl | hx
  · simp [Nat.compare_eq_lt.mpr hx, hx]
  · rcases lt_trichotomy y y' with hy | rfl | hy
    · simp [Nat.compare_eq_lt.mpr hy, hy]
    · simp [Nat.compare_ne_gt]
    · simp [Nat.compare_eq_gt.mpr hy, hy.not_gt, hy.ne']
  · simp [Nat.compare_eq_gt.mpr hx, hx.not_gt, hx.ne]

/-- The comparison of the status, by its key. -/
theorem compareStats_ne_gt (a b : EndpointStat) :
    compareStats a b ≠ .gt ↔ a.priorityKey ≤ b.priorityKey := compare_ne_gt_iff ..

/-- The comparison of the strategy, by its key. -/
theorem compareCandidates_ne_gt (metricsOf : RpcEndpoint → EndpointMetrics) (useCost : Bool)
    (a b : RpcEndpoint) : compareCandidates metricsOf useCost a b ≠ .gt ↔
      candidateKey metricsOf useCost a ≤ candidateKey metricsOf useCost b := by
  unfold candidateKey
  rw [← compare_ne_gt_iff]
  cases useCost <;> rfl

/-! ## What the strategy selects -/

/-- The heaviest of the available endpoints. -/
def heaviest (w : World M) (now : Instant) : List RpcEndpoint :=
  leastBy (fun ep => toDual ep.weight) (availableEndpoints w.lb now)

/-- The cheapest of the heaviest. -/
def cheapest (w : World M) (now : Instant) : List RpcEndpoint :=
  leastBy (fun ep => (w.metricsOf ep).getTotalCost) (heaviest w now)

/-- The most recently selected among some endpoints. -/
def latest (w : World M) (eps : List RpcEndpoint) : List RpcEndpoint :=
  leastBy (fun ep => toDual (w.metricsOf ep).lastSelected) eps

/-- The least recently selected among some endpoints. -/
def earliest (w : World M) (eps : List RpcEndpoint) : List RpcEndpoint :=
  leastBy (fun ep => (w.metricsOf ep).lastSelected) eps

/-- The limiter of every endpoint grants `n` cells. -/
def EveryLimiterGrants (w : World M) (n : ℕ) (now : Instant) : Prop :=
  ∀ ep ∈ w.lb.endpoints, (reserveTokens w ep.url n now).1 = .ok ()

/-- A heavier endpoint is not in a later tier. -/
theorem le_of_tierOf {a b i j : ℕ} (h : b ≤ a) (ha : tierOf a = some i) (hb : tierOf b = some j) :
    i ≤ j := by
  unfold tierOf tier1MinWeight tier2MinWeight tier3MinWeight at ha hb
  grind

/-- A positive weight has a tier. -/
theorem exists_tierOf {weight : ℕ} (h : 0 < weight) :
    ∃ k, tierOf weight = some k ∧ (k = 1 ∨ k = 2 ∨ k = 3) := by
  unfold tierOf tier1MinWeight tier2MinWeight tier3MinWeight
  grind

/-- The candidates of a tier. -/
def tierCandidates (w : World M) (now : Instant) (k : ℕ) : List RpcEndpoint :=
  (availableEndpoints w.lb now).filter fun ep => tierOf ep.weight = some k

/-- The endpoints a selection decides between by the last selection. -/
def contenders (w : World M) (now : Instant) : List RpcEndpoint :=
  if ∃ ep ∈ heaviest w now, tierOf ep.weight = some 2 then cheapest w now else heaviest w now

/-- The first candidate of the first tier that has any.
Source: `strategy.rs` `select_best_endpoint` -/
theorem head?_sortCandidates {w : World M} {now : Instant} {k : ℕ}
    (hfirst : ∀ ep ∈ availableEndpoints w.lb now, ∀ j, tierOf ep.weight = some j → k ≤ j)
    (hne : tierCandidates w now k ≠ []) :
    (sortCandidates w.metricsOf (k = 2) (tierCandidates w now k)).head? =
      (latest w (contenders w now)).head? := by
  have hheaviest : leastBy (fun ep => toDual ep.weight) (tierCandidates w now k) = heaviest w now := by
    apply leastBy_filter _ hne
    intro a ha b hb hab hk
    simp only [toDual_le_toDual, decide_eq_true_eq] at hab hk ⊢
    have hpos : 0 < a.weight := by
      have := (List.mem_filter.mp ha).2
      simp_all
    obtain ⟨i, hi, -⟩ := exists_tierOf hpos
    rw [hi, le_antisymm (le_of_tierOf hab hi hk) (hfirst a ha i hi)]
  have htier : ∀ ep ∈ heaviest w now, tierOf ep.weight = some k := by
    intro ep hep
    rw [← hheaviest] at hep
    simpa using (List.mem_filter.mp (mem_of_mem_leastBy hep)).2
  have hcontenders : leastBy (tierCost w.metricsOf (k = 2)) (heaviest w now) = contenders w now := by
    unfold contenders
    split
    · rename_i h2
      obtain ⟨ep, hep, h2⟩ := h2
      have hk : k = 2 := Option.some.inj ((htier ep hep).symm.trans h2)
      apply leastBy_congr
      simp [tierCost, hk]
    · rename_i h2
      have hk : k ≠ 2 := by
        rintro rfl
        obtain ⟨ep, hep⟩ := List.exists_mem_of_ne_nil (heaviest w now) (by
          rw [← hheaviest]
          exact mt leastBy_eq_nil.mp hne)
        exact h2 ⟨ep, hep, htier ep hep⟩
      apply leastBy_eq_self
      simp [tierCost, hk]
  unfold sortCandidates
  rw [insertionSort_congr (compareCandidates_ne_gt _ _), head?_insertionSort]
  unfold candidateKey
  rw [leastBy_toLex, leastBy_toLex, hheaviest, hcontenders]
  rfl

/-- What stands in front of the sorted tiers.
Source: `strategy.rs` `select_best_endpoint` -/
theorem head?_sortedTiers (w : World M) (now : Instant) :
    (sortedTiers w now).flatten.head? = (latest w (contenders w now)).head? := by
  have htiers : (sortedTiers w now).flatten =
      sortCandidates w.metricsOf (1 = 2) (tierCandidates w now 1) ++
        (sortCandidates w.metricsOf (2 = 2) (tierCandidates w now 2) ++
          (sortCandidates w.metricsOf (3 = 2) (tierCandidates w now 3) ++ [])) := rfl
  have hempty : ∀ k, tierCandidates w now k = [] →
      ∀ ep ∈ availableEndpoints w.lb now, tierOf ep.weight ≠ some k := by
    intro k hk ep hep hw
    have hmem : ep ∈ tierCandidates w now k := List.mem_filter.mpr ⟨hep, by simpa using hw⟩
    rw [hk] at hmem
    cases hmem
  have htier : ∀ ep ∈ availableEndpoints w.lb now,
      ∃ k, tierOf ep.weight = some k ∧ (k = 1 ∨ k = 2 ∨ k = 3) := by
    intro ep hep
    have hpos := (List.mem_filter.mp hep).2
    simp only [Bool.and_eq_true, decide_eq_true_eq] at hpos
    exact exists_tierOf hpos.2
  have hnil : ∀ {useCost : Bool}, sortCandidates w.metricsOf useCost [] = [] := rfl
  have hsort : ∀ {useCost : Bool} {eps : List RpcEndpoint}, eps ≠ [] →
      ∀ rest, (sortCandidates w.metricsOf useCost eps ++ rest).head? =
        (sortCandidates w.metricsOf useCost eps).head? := by
    intro useCost eps hne rest
    apply List.head?_append_of_ne_nil
    obtain ⟨ep, hep⟩ := List.exists_mem_of_ne_nil eps hne
    exact List.ne_nil_of_mem (mem_sortCandidates.mpr hep)
  rw [htiers]
  by_cases h1 : tierCandidates w now 1 = []
  · rw [h1, hnil, List.nil_append]
    by_cases h2 : tierCandidates w now 2 = []
    · rw [h2, hnil, List.nil_append]
      by_cases h3 : tierCandidates w now 3 = []
      · -- nothing is available
        have hnone : availableEndpoints w.lb now = [] := by
          apply List.eq_nil_iff_forall_not_mem.mpr
          intro ep hep
          obtain ⟨k, hk, rfl | rfl | rfl⟩ := htier ep hep
          · exact hempty 1 h1 ep hep hk
          · exact hempty 2 h2 ep hep hk
          · exact hempty 3 h3 ep hep hk
        have hheaviest : heaviest w now = [] := by
          unfold heaviest
          rw [hnone]
          rfl
        simp [h3, hnil, contenders, hheaviest, latest, leastBy]
      · rw [hsort h3, head?_sortCandidates _ h3]
        intro ep hep j hj
        obtain ⟨k, hk, rfl | rfl | rfl⟩ := htier ep hep
        · exact absurd hk (hempty 1 h1 ep hep)
        · exact absurd hk (hempty 2 h2 ep hep)
        · exact (Option.some.inj (hk.symm.trans hj)).le
    · rw [hsort h2, head?_sortCandidates _ h2]
      intro ep hep j hj
      obtain ⟨k, hk, hcases⟩ := htier ep hep
      have hk1 : k ≠ 1 := fun e => hempty 1 h1 ep hep (e ▸ hk)
      have hkj : k = j := Option.some.inj (hk.symm.trans hj)
      omega
  · rw [hsort h1, head?_sortCandidates _ h1]
    intro ep hep j hj
    obtain ⟨k, hk, hcases⟩ := htier ep hep
    have hkj : k = j := Option.some.inj (hk.symm.trans hj)
    omega

/-- **What a selection answers** when every limiter grants the batch: the first of the most recently
selected among the heaviest available endpoints, in the second tier among the cheapest of them.
Source: `strategy.rs` `select_best_endpoint` -/
theorem selectBestEndpoint_of_granted {w : World M} {n : ℕ} {now : Instant}
    (h : EveryLimiterGrants w n now) :
    (selectBestEndpoint w n now).1 = (latest w (contenders w now)).head? := by
  rw [selectBestEndpoint_fst, ← head?_sortedTiers]
  cases htiers : (sortedTiers w now).flatten with
  | nil => rfl
  | cons ep rest =>
      apply List.find?_cons_of_pos
      have hep : ep ∈ (sortedTiers w now).flatten := htiers ▸ List.mem_cons_self
      have hmem := mem_availableEndpoints_of_sortedTiers (List.mem_flatten.mp hep)
      unfold World.lets
      rw [h ep (List.mem_of_mem_filter hmem)]

/-! ## What the status ranks first -/

/-- Ranks increase along the report. -/
theorem pairwise_priorityRank (stats : List EndpointStat) :
    (rankStats stats).Pairwise fun a b => a.priorityRank < b.priorityRank := by
  rw [List.pairwise_iff_getElem]
  intro i j hi hj hij
  simpa [rankStats] using hij

/-- Ranking keeps the entries. -/
theorem map_rankStats (stats : List EndpointStat) :
    (rankStats stats).map PriorityStat.toEndpointStat = stats := by
  apply List.ext_getElem
  · simp [rankStats]
  · intro i hi hi'
    simp [rankStats]

/-- The least rank is the head's. -/
theorem exists_least_rank_iff {w : World M} {clock : Clock} {stat : EndpointStat} :
    (∃ entry ∈ usableEntries w clock, entry.toEndpointStat = stat ∧
        ∀ other ∈ usableEntries w clock, entry.priorityRank ≤ other.priorityRank) ↔
      ((usableEntries w clock).map PriorityStat.toEndpointStat).head? = some stat := by
  have hleast : ∀ entry, (entry ∈ usableEntries w clock ∧
      ∀ other ∈ usableEntries w clock, entry.priorityRank ≤ other.priorityRank) ↔
      (usableEntries w clock).head? = some entry := by
    intro entry
    rw [← mem_leastBy, mem_leastBy_iff_head?]
    exact (pairwise_priorityRank _).filter _
  rw [List.head?_map, Option.map_eq_some_iff]
  constructor
  · rintro ⟨entry, hmem, hstat, hmin⟩
    exact ⟨entry, (hleast entry).mp ⟨hmem, hmin⟩, hstat⟩
  · rintro ⟨entry, hhead, hstat⟩
    obtain ⟨hmem, hmin⟩ := (hleast entry).mpr hhead
    exact ⟨entry, hmem, hstat, hmin⟩

/-- **What the status ranks first** among the endpoints that can be selected: the first of the least
recently selected among the cheapest of the heaviest.
Source: `balancer.rs` `get_endpoint_priority_stats` -/
theorem head?_usableEntries {w : World M} {clock : Clock}
    (hpast : ∀ ep ∈ w.lb.endpoints, (w.metricsOf ep).lastSelected ≤ clock.unixSecs) :
    ((usableEntries w clock).map PriorityStat.toEndpointStat).head? =
      ((earliest w (cheapest w clock.now)).head?).map (endpointStat w clock) := by
  have hentries : (usableEntries w clock).map PriorityStat.toEndpointStat =
      ((availableEndpoints w.lb clock.now).map (endpointStat w clock)).insertionSort
        fun a b => a.priorityKey ≤ b.priorityKey := by
    have hfilter : (usableEntries w clock).map PriorityStat.toEndpointStat =
        ((getEndpointPriorityStats w clock).endpoints.map PriorityStat.toEndpointStat).filter
          EndpointStat.usable := by
      rw [List.filter_map]
      rfl
    rw [hfilter]
    unfold getEndpointPriorityStats
    rw [map_rankStats, insertionSort_congr compareStats_ne_gt, filter_insertionSort,
      List.filter_map]
    rfl
  have hkey : (fun ep => (endpointStat w clock ep).priorityKey) = fun ep =>
      toLex (toDual ep.weight, toLex ((w.metricsOf ep).getTotalCost,
        toDual (clock.unixSecs - (w.metricsOf ep).lastSelected))) := rfl
  have hearliest : leastBy (fun ep => toDual (clock.unixSecs - (w.metricsOf ep).lastSelected))
      (cheapest w clock.now) = earliest w (cheapest w clock.now) := by
    have hmem : ∀ ep ∈ cheapest w clock.now, ep ∈ w.lb.endpoints := by
      intro ep hep
      exact List.mem_of_mem_filter (mem_of_mem_leastBy (mem_of_mem_leastBy hep))
    apply leastBy_congr
    intro a ha b hb
    have hpa := hpast a (hmem a ha)
    have hpb := hpast b (hmem b hb)
    rw [toDual_le_toDual]
    omega
  rw [hentries, head?_insertionSort, leastBy_map, List.head?_map, hkey, leastBy_toLex, leastBy_toLex]
  exact congrArg (fun eps => (List.head? eps).map (endpointStat w clock)) hearliest

/-! ## Where the two agree -/

/-- The tie-breaks choose the same endpoint. In the second tier: the cheapest of the heaviest were
all selected last in the same second. In the others: the cheapest of the heaviest were all selected
last in the second of the most recent selection, and the first listed with that second is one of
them. -/
structure TieBreaksAgree (w : World M) (now : Instant) : Prop where
  tier2 : ∀ a ∈ cheapest w now, ∀ b ∈ cheapest w now, tierOf a.weight = some 2 →
    (w.metricsOf a).lastSelected = (w.metricsOf b).lastSelected
  otherTiers : ∀ ep, (latest w (heaviest w now)).head? = some ep → tierOf ep.weight ≠ some 2 →
    ep ∈ cheapest w now ∧ ∀ c ∈ cheapest w now, c ∈ latest w (heaviest w now)

section agreement

variable {w : World M} {clock : Clock}

/-- The heaviest are in one tier. -/
theorem tierOf_heaviest {now : Instant} {a b : RpcEndpoint} (ha : a ∈ heaviest w now)
    (hb : b ∈ heaviest w now) : tierOf a.weight = tierOf b.weight := by
  have hw := eq_of_mem_leastBy (f := fun ep : RpcEndpoint => toDual ep.weight) ha hb
  rw [toDual_inj.mp hw]

/-- Endpoints with one entry have one cost, and were selected last in one second. -/
theorem eq_of_endpointStat {a b : RpcEndpoint}
    (hpast : ∀ ep ∈ w.lb.endpoints, (w.metricsOf ep).lastSelected ≤ clock.unixSecs)
    (ha : a ∈ heaviest w clock.now) (hb : b ∈ heaviest w clock.now)
    (h : endpointStat w clock a = endpointStat w clock b) :
    (w.metricsOf a).getTotalCost = (w.metricsOf b).getTotalCost ∧
      (w.metricsOf a).lastSelected = (w.metricsOf b).lastSelected := by
  have hpa := hpast a (List.mem_of_mem_filter (mem_of_mem_leastBy ha))
  have hpb := hpast b (List.mem_of_mem_filter (mem_of_mem_leastBy hb))
  have hago : clock.unixSecs - (w.metricsOf a).lastSelected =
      clock.unixSecs - (w.metricsOf b).lastSelected :=
    congrArg EndpointStat.lastSelectedSecsAgo h
  refine ⟨congrArg EndpointStat.totalCostMs h, ?_⟩
  omega

variable (hpast : ∀ ep ∈ w.lb.endpoints, (w.metricsOf ep).lastSelected ≤ clock.unixSecs)
include hpast

/-- Among the cheapest, the most and the least recently selected coincide only if all were selected
in one second. -/
theorem latest_earliest_cheapest_iff :
    (∀ ep, (latest w (cheapest w clock.now)).head? = some ep →
        ((earliest w (cheapest w clock.now)).head?).map (endpointStat w clock) =
          some (endpointStat w clock ep)) ↔
      ∀ a ∈ cheapest w clock.now, ∀ b ∈ cheapest w clock.now,
        (w.metricsOf a).lastSelected = (w.metricsOf b).lastSelected := by
  constructor
  · intro h a ha b hb
    have hne : latest w (cheapest w clock.now) ≠ [] := mt leastBy_eq_nil.mp (List.ne_nil_of_mem ha)
    obtain ⟨ep, hep⟩ := Option.isSome_iff_exists.mp (List.isSome_head?.mpr hne)
    obtain ⟨first, hfirst, hstat⟩ := Option.map_eq_some_iff.mp (h ep hep)
    have hlatest := mem_leastBy.mp (List.mem_of_head? hep)
    have hearliest := mem_leastBy.mp (List.mem_of_head? hfirst)
    obtain ⟨-, hsame⟩ := eq_of_endpointStat hpast (mem_of_mem_leastBy hearliest.1)
      (mem_of_mem_leastBy hlatest.1) hstat
    have hall : ∀ c ∈ cheapest w clock.now,
        (w.metricsOf c).lastSelected = (w.metricsOf ep).lastSelected := by
      intro c hc
      apply le_antisymm
      · exact toDual_le_toDual.mp (hlatest.2 c hc)
      · exact hsame ▸ hearliest.2 c hc
    rw [hall a ha, hall b hb]
  · intro h ep hep
    have hlatest : latest w (cheapest w clock.now) = cheapest w clock.now := by
      apply leastBy_eq_self
      intro a ha b hb
      rw [h a ha b hb]
    have hearliest : earliest w (cheapest w clock.now) = cheapest w clock.now := leastBy_eq_self h
    rw [hlatest] at hep
    rw [hearliest, hep, Option.map_some]

/-- The most recently selected of the heaviest is the least recently selected of the cheapest exactly
if it is a cheapest, and all cheapest were selected in its second. -/
theorem latest_earliest_heaviest_iff :
    (∀ ep, (latest w (heaviest w clock.now)).head? = some ep →
        ((earliest w (cheapest w clock.now)).head?).map (endpointStat w clock) =
          some (endpointStat w clock ep)) ↔
      ∀ ep, (latest w (heaviest w clock.now)).head? = some ep →
        ep ∈ cheapest w clock.now ∧
          ∀ c ∈ cheapest w clock.now, c ∈ latest w (heaviest w clock.now) := by
  apply forall₂_congr
  intro ep hep
  have hlatest := mem_leastBy.mp (List.mem_of_head? hep)
  constructor
  · intro h
    obtain ⟨first, hfirst, hstat⟩ := Option.map_eq_some_iff.mp h
    have hearliest := mem_leastBy.mp (List.mem_of_head? hfirst)
    obtain ⟨hcost, hsame⟩ := eq_of_endpointStat hpast (mem_of_mem_leastBy hearliest.1) hlatest.1 hstat
    refine ⟨mem_leastBy_of_eq hearliest.1 hlatest.1 hcost, fun c hc => ?_⟩
    have hch : c ∈ heaviest w clock.now := mem_of_mem_leastBy hc
    apply mem_leastBy_of_eq (List.mem_of_head? hep) hch
    congr 1
    exact le_antisymm (hsame ▸ hearliest.2 c hc) (toDual_le_toDual.mp (hlatest.2 c hch))
  · rintro ⟨hcheap, hall⟩
    have hearliest : earliest w (cheapest w clock.now) = cheapest w clock.now := by
      apply leastBy_eq_self
      intro a ha b hb
      have hsame := eq_of_mem_leastBy
        (f := fun ep : RpcEndpoint => toDual (w.metricsOf ep).lastSelected) (hall a ha) (hall b hb)
      exact toDual_inj.mp hsame
    have hhead : (cheapest w clock.now).head? = some ep := by
      apply head?_filter_of_imp hep
      · simpa using (mem_leastBy.mp hcheap).2
      · intro b hb hcb
        have hmem : b ∈ cheapest w clock.now := List.mem_filter.mpr ⟨hb, hcb⟩
        exact (List.mem_filter.mp (hall b hmem)).2
    rw [hearliest, hhead, Option.map_some]

end agreement

/-- **When the reported priority is the real one.** If every limiter grants the batch and no endpoint
was selected in the future, what a selection answers is ranked first among the endpoints that can be
selected exactly if the tie-breaks agree.
Source: `balancer.rs` `get_endpoint_priority_stats`; `strategy.rs` `select_best_endpoint` -/
theorem prioritiesAgree_iff {w : World M} {n : ℕ} {clock : Clock}
    (hgrants : EveryLimiterGrants w n clock.now)
    (hpast : ∀ ep ∈ w.lb.endpoints, (w.metricsOf ep).lastSelected ≤ clock.unixSecs) :
    PrioritiesAgree w n clock ↔ TieBreaksAgree w clock.now := by
  have hheads : PrioritiesAgree w n clock ↔
      ∀ ep, (latest w (contenders w clock.now)).head? = some ep →
        ((earliest w (cheapest w clock.now)).head?).map (endpointStat w clock) =
          some (endpointStat w clock ep) := by
    unfold PrioritiesAgree
    simp only [exists_least_rank_iff, head?_usableEntries hpast,
      selectBestEndpoint_of_granted hgrants]
  rw [hheads]
  unfold contenders
  split
  · rename_i h2
    obtain ⟨top, htop, h2⟩ := h2
    have htier : ∀ ep ∈ heaviest w clock.now, tierOf ep.weight = some 2 :=
      fun ep hep => (tierOf_heaviest hep htop).trans h2
    rw [latest_earliest_cheapest_iff hpast]
    constructor
    · intro h
      refine ⟨fun a ha b hb _ => h a ha b hb, fun ep hep hne => ?_⟩
      exact absurd (htier ep (mem_of_mem_leastBy (List.mem_of_head? hep))) hne
    · intro h a ha b hb
      exact h.tier2 a ha b hb (htier a (mem_of_mem_leastBy ha))
  · rename_i h2
    have htier : ∀ ep ∈ heaviest w clock.now, tierOf ep.weight ≠ some 2 :=
      fun ep hep h => h2 ⟨ep, hep, h⟩
    rw [latest_earliest_heaviest_iff hpast]
    constructor
    · intro h
      refine ⟨fun a ha b _ h2 => ?_, fun ep hep _ => h ep hep⟩
      exact absurd h2 (htier a (mem_of_mem_leastBy ha))
    · intro h ep hep
      exact h.otherTiers ep hep (htier ep (mem_of_mem_leastBy (List.mem_of_head? hep)))

/-! ## Where they do not -/

/-- Two endpoints of one weight, after a request at second `1000` that went to the first. -/
def sampleSelected : World leakyBucket :=
  (getNextEndpoint ((LoadBalancer.new leakyBucket asciiLowercase
    (some (.ofEndpoints [sampleEndpoint, otherEndpoint])) "config.toml" 0).get (by decide))
    1 ⟨0, 1000⟩).2

/-- Both limiters grant another cell. -/
theorem everyLimiterGrants_sampleSelected : EveryLimiterGrants sampleSelected 1 0 := by
  unfold EveryLimiterGrants
  decide +kernel

/-- The last selections are not in the future. -/
theorem lastSelected_sampleSelected_le :
    ∀ ep ∈ sampleSelected.lb.endpoints, (sampleSelected.metricsOf ep).lastSelected ≤ 1001 := by
  decide +kernel

/-- **The reported priority is not the real one.** The next request goes to the endpoint selected
before; the status ranks the other one first.
Source: `balancer.rs` `get_endpoint_priority_stats`; `strategy.rs` `select_best_endpoint` -/
theorem lru_reported_mru_selected : ¬ ∀ (M : Meter) (w : World M) (n : ℕ) (clock : Clock),
    EveryLimiterGrants w n clock.now →
    (∀ ep ∈ w.lb.endpoints, (w.metricsOf ep).lastSelected ≤ clock.unixSecs) →
    PrioritiesAgree w n clock := by
  intro h
  have hagree := h leakyBucket sampleSelected 1 ⟨0, 1001⟩ everyLimiterGrants_sampleSelected
    lastSelected_sampleSelected_le
  have hselected : ∃ ep, (selectBestEndpoint sampleSelected 1 0).1 = some ep ∧
      ep.url = "http://a" := by decide +kernel
  obtain ⟨ep, hep, hurl⟩ := hselected
  have hhead := exists_least_rank_iff.mp (hagree ep hep)
  have hother : (((usableEntries sampleSelected ⟨0, 1001⟩).map
      PriorityStat.toEndpointStat).head?).map EndpointStat.url = some "http://b" := by decide +kernel
  rw [hhead, Option.map_some, Option.some.injEq] at hother
  exact absurd (hurl.symm.trans hother) (by decide)

/-- `prioritiesAgree_iff` on the two endpoints. -/
theorem prioritiesAgree_iff_sample :
    PrioritiesAgree sampleSelected 1 ⟨0, 1001⟩ ↔ TieBreaksAgree sampleSelected 0 :=
  prioritiesAgree_iff everyLimiterGrants_sampleSelected lastSelected_sampleSelected_le

end AzothBalancer
