import AzothBalancer.State
import Mathlib.Data.List.Sort

/-!
# Endpoint selection

`strategy.rs`: the available endpoints are put into three tiers by weight, each tier is sorted by a
stable sort, and the tiers are scanned in order for the first endpoint whose limiter grants the
batch. The scan reads and writes limiter objects and counts in the registry, so it threads the world
through; endpoint records are not changed.

`slice::sort_by` is stable, as is `List.insertionSort`; both give the one stable order of a total
preorder.
-/

namespace AzothBalancer

variable {M : Meter}

def tier1MinWeight : ℕ := 100
def tier2MinWeight : ℕ := 50
def tier3MinWeight : ℕ := 1

/-- The tier an endpoint is put into, by its weight; weight `0` has none.
Source: `strategy.rs` `select_best_endpoint`, the `match ep.weight` -/
def tierOf (weight : ℕ) : Option ℕ :=
  if tier1MinWeight ≤ weight then some 1
  else if tier2MinWeight ≤ weight then some 2
  else if tier3MinWeight ≤ weight then some 3
  else none

/-- The comparison of two candidates of a tier: weight descending, then (where `useCost`) total cost
ascending, then last selection descending.
Source: `strategy.rs` `select_best_endpoint`, the `sort_by` closure -/
def compareCandidates (metricsOf : RpcEndpoint → EndpointMetrics) (useCost : Bool)
    (a b : RpcEndpoint) : Ordering :=
  (compare b.weight a.weight).then <|
    (if useCost then compare (metricsOf a).getTotalCost (metricsOf b).getTotalCost else .eq).then <|
      compare (metricsOf b).lastSelected (metricsOf a).lastSelected

/-- A tier's candidates in the order they are tried. -/
def sortCandidates (metricsOf : RpcEndpoint → EndpointMetrics) (useCost : Bool)
    (candidates : List RpcEndpoint) : List RpcEndpoint :=
  candidates.insertionSort fun a b => compareCandidates metricsOf useCost a b ≠ .gt

/-- Checks and reserves `batchSize` cells at the limiter under a URL. A URL without limiter is
never refused.
Source: `strategy.rs` `reserve_tokens` -/
def reserveTokens (w : World M) (endpointUrl : String) (batchSize : ℕ) (now : Instant) :
    Except LoadBalancerError Unit × World M :=
  if u32Max < batchSize then (.error (.upstreamError "Batch size too large"), w)
  else
    match w.lb.rateLimiters endpointUrl with
    | none => (.ok (), w)
    | some r =>
        if batchSize = 0 then (.ok (), w)
        else
          match w.limiters.get? r with
          -- a reference in the map always points to an object
          | none => (.ok (), w)
          | some l =>
              let (granted, l') := l.checkN now batchSize
              let w := { w with limiters := w.limiters.modify r fun _ => l' }
              if granted then (.ok (), w) else (.error (.rateLimited endpointUrl), w)

/-- Counts a selection under the endpoint and its rank in the tier.
Source: `strategy.rs` `log_selection` -/
def logSelection (endpoint : RpcEndpoint) (rank : ℕ) (m : Registry) : Registry :=
  m.inc .priorityEndpointSelected [endpoint.url, toString (rank + 1)]

/-- Counts a deferral.
Source: `strategy.rs` `log_rate_limited` -/
def logRateLimited (endpoint : RpcEndpoint) (m : Registry) : Registry :=
  m.inc .endpointRateLimitDeferred [endpoint.url]

/-- Tries the candidates of a tier in order, from rank `rank` on.
Source: `strategy.rs` `select_best_endpoint`, the inner loop -/
def scanCandidates (batchSize : ℕ) (now : Instant) (rank : ℕ) :
    List RpcEndpoint → World M → Option RpcEndpoint × World M
  | [], w => (none, w)
  | endpoint :: rest, w =>
      match reserveTokens w endpoint.url batchSize now with
      | (.ok (), w) => (some endpoint, { w with prom := logSelection endpoint rank w.prom })
      | (.error _, w) =>
          scanCandidates batchSize now (rank + 1) rest
            { w with prom := logRateLimited endpoint w.prom }

/-- Tries the tiers in order.
Source: `strategy.rs` `select_best_endpoint`, the outer loop -/
def scanTiers (batchSize : ℕ) (now : Instant) :
    List (List RpcEndpoint) → World M → Option RpcEndpoint × World M
  | [], w => (none, w)
  | tier :: tiers, w =>
      match scanCandidates batchSize now 0 tier w with
      | (some endpoint, w) => (some endpoint, w)
      | (none, w) => scanTiers batchSize now tiers w

/-- The endpoints a selection considers.
Source: `strategy.rs` `select_best_endpoint`, `available_endpoints` -/
def availableEndpoints (lb : LoadBalancer) (now : Instant) : List RpcEndpoint :=
  lb.endpoints.filter fun ep => ep.isAvailable now && 0 < ep.weight

/-- The sorted tiers of a selection; cost counts in the second tier only.
Source: `strategy.rs` `select_best_endpoint`, `tiers` and `sort_strategies` -/
def sortedTiers (w : World M) (now : Instant) : List (List RpcEndpoint) :=
  [(1, false), (2, true), (3, false)].map fun (tier, useCost) =>
    sortCandidates w.metricsOf useCost
      ((availableEndpoints w.lb now).filter fun ep => tierOf ep.weight = some tier)

/-- Selects the best available endpoint whose limiter grants the batch.
Source: `strategy.rs` `select_best_endpoint` -/
def selectBestEndpoint (w : World M) (batchSize : ℕ) (now : Instant) :
    Option RpcEndpoint × World M :=
  if (availableEndpoints w.lb now).isEmpty then (none, w)
  else
    match scanTiers batchSize now (sortedTiers w now) w with
    | (some endpoint, w) => (some endpoint, w)
    | (none, w) => (none, { w with prom := w.prom.inc .allEndpointsRateLimited [] })

end AzothBalancer
