import Mathlib.Data.Int.Basic

/-!
# The Prometheus registry

The metric statics of `utils/metrics.rs` as one registry: for each family and each list of label
values, the series' value, or nothing when the series does not exist. `with_label_values` creates a
series on first use, so `incBy 0` creates one without counting anything; `remove_label_values`
deletes one. A histogram is kept as the number of its observations.
-/

namespace AzothBalancer

/-- The metric families the balancer registers.
Source: `utils/metrics.rs` -/
inductive Family where
  | rpcRequestsTotal
  | rpcRequestsMethod
  | rpcRequestsSucceeded
  | rpcRequestsFailed
  | requestTimeouts
  | batchSizeExceeded
  | upstreamRateLimitedTotal
  | healthcheckFailed
  | cooldownsTriggered
  | cooldownSecondsGauge
  | healthyEndpoints
  | totalEndpoints
  | concurrencyActivePermits
  | endpointRateLimitDeferred
  | allEndpointsRateLimited
  | priorityEndpointSelected
  | requestLatencyPerEndpoint
  | healthCheckLatency
  deriving DecidableEq, Repr

/-- The registry: the value of every existing series. -/
structure Registry where
  /-- The series of a family with these label values, if it exists. -/
  series : Family → List String → Option ℤ

namespace Registry

/-- The registry of a fresh process. -/
def empty : Registry := ⟨fun _ _ => none⟩

/-- One series replaced. -/
def put (m : Registry) (f : Family) (labels : List String) (v : Option ℤ) : Registry :=
  ⟨fun f' labels' => if f' = f ∧ labels' = labels then v else m.series f' labels'⟩

/-- `set` on a gauge; creates the series. -/
def set (m : Registry) (f : Family) (labels : List String) (v : ℤ) : Registry :=
  m.put f labels (some v)

/-- `inc_by`; creates the series at `0`. -/
def incBy (m : Registry) (f : Family) (labels : List String) (k : ℤ) : Registry :=
  m.put f labels (some ((m.series f labels).getD 0 + k))

/-- `inc`. -/
def inc (m : Registry) (f : Family) (labels : List String) : Registry := m.incBy f labels 1

/-- `observe` on a histogram, counted. -/
def observe (m : Registry) (f : Family) (labels : List String) : Registry := m.incBy f labels 1

/-- `remove_label_values`; its result is discarded everywhere. -/
def removeLabelValues (m : Registry) (f : Family) (labels : List String) : Registry :=
  m.put f labels none

/-- What a series shows; a series that does not exist shows nothing, which counts as `0`. -/
def value (m : Registry) (f : Family) (labels : List String) : ℤ := (m.series f labels).getD 0

section value

variable (m : Registry) (f f' : Family) (labels labels' : List String) (k : ℤ)

/-- Counting moves the counted series and no other. -/
@[simp] theorem value_incBy : (m.incBy f labels k).value f' labels' =
    m.value f' labels' + if f' = f ∧ labels' = labels then k else 0 := by
  unfold value incBy put
  dsimp only
  split
  · rename_i h
    rw [h.1, h.2]
    rfl
  · simp

/-- Counting one. -/
@[simp] theorem value_inc : (m.inc f labels).value f' labels' =
    m.value f' labels' + if f' = f ∧ labels' = labels then 1 else 0 := value_incBy ..

/-- An observation is counted. -/
@[simp] theorem value_observe : (m.observe f labels).value f' labels' =
    m.value f' labels' + if f' = f ∧ labels' = labels then 1 else 0 := value_incBy ..

/-- A gauge shows what it was set to. -/
@[simp] theorem value_set : (m.set f labels k).value f' labels' =
    if f' = f ∧ labels' = labels then k else m.value f' labels' := by
  unfold value set put
  dsimp only
  split <;> rfl

/-- A fresh process shows nothing. -/
@[simp] theorem value_empty : empty.value f labels = 0 := rfl

end value

end Registry

end AzothBalancer
