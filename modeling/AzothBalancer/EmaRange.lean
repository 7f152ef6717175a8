import AzothBalancer.Endpoint
import AzothBalancer.Lib.Runs
import AzothBalancer.Lib.Smoothing

/-!
# The moving averages stay in range

`update_ema` is exponential smoothing of `u64` values: with a factor in the unit interval it computes
`Smoothing.smooth` (`coe_updateEma`), and what the library says of one sample for ever holds of it.

* `updateEma_le_max` — an average is not above both its arguments.
* `run_emaLatencyMs_le`, `run_emaErrorPenaltyMs_le` — over every list of outcomes, the two averages are
  bounded by what they started with and what was reported; each step has its own factor.
* `ema_in_range` — all of it.
-/

namespace AzothBalancer

namespace EndpointMetrics

/-! ## One update -/

/-- The factor weighs: it is not below zero or above one. -/
structure Weighs (a : ℚ) : Prop where
  nonneg : 0 ≤ a
  le_one : a ≤ 1

variable {a : ℚ} {c v : ℕ}

/-- An update is a smoothed value, stopped at the bounds of `u64`.
Source: `endpoint.rs` `update_ema` -/
theorem updateEma_eq (a : ℚ) (c v : ℕ) :
    updateEma c v (.finite a) = min (Smoothing.smooth a v c).toNat u64Max := by
  unfold updateEma F64.roundAsU64 Smoothing.smooth
  rw [round_eq]
  rfl

/-- An average is not above both its arguments.
Source: `endpoint.rs` `update_ema` -/
theorem updateEma_le_max (ha : Weighs a) : updateEma c v (.finite a) ≤ max c v := by
  have hle := Smoothing.smooth_le_max (c := c) (v := v) ha.nonneg ha.le_one
  rw [updateEma_eq]
  omega

/-- **On `u64` values, an update is a smoothed value.**
Source: `endpoint.rs` `update_ema` -/
theorem coe_updateEma (ha : Weighs a) (hc : c ≤ u64Max) (hv : v ≤ u64Max) :
    (updateEma c v (.finite a) : ℤ) = Smoothing.smooth a v c := by
  have hle := Smoothing.smooth_le_max (c := c) (v := v) ha.nonneg ha.le_one
  have hge := Smoothing.min_le_smooth (c := c) (v := v) ha.nonneg ha.le_one
  rw [updateEma_eq]
  omega

/-- Updates with one value for ever are smoothed values, and stay in `u64`. -/
theorem coe_iterate_updateEma (ha : Weighs a) (hc : c ≤ u64Max) (hv : v ≤ u64Max) (n : ℕ) :
    (((fun x => updateEma x v (.finite a))^[n] c : ℕ) : ℤ) = (Smoothing.smooth a v)^[n] c ∧
      (fun x => updateEma x v (.finite a))^[n] c ≤ u64Max := by
  induction n with
  | zero => exact ⟨rfl, hc⟩
  | succ n ih =>
      obtain ⟨heq, hle⟩ := ih
      rw [Function.iterate_succ_apply', Function.iterate_succ_apply', ← heq]
      exact ⟨coe_updateEma ha hle hv, (updateEma_le_max ha).trans (max_le hle hv)⟩

end EndpointMetrics

/-! ## Runs of updates -/

/-- The latency a success reports. -/
def RequestOutcome.successLatency? : RequestOutcome → Option ℕ
  | .success latencyMs => some latencyMs
  | .failure _ _ => none

/-- The latency a failure reports. -/
def RequestOutcome.failureLatency? : RequestOutcome → Option ℕ
  | .success _ => none
  | .failure _ latencyMs => some latencyMs

/-- The largest of a first value and some others. -/
def largest (first : ℕ) (values : List ℕ) : ℕ := values.foldr max first

/-- The first value counts. -/
theorem first_le_largest (first : ℕ) (values : List ℕ) : first ≤ largest first values := by
  induction values with
  | nil => exact le_rfl
  | cons v values ih => exact ih.trans (le_max_right v _)

/-- The others count. -/
theorem le_largest {first v : ℕ} {values : List ℕ} (h : v ∈ values) : v ≤ largest first values := by
  induction values with
  | nil => cases h
  | cons v' values ih =>
      rcases List.mem_cons.mp h with rfl | h'
      · exact le_max_left v _
      · exact (ih h').trans (le_max_right v' _)

namespace EndpointMetrics

/-- The metrics after a list of outcomes, each entered with the factor of its time.
Source: `endpoint.rs` `EndpointMetrics::update` -/
def run (m : EndpointMetrics) (outcomes : List (RequestOutcome × ℚ)) : EndpointMetrics :=
  Runs.run (fun m x => m.update x.1 (.finite x.2)) m outcomes

/-- No base penalty is above that of a timeout.
Source: `endpoint.rs` `calculate_penalty` -/
theorem calculatePenalty_le (kind : ErrorKind) (latencyMs : ℕ) :
    calculatePenalty kind latencyMs ≤ max 30000 latencyMs := by
  unfold calculatePenalty
  cases kind <;> exact max_le_max (by decide) le_rfl

/-- **A bound on the latency average is kept** by an outcome whose success reports no more. -/
theorem emaLatencyMs_update_le {m : EndpointMetrics} {outcome : RequestOutcome} {bound : ℕ}
    (ha : Weighs a) (hm : m.emaLatencyMs ≤ bound) (ho : ∀ l ∈ outcome.successLatency?, l ≤ bound) :
    (m.update outcome (.finite a)).emaLatencyMs ≤ bound := by
  cases outcome with
  | success latencyMs => exact (updateEma_le_max ha).trans (max_le hm (ho latencyMs rfl))
  | failure kind latencyMs => exact hm

/-- **A bound on the penalty average is kept** by an outcome whose failure reports no more, if a timeout's
base penalty is within it. A success lets the average fall. -/
theorem emaErrorPenaltyMs_update_le {m : EndpointMetrics} {outcome : RequestOutcome} {bound : ℕ}
    (alpha : F64) (hm : m.emaErrorPenaltyMs ≤ bound) (hbase : 30000 ≤ bound)
    (ho : ∀ l ∈ outcome.failureLatency?, l ≤ bound) :
    (m.update outcome alpha).emaErrorPenaltyMs ≤ bound := by
  cases outcome with
  | success latencyMs =>
      have hhalf : Weighs (1 / 2) := ⟨by norm_num, by norm_num⟩
      exact (updateEma_le_max hhalf).trans (max_le hm (Nat.zero_le bound))
  | failure kind latencyMs =>
      have hattack : Weighs (4 / 5) := ⟨by norm_num, by norm_num⟩
      have hpenalty : calculatePenalty kind latencyMs ≤ bound :=
        (calculatePenalty_le kind latencyMs).trans (max_le hbase (ho latencyMs rfl))
      exact (updateEma_le_max hattack).trans (max_le hm hpenalty)

variable {m : EndpointMetrics} {outcomes : List (RequestOutcome × ℚ)}

/-- **The latency average never exceeds** what it started with and the latencies of the successes. -/
theorem run_emaLatencyMs_le (hweigh : ∀ x ∈ outcomes, Weighs x.2) :
    (m.run outcomes).emaLatencyMs ≤
      largest m.emaLatencyMs (outcomes.filterMap fun x => x.1.successLatency?) := by
  refine Runs.invariant
    (fun m' : EndpointMetrics => m'.emaLatencyMs ≤
      largest m.emaLatencyMs (outcomes.filterMap fun x => x.1.successLatency?))
    (fun x : RequestOutcome × ℚ => x ∈ outcomes) (fun m' x hx hm' => ?_) (fun x hx => hx)
    (first_le_largest _ _)
  apply emaLatencyMs_update_le (hweigh x hx) hm'
  intro l hl
  exact le_largest (List.mem_filterMap.mpr ⟨x, hx, hl⟩)

/-- **The penalty average never exceeds** what it started with, 30 seconds, and the latencies of the
failures. -/
theorem run_emaErrorPenaltyMs_le : (m.run outcomes).emaErrorPenaltyMs ≤
    largest (max m.emaErrorPenaltyMs 30000) (outcomes.filterMap fun x => x.1.failureLatency?) := by
  have hfirst := first_le_largest (max m.emaErrorPenaltyMs 30000)
    (outcomes.filterMap fun x => x.1.failureLatency?)
  refine Runs.invariant
    (fun m' : EndpointMetrics => m'.emaErrorPenaltyMs ≤ largest (max m.emaErrorPenaltyMs 30000)
      (outcomes.filterMap fun x => x.1.failureLatency?))
    (fun x : RequestOutcome × ℚ => x ∈ outcomes) (fun m' x hx hm' => ?_) (fun x hx => hx)
    ((le_max_left _ _).trans hfirst)
  apply emaErrorPenaltyMs_update_le _ hm' ((le_max_right _ _).trans hfirst)
  intro l hl
  exact le_largest (List.mem_filterMap.mpr ⟨x, hx, hl⟩)

end EndpointMetrics

open EndpointMetrics in
/-- **The averages stay in range and converge up to a dead zone.** With a factor in the unit interval, an
update of `u64` values stays between its arguments; under one value for ever, with a factor above zero,
the averages move towards it, never cross it, and after at most as many updates as they were away from
it they stay within half the inverse of the factor of it. So over every run of outcomes, with any
factors in the unit interval, the two averages stay below what they started with and what was reported.
Source: `endpoint.rs` `EndpointMetrics::update`, `update_ema`, `calculate_penalty` -/
theorem ema_in_range :
    (∀ (a : ℚ) (c v : ℕ), Weighs a → c ≤ u64Max → v ≤ u64Max →
      min c v ≤ updateEma c v (.finite a) ∧ updateEma c v (.finite a) ≤ max c v) ∧
    (∀ (a : ℚ) (c v : ℕ), Weighs a → 0 < a → c ≤ u64Max → v ≤ u64Max →
      let value := fun n => (fun x => updateEma x v (.finite a))^[n] c
      (c ≤ v → Monotone value ∧ ∀ n, value n ≤ v) ∧
      (v ≤ c → Antitone value ∧ ∀ n, v ≤ value n) ∧
      ∀ n, ((c : ℤ) - v).natAbs ≤ n → |(value n : ℚ) - v| ≤ 1 / (2 * a)) ∧
    ∀ (m : EndpointMetrics) (outcomes : List (RequestOutcome × ℚ)), (∀ x ∈ outcomes, Weighs x.2) →
      (m.run outcomes).emaLatencyMs ≤
        largest m.emaLatencyMs (outcomes.filterMap fun x => x.1.successLatency?) ∧
      (m.run outcomes).emaErrorPenaltyMs ≤ largest (max m.emaErrorPenaltyMs 30000)
        (outcomes.filterMap fun x => x.1.failureLatency?) := by
  refine ⟨fun a c v ha hc hv => ⟨?_, updateEma_le_max ha⟩, fun a c v ha hpos hc hv => ?_,
    fun m outcomes hweigh => ⟨run_emaLatencyMs_le hweigh, run_emaErrorPenaltyMs_le⟩⟩
  · have hge := Smoothing.min_le_smooth (c := c) (v := v) ha.nonneg ha.le_one
    rw [← coe_updateEma ha hc hv] at hge
    omega
  · intro value
    have hvalue : ∀ n, ((value n : ℕ) : ℤ) = (Smoothing.smooth a v)^[n] c :=
      fun n => (coe_iterate_updateEma ha hc hv n).1
    refine ⟨fun hcv => ⟨fun i j hij => ?_, fun n => ?_⟩, fun hvc => ⟨fun i j hij => ?_, fun n => ?_⟩,
      fun n hn => ?_⟩
    · have hmono := Smoothing.monotone_iterate ha.nonneg ha.le_one (Int.ofNat_le.mpr hcv) hij
      dsimp only at hmono
      rw [← hvalue, ← hvalue] at hmono
      exact Int.ofNat_le.mp hmono
    · have hbelow := Smoothing.iterate_le ha.nonneg ha.le_one (Int.ofNat_le.mpr hcv) n
      rw [← hvalue] at hbelow
      exact Int.ofNat_le.mp hbelow
    · have hanti := Smoothing.antitone_iterate ha.nonneg ha.le_one (Int.ofNat_le.mpr hvc) hij
      dsimp only at hanti
      rw [← hvalue, ← hvalue] at hanti
      exact Int.ofNat_le.mp hanti
    · have habove := Smoothing.le_iterate ha.nonneg ha.le_one (Int.ofNat_le.mpr hvc) n
      rw [← hvalue] at habove
      exact Int.ofNat_le.mp habove
    · have hnear := Smoothing.iterate_near hpos ha.le_one hn
      rw [← hvalue] at hnear
      exact_mod_cast hnear

end AzothBalancer
