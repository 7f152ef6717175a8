import Mathlib.Algebra.Order.Round
import Mathlib.Data.Int.ConditionallyCompleteOrder
import Mathlib.Logic.Function.Iterate
import Mathlib.Tactic.Linarith
import Mathlib.Tactic.Positivity
import Mathlib.Tactic.Ring

/-!
# Smoothing, rounded to integers

Exponential smoothing of integers: `smooth a v c` is the average of the sample `v` and the current
value `c`, with weight `a` on the sample, rounded to the nearest integer. The rounding makes the
recurrence stop short of its sample.

* `min_le_smooth`, `smooth_le_max` — a smoothed value is between its arguments.
* `rests_or_moves` — a value that is smoothed stays where it is, near the sample, or moves towards it by
  one at least.
* `iterate_le`, `le_iterate`, `monotone_iterate`, `antitone_iterate` — under one sample for ever, the
  values move towards it and never past it.
* `iterate_near` — after as many steps as the first value is away from the sample, they stay near it.
-/

namespace Smoothing

variable {K : Type} [Field K] [LinearOrder K] [IsStrictOrderedRing K] [FloorRing K]

/-- The current value `c` after the sample `v`. -/
def smooth (a : K) (v c : ℤ) : ℤ := round (a * v + (1 - a) * c)

variable {a : K} {c v : ℤ}

/-! ## One sample -/

/-- Rounding does not pass an integer above. -/
theorem round_le_of_le {x : K} {z : ℤ} (h : x ≤ z) : round x ≤ z := by
  rw [round_eq, Int.floor_le_iff]
  linarith

/-- Rounding does not pass an integer below. -/
theorem le_round_of_le {x : K} {z : ℤ} (h : (z : K) ≤ x) : z ≤ round x := by
  rw [round_eq, Int.le_floor]
  linarith

/-- A smoothed value is not above both its arguments. -/
theorem smooth_le_max (h₀ : 0 ≤ a) (h₁ : a ≤ 1) : smooth a v c ≤ max c v := by
  have hv : (v : K) ≤ (max c v : ℤ) := by exact_mod_cast le_max_right c v
  have hc : (c : K) ≤ (max c v : ℤ) := by exact_mod_cast le_max_left c v
  apply round_le_of_le
  calc a * v + (1 - a) * c
      ≤ a * (max c v : ℤ) + (1 - a) * (max c v : ℤ) :=
        add_le_add (mul_le_mul_of_nonneg_left hv h₀)
          (mul_le_mul_of_nonneg_left hc (sub_nonneg.mpr h₁))
    _ = (max c v : ℤ) := by ring

/-- A smoothed value is not below both its arguments. -/
theorem min_le_smooth (h₀ : 0 ≤ a) (h₁ : a ≤ 1) : min c v ≤ smooth a v c := by
  have hv : ((min c v : ℤ) : K) ≤ v := by exact_mod_cast min_le_right c v
  have hc : ((min c v : ℤ) : K) ≤ c := by exact_mod_cast min_le_left c v
  apply le_round_of_le
  calc ((min c v : ℤ) : K)
      = a * (min c v : ℤ) + (1 - a) * (min c v : ℤ) := by ring
    _ ≤ a * v + (1 - a) * c :=
        add_le_add (mul_le_mul_of_nonneg_left hv h₀)
          (mul_le_mul_of_nonneg_left hc (sub_nonneg.mpr h₁))

/-- The value stays exactly if the sample pulls by less than a half, or by a half downwards. -/
theorem smooth_eq_self_iff : smooth a v c = c ↔ -(1 / 2) ≤ a * (v - c) ∧ a * (v - c) < 1 / 2 := by
  have hsum : a * v + (1 - a) * c = c + a * (v - c) := by ring
  unfold smooth
  rw [round_eq_iff, hsum, Set.mem_Ico]
  constructor
  · rintro ⟨hlo, hhi⟩
    exact ⟨by linarith, by linarith⟩
  · rintro ⟨hlo, hhi⟩
    exact ⟨by linarith, by linarith⟩

/-- Where a value stays, it is near the sample. -/
theorem near_of_smooth_eq_self (ha : 0 < a) (h : smooth a v c = c) :
    |(c : K) - v| ≤ 1 / (2 * a) := by
  obtain ⟨hlo, hhi⟩ := smooth_eq_self_iff.mp h
  have hpull : |a * ((c : K) - v)| ≤ 1 / 2 := by
    rw [abs_le]
    constructor
    · linarith
    · linarith
  rw [abs_mul, abs_of_pos ha] at hpull
  rw [le_div_iff₀ (by positivity)]
  linarith

/-- **A smoothed value rests near the sample, or moves towards it.** -/
theorem rests_or_moves (h₀ : 0 < a) (h₁ : a ≤ 1) :
    (smooth a v c = c ∧ |(c : K) - v| ≤ 1 / (2 * a)) ∨ |smooth a v c - v| + 1 ≤ |c - v| := by
  by_cases hrest : smooth a v c = c
  · exact .inl ⟨hrest, near_of_smooth_eq_self h₀ hrest⟩
  · have hlo := min_le_smooth (c := c) (v := v) h₀.le h₁
    have hhi := smooth_le_max (c := c) (v := v) h₀.le h₁
    refine .inr ?_
    rcases le_total c v with hcv | hvc
    · rw [min_eq_left hcv] at hlo
      rw [max_eq_right hcv] at hhi
      rw [abs_of_nonpos (by omega), abs_of_nonpos (by omega)]
      omega
    · rw [min_eq_right hvc] at hlo
      rw [max_eq_left hvc] at hhi
      rw [abs_of_nonneg (by omega), abs_of_nonneg (by omega)]
      omega

/-! ## One sample for ever -/

section iterate

/-- From below, the values stay below the sample. -/
theorem iterate_le (h₀ : 0 ≤ a) (h₁ : a ≤ 1) (h : c ≤ v) (n : ℕ) : (smooth a v)^[n] c ≤ v := by
  induction n with
  | zero => exact h
  | succ n ih =>
      rw [Function.iterate_succ_apply']
      exact (smooth_le_max h₀ h₁).trans (max_le ih le_rfl)

/-- From above, the values stay above the sample. -/
theorem le_iterate (h₀ : 0 ≤ a) (h₁ : a ≤ 1) (h : v ≤ c) (n : ℕ) : v ≤ (smooth a v)^[n] c := by
  induction n with
  | zero => exact h
  | succ n ih =>
      rw [Function.iterate_succ_apply']
      exact (le_min ih le_rfl).trans (min_le_smooth h₀ h₁)

/-- From below, the values grow. -/
theorem monotone_iterate (h₀ : 0 ≤ a) (h₁ : a ≤ 1) (h : c ≤ v) :
    Monotone fun n => (smooth a v)^[n] c := by
  apply monotone_nat_of_le_succ
  intro n
  have hlo := min_le_smooth (c := (smooth a v)^[n] c) (v := v) h₀ h₁
  rw [min_eq_left (iterate_le h₀ h₁ h n)] at hlo
  rw [Function.iterate_succ_apply']
  exact hlo

/-- From above, the values fall. -/
theorem antitone_iterate (h₀ : 0 ≤ a) (h₁ : a ≤ 1) (h : v ≤ c) :
    Antitone fun n => (smooth a v)^[n] c := by
  apply antitone_nat_of_succ_le
  intro n
  have hhi := smooth_le_max (c := (smooth a v)^[n] c) (v := v) h₀ h₁
  rw [max_eq_left (le_iterate h₀ h₁ h n)] at hhi
  rw [Function.iterate_succ_apply']
  exact hhi

/-- Until the values rest near the sample, every step takes them nearer by one. The measure is the
distance left plus the steps made. -/
theorem near_or_nearer (h₀ : 0 < a) (h₁ : a ≤ 1) (n : ℕ) :
    |(((smooth a v)^[n] c : ℤ) : K) - v| ≤ 1 / (2 * a) ∨ |(smooth a v)^[n] c - v| + n ≤ |c - v| := by
  induction n with
  | zero => exact .inr (by simp)
  | succ n ih =>
      rw [Function.iterate_succ_apply']
      rcases rests_or_moves (c := (smooth a v)^[n] c) (v := v) h₀ h₁ with ⟨hrest, hnear⟩ | hmoves
      · rw [hrest]
        exact .inl hnear
      · rcases ih with hnear | hnearer
        · refine .inl (le_trans ?_ hnear)
          have hle : |smooth a v ((smooth a v)^[n] c) - v| ≤ |(smooth a v)^[n] c - v| := by omega
          exact_mod_cast hle
        · refine .inr ?_
          push_cast
          omega

/-- **After as many steps as the first value is away from the sample, the values stay near it.** -/
theorem iterate_near (h₀ : 0 < a) (h₁ : a ≤ 1) {n : ℕ} (hn : (c - v).natAbs ≤ n) :
    |(((smooth a v)^[n] c : ℤ) : K) - v| ≤ 1 / (2 * a) := by
  rcases near_or_nearer (c := c) (v := v) h₀ h₁ n with hnear | hnearer
  · exact hnear
  · have hreached : (smooth a v)^[n] c - v = 0 := by
      rw [← abs_nonpos_iff]
      have hdist : |c - v| = (c - v).natAbs := Int.abs_eq_natAbs _
      omega
    have hzero : (((smooth a v)^[n] c : ℤ) : K) - v = 0 := by exact_mod_cast hreached
    rw [hzero, abs_zero]
    positivity

end iterate

end Smoothing
