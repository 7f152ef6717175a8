import Mathlib.Algebra.BigOperators.Group.List.Basic
import Mathlib.Algebra.Order.BigOperators.Group.List
import Mathlib.Data.ENat.Basic

/-!
# Pools

Pools with room for so many units, `⊤` for a pool without bound. A claim of `n` units is charged to one pool that
has the room (`Charged`). What is left over all pools (`left`) then falls by `n`, and the number of claims of `n`
units that can still be charged (`claims`) falls by one.

* `left_of_charged`, `claims_of_charged` — one charge.
* `left_le_of_refused` — when every pool refuses, little is left.
* `claims_eq_zero_iff` — no further claim can be charged exactly if every pool refuses.
-/

namespace Pools

variable {ι : Type} {rooms rooms' : ι → ℕ∞} {pools : List ι} {i : ι} {n : ℕ}

/-- The units left. -/
def left (rooms : ι → ℕ∞) (pools : List ι) : ℕ∞ := (pools.map rooms).sum

/-- The claims of `n` units that one room has space for. -/
def claimsIn (n : ℕ) (room : ℕ∞) : ℕ∞ := if room = ⊤ then ⊤ else (room.toNat / n : ℕ)

/-- The claims of `n` units that can still be charged. -/
def claims (n : ℕ) (rooms : ι → ℕ∞) (pools : List ι) : ℕ∞ := left (fun i => claimsIn n (rooms i)) pools

/-- A claim of `n` units has been charged to the pool `i`. -/
structure Charged (rooms rooms' : ι → ℕ∞) (i : ι) (n : ℕ) : Prop where
  self : rooms' i + n = rooms i
  others : ∀ j, j ≠ i → rooms' j = rooms j

/-- A pool without bound has space for any number of claims. -/
@[simp] theorem claimsIn_top (n : ℕ) : claimsIn n ⊤ = ⊤ := if_pos rfl

/-- A bounded pool. -/
@[simp] theorem claimsIn_coe (n k : ℕ) : claimsIn n k = (k / n : ℕ) := by simp [claimsIn]

/-- The first pool and the others. -/
@[simp] theorem left_cons (rooms : ι → ℕ∞) (i : ι) (pools : List ι) :
    left rooms (i :: pools) = rooms i + left rooms pools := by simp [left]

/-- Without pools. -/
@[simp] theorem left_nil (rooms : ι → ℕ∞) : left rooms [] = 0 := rfl

/-- What is left depends on the rooms of the pools. -/
theorem left_congr (h : ∀ j ∈ pools, rooms' j = rooms j) : left rooms' pools = left rooms pools := by
  unfold left
  rw [List.map_congr_left h]

/-- **A charge lowers what is left by its units.** -/
theorem left_of_charged (hn : pools.Nodup) (hi : i ∈ pools) (h : Charged rooms rooms' i n) :
    left rooms' pools + n = left rooms pools := by
  induction pools with
  | nil => cases hi
  | cons j pools ih =>
      obtain ⟨hj, hn⟩ := List.nodup_cons.mp hn
      rw [left_cons, left_cons]
      rcases List.mem_cons.mp hi with rfl | hi
      · rw [left_congr fun k hk => h.others k fun hki => hj (hki ▸ hk), add_right_comm, h.self]
      · rw [h.others j fun hji => hj (hji ▸ hi), add_assoc, ih hn hi]

/-- One more claim. -/
theorem claimsIn_add (hn : 0 < n) (room : ℕ∞) : claimsIn n (room + n) = claimsIn n room + 1 := by
  induction room using ENat.recTopCoe with
  | top => simp
  | coe k =>
      rw [← Nat.cast_add, claimsIn_coe, claimsIn_coe, Nat.add_div_right k hn]
      rfl

/-- No claim. -/
theorem claimsIn_eq_zero_iff (hn : 0 < n) (room : ℕ∞) : claimsIn n room = 0 ↔ room < n := by
  induction room using ENat.recTopCoe with
  | top => simp
  | coe k =>
      rw [claimsIn_coe, Nat.cast_eq_zero, Nat.div_eq_zero_iff, Nat.cast_lt]
      omega

/-- Of a charge of `n` units. -/
theorem Charged.claimsIn (hn : 0 < n) (h : Charged rooms rooms' i n) :
    Charged (fun j => claimsIn n (rooms j)) (fun j => claimsIn n (rooms' j)) i 1 where
  self := by
    rw [Nat.cast_one, ← claimsIn_add hn, h.self]
  others j hj := by rw [h.others j hj]

/-- **A charge lowers the number of further claims by one.** -/
theorem claims_of_charged (hn : pools.Nodup) (hi : i ∈ pools) (hpos : 0 < n) (h : Charged rooms rooms' i n) :
    claims n rooms' pools + 1 = claims n rooms pools := left_of_charged hn hi (h.claimsIn hpos)

/-- **No further claim can be charged exactly if every pool refuses.** -/
theorem claims_eq_zero_iff (hpos : 0 < n) : claims n rooms pools = 0 ↔ ∀ i ∈ pools, rooms i < n := by
  unfold claims left
  simp [List.sum_eq_zero_iff, claimsIn_eq_zero_iff hpos]

/-- **When every pool refuses `n` units, each of them has less than `n` left.** -/
theorem left_le_of_refused (h : ∀ i ∈ pools, rooms i < n) : left rooms pools ≤ pools.length * (n - 1 : ℕ) := by
  have hle : ∀ k ∈ pools.map rooms, k ≤ ((n - 1 : ℕ) : ℕ∞) := by
    intro k hk
    obtain ⟨i, hi, rfl⟩ := List.mem_map.mp hk
    obtain ⟨m, hm⟩ := ENat.ne_top_iff_exists.mp (h i hi).ne_top
    have hlt := h i hi
    rw [← hm] at hlt ⊢
    norm_cast at hlt ⊢
    omega
  have hsum := List.sum_le_card_nsmul _ _ hle
  rw [List.length_map, nsmul_eq_mul] at hsum
  exact hsum

end Pools
