import Mathlib.Data.Rat.Floor

/-!
# Machine integers, floats and the clock

The parts of Rust's primitive types the balancer computes with, in the release profile (the one the
`Dockerfile` and `cargo install` build): plain integer arithmetic wraps, the `saturating_` methods
stop at the type's bounds.

* `u32`, `u64` and `usize` values are natural numbers; the operations whose bound matters are
  spelled out here (`saturatingAdd32`, `saturatingMul64`, `wrappingMul64`, `wrappingPow64`, …).
* `F64` keeps the value of a float exactly: `NaN`, the two infinities, or a rational number.
  Rounding of intermediate results is not modelled; `NaN` is, because configuration files can
  carry it.
* `Instant` is the monotonic clock in nanoseconds. Its second count is a signed 64-bit integer and
  adding a duration past that bound panics (`Instant.checkedAddSecs` answers `none`).
-/

namespace AzothBalancer

/-- `u32::MAX`. -/
def u32Max : ℕ := 2 ^ 32 - 1

/-- `u64::MAX`, and `usize::MAX` on the 64-bit targets. -/
def u64Max : ℕ := 2 ^ 64 - 1

/-- `u32::saturating_add`. -/
def saturatingAdd32 (a b : ℕ) : ℕ := min (a + b) u32Max

/-- `u64::saturating_add`. -/
def saturatingAdd64 (a b : ℕ) : ℕ := min (a + b) u64Max

/-- `u64::saturating_mul`. -/
def saturatingMul64 (a b : ℕ) : ℕ := min (a * b) u64Max

/-- `u64` multiplication in the release profile. -/
def wrappingMul64 (a b : ℕ) : ℕ := a * b % 2 ^ 64

/-- `u64::pow` in the release profile. -/
def wrappingPow64 (a k : ℕ) : ℕ := a ^ k % 2 ^ 64

/-- A saturating count has already stopped, or moves by one. -/
theorem saturatingAdd32_one_of_min (k : ℕ) :
    saturatingAdd32 (min u32Max k) 1 = min u32Max (k + 1) := by
  unfold saturatingAdd32
  omega

/-! ## Floats -/

/-- A float by its exact value. -/
inductive F64 where
  /-- Not a number. -/
  | nan
  /-- `-∞`. -/
  | negInf
  /-- `+∞`. -/
  | posInf
  /-- A finite value. -/
  | finite (q : ℚ)
  deriving DecidableEq

namespace F64

/-- `<` on floats: false as soon as one side is `NaN`. -/
def lt : F64 → F64 → Bool
  | nan, _ => false
  | _, nan => false
  | negInf, negInf => false
  | negInf, _ => true
  | _, negInf => false
  | posInf, _ => false
  | finite _, posInf => true
  | finite p, finite q => p < q

/-- `f64::clamp`: two comparisons, neither of which holds for `NaN`. -/
def clamp (x lo hi : F64) : F64 :=
  let x := if x.lt lo then lo else x
  if hi.lt x then hi else x

/-- `f64::round` (half away from zero) followed by `as u64` (saturating, negative to `0`). -/
def roundAsU64 (q : ℚ) : ℕ := min (q + 1 / 2).floor.toNat u64Max

end F64

/-! ## Results and panics -/

/-- How a call of a function returning `Result<α, ε>` ends. -/
inductive Outcome (ε α : Type) where
  /-- It returns `Ok`. -/
  | ok (a : α)
  /-- It returns `Err`. -/
  | err (e : ε)
  /-- It panics. -/
  | panic
  deriving DecidableEq, Repr

namespace Outcome

variable {ε α β : Type}

/-- The `?` operator: `Err` returns early, a panic unwinds. -/
def bind (x : Outcome ε α) (f : α → Outcome ε β) : Outcome ε β :=
  match x with
  | ok a => f a
  | err e => err e
  | panic => panic

instance : Monad (Outcome ε) where
  pure := ok
  bind := bind

/-- `unwrap` and `expect` on an option. -/
def unwrap : Option α → Outcome ε α
  | some a => ok a
  | none => panic

/-- A computation that ends in `Ok` has a first part that ends in `Ok`. -/
theorem bind_eq_ok_iff {x : Outcome ε α} {f : α → Outcome ε β} {b : β} :
    (x >>= f) = ok b ↔ ∃ a, x = ok a ∧ f a = ok b := by
  cases x <;> simp [Bind.bind, bind]

/-- Binding a value is application. -/
@[simp] theorem ok_bind (a : α) (f : α → Outcome ε β) : (ok a >>= f) = f a := rfl

/-- An error skips the rest. -/
@[simp] theorem err_bind (e : ε) (f : α → Outcome ε β) : ((err e : Outcome ε α) >>= f) = err e := rfl

/-- `pure` is `Ok`. -/
@[simp] theorem pure_eq_ok (a : α) : (pure a : Outcome ε α) = ok a := rfl

end Outcome

/-! ## The monotonic clock -/

/-- A reading of the monotonic clock, in nanoseconds. -/
abbrev Instant := ℕ

/-- Nanoseconds in a second. -/
def nanosPerSec : ℕ := 1000000000

/-- The first instant whose second count does not fit a signed 64-bit integer. -/
def instantLimit : ℕ := 2 ^ 63 * nanosPerSec

/-- `Instant + Duration::from_secs(secs)`, with `none` for the panic on overflow. -/
def Instant.checkedAddSecs (t : Instant) (secs : ℕ) : Option Instant :=
  if t + nanosPerSec * secs < instantLimit then some (t + nanosPerSec * secs) else none

/-- The addition is representable if a longer one is. -/
theorem Instant.checkedAddSecs_of_le {t : Instant} {secs secs' : ℕ} (h : secs' ≤ secs)
    (hs : (Instant.checkedAddSecs t secs).isSome) :
    Instant.checkedAddSecs t secs' = some (t + nanosPerSec * secs') := by
  have hlt : t + nanosPerSec * secs < instantLimit := by
    unfold Instant.checkedAddSecs at hs
    split at hs
    · assumption
    · simp at hs
  have hle : nanosPerSec * secs' ≤ nanosPerSec * secs := Nat.mul_le_mul_left _ h
  unfold Instant.checkedAddSecs
  rw [if_pos (lt_of_le_of_lt (Nat.add_le_add_left hle t) hlt)]

/-- A duration that can be added is below the bound on the second count. -/
theorem Instant.lt_of_checkedAddSecs {t : Instant} {secs : ℕ}
    (h : (Instant.checkedAddSecs t secs).isSome) : secs < 2 ^ 63 := by
  unfold Instant.checkedAddSecs at h
  split at h
  · rename_i hfits
    have hprod : nanosPerSec * secs < nanosPerSec * 2 ^ 63 := by
      rw [Nat.mul_comm nanosPerSec (2 ^ 63)]
      exact lt_of_le_of_lt (Nat.le_add_left _ _) hfits
    exact Nat.lt_of_mul_lt_mul_left hprod
  · simp at h

/-- Where a duration that can be added leads. -/
theorem Instant.eq_of_checkedAddSecs {t u : Instant} {secs : ℕ}
    (h : Instant.checkedAddSecs t secs = some u) : u = t + nanosPerSec * secs := by
  unfold Instant.checkedAddSecs at h
  split at h
  · exact (Option.some.inj h).symm
  · cases h

/-- Which durations lead to a given instant. -/
theorem Instant.checkedAddSecs_eq_some_iff {t : Instant} {secs secs' : ℕ} :
    Instant.checkedAddSecs t secs = some (t + nanosPerSec * secs') ↔
      secs = secs' ∧ (Instant.checkedAddSecs t secs').isSome := by
  have hpos : 0 < nanosPerSec := by decide
  unfold Instant.checkedAddSecs
  constructor
  · intro h
    split at h
    · rename_i hfits
      have hmul := Nat.add_left_cancel (Option.some.inj h)
      have heq := Nat.eq_of_mul_eq_mul_left hpos hmul
      subst heq
      exact ⟨rfl, by simp [hfits]⟩
    · cases h
  · rintro ⟨rfl, h⟩
    split at h
    · rename_i hfits
      rw [if_pos hfits]
    · cases h

/-- The two clocks a call reads: the monotonic one and the seconds since the epoch. -/
structure Clock where
  /-- `Instant::now()`. -/
  now : Instant
  /-- `SystemTime::now()` in whole seconds since `UNIX_EPOCH`. -/
  unixSecs : ℕ
  deriving DecidableEq, Repr

end AzothBalancer
