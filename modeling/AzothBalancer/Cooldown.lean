import AzothBalancer.State

/-!
# Cooldowns

`utils/cooldown.rs`: `triggerCooldown` counts an attempt, sets the end of the cooldown by
exponential backoff and publishes its length. Adding the cooldown to the clock panics past the
clock's range; by then the attempt has been counted and nothing else has changed, so the function
answers the record together with the cooldown's length, or with `none` when it panicked.
-/

namespace AzothBalancer

/-- The length of a cooldown, in seconds: `base * 2^attempts` in machine arithmetic, capped.
Source: `utils/cooldown.rs` `trigger_cooldown` -/
def cooldownDuration (attempts baseCooldownSecs maxCooldownSecs : ℕ) : ℕ :=
  let exponentialCooldown := saturatingMul64 baseCooldownSecs (wrappingPow64 2 attempts)
  min exponentialCooldown maxCooldownSecs

/-- Up to the 63rd attempt the power does not wrap around. -/
theorem wrappingPow64_two {k : ℕ} (h : k ≤ 63) : wrappingPow64 2 k = 2 ^ k := by
  unfold wrappingPow64
  apply Nat.mod_eq_of_lt
  exact Nat.pow_lt_pow_right (by decide) (by omega)

/-- From the 64th attempt on the power is zero, and so is the cooldown. -/
theorem cooldownDuration_of_wrapped {k base max_ : ℕ} (h : 64 ≤ k) :
    cooldownDuration k base max_ = 0 := by
  have hpow : wrappingPow64 2 k = 0 := by
    unfold wrappingPow64
    exact Nat.mod_eq_zero_of_dvd (pow_dvd_pow 2 h)
  unfold cooldownDuration saturatingMul64
  simp [hpow]

/-- Puts an endpoint into cooldown: the record afterwards, and the cooldown's length unless the
addition to the clock panicked.
Source: `utils/cooldown.rs` `trigger_cooldown` -/
def triggerCooldown (ep : RpcEndpoint) (baseCooldownSecs maxCooldownSecs : ℕ) (now : Instant) :
    RpcEndpoint × Option ℕ :=
  let ep := { ep with cooldownAttempts := saturatingAdd32 ep.cooldownAttempts 1 }
  let duration := cooldownDuration ep.cooldownAttempts baseCooldownSecs maxCooldownSecs
  match Instant.checkedAddSecs now duration with
  | none => (ep, none)
  | some until_ => ({ ep with cooldownUntil := some until_, lastCheck := now }, some duration)

/-- The gauge of a triggered cooldown. The conversion to `i64` is `as`.
Source: `utils/cooldown.rs` `trigger_cooldown` -/
def publishCooldown (m : Registry) (url : String) (duration : ℕ) : Registry :=
  m.set .cooldownSecondsGauge [url] (BitVec.ofNat 64 duration).toInt

section frame

variable (ep : RpcEndpoint) (base max_ : ℕ) (now : Instant)

/-- A trigger keeps the URL. -/
@[simp] theorem triggerCooldown_url : (triggerCooldown ep base max_ now).1.url = ep.url := by
  unfold triggerCooldown
  dsimp only
  split <;> rfl

/-- A trigger keeps the health flag. -/
@[simp] theorem triggerCooldown_healthy :
    (triggerCooldown ep base max_ now).1.healthy = ep.healthy := by
  unfold triggerCooldown
  dsimp only
  split <;> rfl

/-- A trigger keeps the configured rate, burst and weight. -/
theorem triggerCooldown_config :
    (triggerCooldown ep base max_ now).1.rateLimitPerSec = ep.rateLimitPerSec ∧
      (triggerCooldown ep base max_ now).1.burstSize = ep.burstSize ∧
      (triggerCooldown ep base max_ now).1.weight = ep.weight := by
  unfold triggerCooldown
  dsimp only
  split <;> exact ⟨rfl, rfl, rfl⟩

/-- A trigger keeps the metrics object. -/
@[simp] theorem triggerCooldown_metrics :
    (triggerCooldown ep base max_ now).1.metrics = ep.metrics := by
  unfold triggerCooldown
  dsimp only
  split <;> rfl

/-- A trigger counts one attempt, also when it panics. -/
@[simp] theorem triggerCooldown_attempts :
    (triggerCooldown ep base max_ now).1.cooldownAttempts =
      saturatingAdd32 ep.cooldownAttempts 1 := by
  unfold triggerCooldown
  dsimp only
  split <;> rfl

end frame

end AzothBalancer
