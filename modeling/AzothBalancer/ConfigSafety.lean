import AzothBalancer.FinalizedConfig
import AzothBalancer.HealthInvariant

/-!
# What an accepted configuration can break

The values of a finalized configuration reach library calls with preconditions of their own: the
semaphore at startup, the ticker of the health loop (`healthCheckStart`, `healthCheckTick`), the
additions to the clock in a cooldown and in the reset of that ticker, the conversions to milliseconds.
Finalization checks some of them (`Config.Safe` lists all).

`config_safe_iff` is the condition on the raw configuration under which the finalized one is safe
(`Config.Admissible`); `zero_interval_accepted` is a configuration that is accepted and not safe.
-/

namespace AzothBalancer

variable {M : Meter}

/-! ## The health loop -/

/-- `tokio::time::interval`; `none` is its panic on a zero period. -/
def interval (periodSecs : ℕ) : Option ℕ := if periodSecs = 0 then none else some periodSecs

/-- The first ticker of the loop, by its period.
Source: `utils/health.rs` `health_check_loop` -/
def healthCheckStart (lb : LoadBalancer) : Option ℕ := interval lb.healthCheckIntervalSecs

/-- The ticker of the loop at a tick, by its period: a changed setting makes a new one, which is reset to
`Instant::now()` plus its period. `none` is a panic, of `interval` or of the addition to the clock.
Source: `utils/health.rs` `health_check_loop` -/
def renewTicker (currentInterval newInterval : ℕ) (now : Instant) : Option ℕ :=
  if newInterval ≠ currentInterval then do
    let period ← interval newInterval
    -- `ticker.reset()`
    let _ ← now.checkedAddSecs period
    some period
  else some currentInterval

/-- One tick of the loop, whose ticker has the period `currentInterval`: the ticker is renewed and a
health round follows. Answers the world and the ticker's period; `none` is a panic.
Source: `utils/health.rs` `health_check_loop` -/
def healthCheckTick (w : World M) (currentInterval : ℕ) (results : List (String × Bool))
    (now : Instant) : Option (World M × ℕ) := do
  let ticker ← renewTicker currentInterval w.lb.healthCheckIntervalSecs now
  let (w, panicked) := performHealthChecks w results now
  if panicked then none else some (w, ticker)

/-! ## Safety -/

/-- Nothing a configuration's finalized values are used for panics or wraps around, with the clock at
`now`. The first group is about the values, the second about the functions that use them. -/
structure Config.Safe (M : Meter) (P : Platform) (raw : Config) (c : Settings) (now : Instant) :
    Prop where
  smoothing : ∃ q, c.latencySmoothingFactor = .finite q ∧ 0 ≤ q ∧ q ≤ 1
  interval : 1 ≤ c.healthCheckIntervalSecs
  timeout : 1000 * c.timeoutSecs ≤ u64Max
  concurrency : 1 ≤ raw.table.permits ∧ raw.table.permits ≤ semaphoreMaxPermits
  batch : 1 ≤ c.maxBatchSize
  cooldown : ∀ attempts ≤ 63,
    (now.checkedAddSecs (cooldownDuration attempts c.baseCooldownSecs c.maxCooldownSecs)).isSome
  limits : ∀ e ∈ c.endpoints, 0 < e.burstSize ∧ 0 < e.rateLimitPerSec
  /-- `LoadBalancer::new` -/
  new : ∀ path, (LoadBalancer.new M P.toLowercase (some raw) path now).isSome
  /-- The latency new endpoints start with, at startup and in a reload. -/
  initial : (EndpointMetrics.initial c.timeoutSecs).emaLatencyMs = 1000 * c.timeoutSecs
  /-- `reload` of a file with this configuration. -/
  reload : ∀ read (w : World M), tryLoadConfig P read w.lb.configPath = .ok (some raw) →
    (AzothBalancer.reload P read w now).1 ≠ .panic
  /-- `health_check_loop`, in any state of a balancer with these settings. -/
  loop : ∀ w : World M, w.lb = w.lb.published c w.lb.endpoints w.lb.rateLimiters →
    (healthCheckStart w.lb).isSome ∧
      ∀ currentInterval results, (healthCheckTick w currentInterval results now).isSome
  /-- The timeout of a probe, in milliseconds. -/
  probe : timeoutMillis c.healthCheckTimeoutSecs = 1000 * c.healthCheckTimeoutSecs
  /-- `trigger_cooldown`, up to the 63rd attempt: the power, the clock and the gauge. -/
  trigger : ∀ ep : RpcEndpoint, ep.cooldownAttempts < 63 →
    wrappingPow64 2 (ep.cooldownAttempts + 1) = 2 ^ (ep.cooldownAttempts + 1) ∧
    ∃ duration,
      (triggerCooldown ep c.baseCooldownSecs c.maxCooldownSecs now).2 = some duration ∧
        (BitVec.ofNat 64 duration).toInt = duration
  /-- `create_rate_limiter` -/
  limiter : ∀ e ∈ c.endpoints, (createRateLimiter M e.burstSize e.rateLimitPerSec).isSome ∧
    wrappingMul64 nanosPerSec e.burstSize = nanosPerSec * e.burstSize

/-- What a raw configuration has to satisfy to be safe once it is accepted. -/
structure Config.Admissible (raw : Config) (now : Instant) : Prop where
  smoothing : ∀ factor ∈ raw.table.latencySmoothingFactor, factor ≠ .nan
  interval : ∀ secs ∈ raw.table.healthCheckIntervalSecs, 1 ≤ secs
  timeout : ∀ secs ∈ raw.table.timeoutSecs, 1000 * secs ≤ u64Max
  healthTimeout : ∀ secs ∈ raw.table.healthCheckTimeoutSecs, 1000 * secs ≤ u64Max
  concurrency : ∀ permits ∈ raw.table.maxConcurrency, permits ≤ semaphoreMaxPermits
  ticker : (now.checkedAddSecs
    (raw.table.healthCheckIntervalSecs.getD defaultHealthCheckIntervalSecs)).isSome
  cooldown : (now.checkedAddSecs
    (min (saturatingMul64 (raw.table.baseCooldownSecs.getD defaultBaseCooldownSecs) (2 ^ 63))
      (raw.table.maxCooldownSecs.getD defaultMaxCooldownSecs))).isSome

/-! ## Clamping -/

/-- Clamping to the unit interval lets `NaN` through and nothing else outside.
Source: `config.rs` `Config::finalize` -/
theorem clamp_unit_iff (x : F64) :
    (∃ q, x.clamp (.finite 0) (.finite 1) = .finite q ∧ 0 ≤ q ∧ q ≤ 1) ↔ x ≠ .nan := by
  have horder : ¬ (1 : ℚ) < 0 := by decide
  cases x with
  | nan => simp [F64.clamp, F64.lt]
  | negInf => simp [F64.clamp, F64.lt, horder]
  | posInf => simp [F64.clamp, F64.lt]
  | finite q =>
      simp only [ne_eq, reduceCtorEq, not_false_eq_true, iff_true]
      unfold F64.clamp F64.lt
      by_cases hlow : q < 0
      · simp [hlow, horder]
      · by_cases hhigh : 1 < q
        · simp [hlow, hhigh]
        · simp only [decide_eq_true_eq, hlow, if_false, hhigh]
          exact ⟨q, rfl, not_lt.mp hlow, not_lt.mp hhigh⟩

/-! ## Cooldowns -/

section cooldown

variable {base max_ : ℕ} {now : Instant}

/-- The 63rd attempt has the longest cooldown. -/
theorem cooldownDuration_le_last (k : ℕ) :
    cooldownDuration k base max_ ≤ cooldownDuration 63 base max_ := by
  rcases Nat.lt_or_ge 63 k with hlate | hk
  · rw [cooldownDuration_of_wrapped hlate]
    exact Nat.zero_le _
  · unfold cooldownDuration saturatingMul64
    rw [wrappingPow64_two hk, wrappingPow64_two le_rfl]
    have hpow : 2 ^ k ≤ 2 ^ 63 := Nat.pow_le_pow_right (by decide) hk
    have hmul : base * 2 ^ k ≤ base * 2 ^ 63 := Nat.mul_le_mul_left base hpow
    dsimp only
    omega

/-- If the longest cooldown fits the clock, every cooldown does. -/
theorem checkedAddSecs_cooldown
    (h : (now.checkedAddSecs (cooldownDuration 63 base max_)).isSome) (k : ℕ) :
    (now.checkedAddSecs (cooldownDuration k base max_)).isSome := by
  rw [Instant.checkedAddSecs_of_le (cooldownDuration_le_last k) h]
  rfl

/-- A cooldown that fits the clock fits the gauge. -/
theorem toInt_of_checkedAddSecs {secs : ℕ} (h : (now.checkedAddSecs secs).isSome) :
    (BitVec.ofNat 64 secs).toInt = secs := by
  have hlt : secs < 2 ^ 63 := Instant.lt_of_checkedAddSecs h
  have hnat : (BitVec.ofNat 64 secs).toNat = secs := by
    rw [BitVec.toNat_ofNat]
    apply Nat.mod_eq_of_lt
    omega
  rw [BitVec.toInt_eq_toNat_of_lt, hnat]
  omega

/-- The length of a triggered cooldown that fits the clock.
Source: `utils/cooldown.rs` `trigger_cooldown` -/
theorem triggerCooldown_snd {ep : RpcEndpoint}
    (h : (now.checkedAddSecs
      (cooldownDuration (saturatingAdd32 ep.cooldownAttempts 1) base max_)).isSome) :
    (triggerCooldown ep base max_ now).2 =
      some (cooldownDuration (saturatingAdd32 ep.cooldownAttempts 1) base max_) := by
  obtain ⟨until_, hu⟩ := Option.isSome_iff_exists.mp h
  unfold triggerCooldown
  dsimp only
  rw [hu]

/-- Where every cooldown fits the clock, no probe result panics. -/
theorem HealthTable.step_not_panicked (t : HealthTable) {x : String × HealthEvent}
    (h : ∀ k, (now.checkedAddSecs (cooldownDuration k base max_)).isSome)
    (hx : ∃ isHealthy, x.2 = .probe isHealthy now) : (t.step base max_ x).2 = false := by
  obtain ⟨url, e⟩ := x
  obtain ⟨isHealthy, rfl⟩ := hx
  rw [HealthTable.step_probe_snd (r := (url, isHealthy))]
  unfold HealthTable.overflows
  split
  · rfl
  · rename_i v _
    obtain ⟨until_, hu⟩ := Option.isSome_iff_exists.mp (h (saturatingAdd32 v.cooldownAttempts 1))
    simp [hu]

/-- Where every cooldown fits the clock, no round of probes panics. -/
theorem HealthTable.run_not_panicked
    (h : ∀ k, (now.checkedAddSecs (cooldownDuration k base max_)).isSome) :
    ∀ (xs : List (String × HealthEvent)) (t : HealthTable),
      (∀ x ∈ xs, ∃ isHealthy, x.2 = .probe isHealthy now) → (run base max_ xs t).2 = false
  | [], _, _ => rfl
  | x :: xs, t, hx => by
      obtain ⟨hfirst, hrest⟩ := List.forall_mem_cons.mp hx
      have hone := t.step_not_panicked h hfirst
      rw [run]
      split
      · rename_i t' ht'
        rw [ht'] at hone
        cases hone
      · rename_i t' ht'
        exact run_not_panicked h xs t' hrest

end cooldown

/-! ## The values and the raw table -/

/-- A defaulted value has a property of the default if every configured one has. -/
theorem getD_iff {α : Type} {o : Option α} {d : α} {p : α → Prop} (hd : p d) :
    p (o.getD d) ↔ ∀ a ∈ o, p a := by
  cases o <;> simp [hd]

/-- A product that fits is not wrapped. -/
theorem wrappingMul64_eq_iff (a b : ℕ) : wrappingMul64 a b = a * b ↔ a * b ≤ u64Max := by
  have hu64 : u64Max = 2 ^ 64 - 1 := rfl
  unfold wrappingMul64
  constructor
  · intro h
    have hlt := Nat.mod_lt (a * b) (Nat.two_pow_pos 64)
    omega
  · intro h
    apply Nat.mod_eq_of_lt
    omega

/-- The permits fit the semaphore. -/
theorem permits_le_iff (b : BalancerConfig) :
    b.permits ≤ semaphoreMaxPermits ↔ ∀ permits ∈ b.maxConcurrency, permits ≤ semaphoreMaxPermits := by
  unfold BalancerConfig.permits
  rw [max_le_iff, and_iff_left (by decide)]
  exact getD_iff (p := (· ≤ semaphoreMaxPermits)) (by decide)

/-- The longest cooldown of the settings. -/
theorem cooldownDuration_last (b : BalancerConfig) (es : List EndpointConfig) :
    cooldownDuration 63 (b.settings es).baseCooldownSecs (b.settings es).maxCooldownSecs =
      min (saturatingMul64 (b.baseCooldownSecs.getD defaultBaseCooldownSecs) (2 ^ 63))
        (b.maxCooldownSecs.getD defaultMaxCooldownSecs) := by
  unfold cooldownDuration
  rw [wrappingPow64_two le_rfl]
  rfl

/-! ## The functions -/

section functions

variable {P : Platform} {raw : Config} {c : Settings} {now : Instant}

/-- A reload of an accepted configuration does not panic.
Source: `config_reloader.rs` `reload` -/
theorem reload_ne_panic (h : raw.FinalizesTo P.toLowercase c) {read : String → ReadResult}
    {w : World M} (hread : tryLoadConfig P read w.lb.configPath = .ok (some raw)) :
    (reload P read w now).1 ≠ .panic := by
  obtain ⟨finalized, b, hfin, hb, hc⟩ := h
  have hload : loadSettings P read w.lb.configPath = .ok c := by
    unfold loadSettings
    rw [hread]
    simp only [Option.getD_some, hfin, hb, hc]
  rw [reload_eq_ok now hload]
  exact (nomatch ·)

/-- A health round does not panic where every cooldown fits the clock.
Source: `utils/health.rs` `perform_health_checks` -/
theorem performHealthChecks_not_panicked {w : World M}
    (h : ∀ k, (now.checkedAddSecs
      (cooldownDuration k w.lb.baseCooldownSecs w.lb.maxCooldownSecs)).isSome)
    (results : List (String × Bool)) : (performHealthChecks w results now).2 = false := by
  have href := congrArg Prod.snd (performHealthChecks_refines w results now)
  refine href.trans (HealthTable.run_not_panicked h _ _ ?_)
  intro x hx
  obtain ⟨r, -, rfl⟩ := List.mem_map.mp hx
  exact ⟨r.2, rfl⟩

/-- Exactly when the ticker is renewed without a panic.
Source: `utils/health.rs` `health_check_loop` -/
theorem renewTicker_isSome_iff {currentInterval newInterval : ℕ} :
    (renewTicker currentInterval newInterval now).isSome ↔
      newInterval = currentInterval ∨ (newInterval ≠ 0 ∧ (now.checkedAddSecs newInterval).isSome) := by
  unfold renewTicker interval
  by_cases hsame : newInterval = currentInterval
  · simp [hsame]
  · by_cases hzero : newInterval = 0
    · simp [hzero]
    · rcases hfits : Instant.checkedAddSecs now newInterval with _ | _ <;> simp [hsame, hzero, hfits]

/-- Exactly when the ticker's renewal panics. -/
theorem renewTicker_eq_none_iff {currentInterval newInterval : ℕ} :
    renewTicker currentInterval newInterval now = none ↔
      newInterval ≠ currentInterval ∧ (newInterval = 0 ∨ (now.checkedAddSecs newInterval).isNone) := by
  rw [← Option.not_isSome_iff_eq_none, renewTicker_isSome_iff, not_or, not_and_or, not_not,
    Bool.not_eq_true, Option.isSome_eq_false_iff]

/-- The health loop does not panic with a positive interval that fits the clock.
Source: `utils/health.rs` `health_check_loop` -/
theorem healthCheckTick_isSome {w : World M} (hinterval : 1 ≤ w.lb.healthCheckIntervalSecs)
    (hticker : (now.checkedAddSecs w.lb.healthCheckIntervalSecs).isSome)
    (h : ∀ k, (now.checkedAddSecs
      (cooldownDuration k w.lb.baseCooldownSecs w.lb.maxCooldownSecs)).isSome)
    (currentInterval : ℕ) (results : List (String × Bool)) :
    (healthCheckTick w currentInterval results now).isSome := by
  have hround := performHealthChecks_not_panicked h results
  have hne : w.lb.healthCheckIntervalSecs ≠ 0 := Nat.one_le_iff_ne_zero.mp hinterval
  obtain ⟨period, hperiod⟩ := Option.isSome_iff_exists.mp
    (renewTicker_isSome_iff.mpr (Or.inr ⟨hne, hticker⟩) :
      (renewTicker currentInterval w.lb.healthCheckIntervalSecs now).isSome)
  unfold healthCheckTick
  simp [hperiod, hround]

/-- A tick that changes the interval has seen the new one fit the clock.
Source: `utils/health.rs` `health_check_loop` -/
theorem checkedAddSecs_of_healthCheckTick {w : World M} {currentInterval : ℕ}
    {results : List (String × Bool)} (h : (healthCheckTick w currentInterval results now).isSome)
    (hchanged : w.lb.healthCheckIntervalSecs ≠ currentInterval) :
    (now.checkedAddSecs w.lb.healthCheckIntervalSecs).isSome := by
  have hrenewed : (renewTicker currentInterval w.lb.healthCheckIntervalSecs now).isSome := by
    unfold healthCheckTick at h
    rcases hticker : renewTicker currentInterval w.lb.healthCheckIntervalSecs now with _ | _
    · simp [hticker] at h
    · rfl
  rcases renewTicker_isSome_iff.mp hrenewed with hsame | ⟨-, hfits⟩
  · exact absurd hsame hchanged
  · exact hfits

end functions

/-! ## The condition -/

/-- An accepted configuration that is safe has an interval that fits the clock: a loop with another
interval changes to it.
Source: `utils/health.rs` `health_check_loop` -/
theorem Config.Safe.ticker {P : Platform} {raw : Config} {c : Settings} {now : Instant}
    (h : raw.FinalizesTo P.toLowercase c) (hs : raw.Safe M P c now) :
    (now.checkedAddSecs c.healthCheckIntervalSecs).isSome := by
  obtain ⟨w, hw⟩ := Option.isSome_iff_exists.mp (hs.new "")
  have hstart := h.started hw
  have hinterval : w.lb.healthCheckIntervalSecs = c.healthCheckIntervalSecs := by
    rw [hstart.published]
    rfl
  rw [← hinterval]
  exact checkedAddSecs_of_healthCheckTick
    ((hs.loop w hstart.published).2 (w.lb.healthCheckIntervalSecs + 1) []) (Nat.succ_ne_self _).symm

/-- **Exactly when an accepted configuration is safe.** Of the libraries: `interval` panics on a zero
period, a semaphore above its limit, an addition to the clock on overflow, and clamping keeps `NaN`.
Source: `config.rs` `Config::finalize` -/
theorem config_safe_iff (M : Meter) (P : Platform) {raw : Config} {c : Settings}
    (h : raw.FinalizesTo P.toLowercase c) (now : Instant) :
    raw.Safe M P c now ↔ raw.Admissible now := by
  have hvalid := h.valid
  have hrange := h.inRange
  have hnew := new_isSome_iff (M := M) h
  have hreload := @reload_ne_panic M P raw c now h
  have hticker : raw.Safe M P c now → _ := Config.Safe.ticker h
  obtain ⟨es, -, rfl⟩ := finalizesTo_iff.mp h
  have hsmoothing := (clamp_unit_iff (raw.table.latencySmoothingFactor.getD
    defaultLatencySmoothingFactor)).trans (getD_iff (p := (· ≠ F64.nan)) (by decide))
  have hinterval : 1 ≤ (raw.table.settings es).healthCheckIntervalSecs ↔
      ∀ secs ∈ raw.table.healthCheckIntervalSecs, 1 ≤ secs := getD_iff (p := (1 ≤ ·)) (by decide)
  have htimeout : 1000 * (raw.table.settings es).timeoutSecs ≤ u64Max ↔
      ∀ secs ∈ raw.table.timeoutSecs, 1000 * secs ≤ u64Max :=
    getD_iff (p := (1000 * · ≤ u64Max)) (by decide)
  have hprobe : 1000 * (raw.table.settings es).healthCheckTimeoutSecs ≤ u64Max ↔
      ∀ secs ∈ raw.table.healthCheckTimeoutSecs, 1000 * secs ≤ u64Max :=
    getD_iff (p := (1000 * · ≤ u64Max)) (by decide)
  have hlast := cooldownDuration_last raw.table es
  constructor
  · intro hs
    refine ⟨hsmoothing.mp hs.smoothing, hinterval.mp hs.interval, htimeout.mp hs.timeout,
      hprobe.mp ((wrappingMul64_eq_iff _ _).mp hs.probe),
      (permits_le_iff _).mp hs.concurrency.2, hticker hs, ?_⟩
    rw [← hlast]
    exact hs.cooldown 63 le_rfl
  · intro ha
    have hpermits := (permits_le_iff _).mpr ha.concurrency
    have hcool := ha.cooldown
    rw [← hlast] at hcool
    have hall := checkedAddSecs_cooldown hcool
    have hlimits : ∀ e ∈ (raw.table.settings es).endpoints, 0 < e.burstSize ∧ 0 < e.rateLimitPerSec :=
      fun e he => ⟨(hvalid.endpoint e he).burst, (hvalid.endpoint e he).rate⟩
    constructor
    case smoothing => exact hsmoothing.mpr ha.smoothing
    case interval => exact hinterval.mpr ha.interval
    case timeout => exact htimeout.mpr ha.timeout
    case concurrency => exact ⟨le_max_right _ _, hpermits⟩
    case batch => exact le_max_right _ _
    case cooldown => exact fun k _ => hall k
    case limits => exact hlimits
    case new => exact fun path => (hnew path now).mpr hpermits
    case initial => exact (wrappingMul64_eq_iff _ _).mpr (htimeout.mpr ha.timeout)
    case reload => exact fun read w hread => hreload hread
    case probe => exact (wrappingMul64_eq_iff _ _).mpr (hprobe.mpr ha.healthTimeout)
    case loop =>
      intro w hw
      have hpos : 1 ≤ w.lb.healthCheckIntervalSecs := by
        rw [hw]
        exact hinterval.mpr ha.interval
      have hticker : (now.checkedAddSecs w.lb.healthCheckIntervalSecs).isSome := by
        rw [hw]
        exact ha.ticker
      have hfits : ∀ k, (now.checkedAddSecs
          (cooldownDuration k w.lb.baseCooldownSecs w.lb.maxCooldownSecs)).isSome := by
        rw [hw]
        exact hall
      constructor
      · unfold healthCheckStart interval
        rw [if_neg (Nat.one_le_iff_ne_zero.mp hpos)]
        rfl
      · exact healthCheckTick_isSome hpos hticker hfits
    case trigger =>
      intro ep hattempts
      have hfits := hall (saturatingAdd32 ep.cooldownAttempts 1)
      exact ⟨wrappingPow64_two (by omega), _, triggerCooldown_snd hfits, toInt_of_checkedAddSecs hfits⟩
    case limiter =>
      intro e he
      obtain ⟨hb, hr⟩ := hlimits e he
      obtain ⟨l, hl⟩ := createRateLimiter_isSome (M := M) hb hr
      refine ⟨by rw [hl]; rfl, (wrappingMul64_eq_iff _ _).mpr ?_⟩
      have hburst : e.burstSize ≤ 10000 := (hrange e he).burst
      have hmul : nanosPerSec * e.burstSize ≤ nanosPerSec * 10000 := Nat.mul_le_mul_left _ hburst
      exact hmul.trans (by decide)

/-! ## A configuration that is accepted and not safe -/

/-- The sample configuration with a zero interval between health rounds. -/
def zeroIntervalConfig : Config :=
  { balancer := some { healthCheckIntervalSecs := some 0, endpoints := some [sampleEndpoint] } }

/-- The settings of the configuration with a zero interval. -/
theorem finalizesTo_zeroInterval : zeroIntervalConfig.FinalizesTo asciiLowercase
    { Settings.ofEndpoints [sampleEndpoint] with healthCheckIntervalSecs := 0 } := by
  apply finalizesTo_iff.mpr
  exact ⟨[sampleEndpoint], by decide +kernel, by decide +kernel⟩

/-- A zero interval is accepted, and the health loop panics when it starts. -/
theorem zero_interval_accepted :
    ¬ ∀ (M : Meter) (P : Platform) (raw : Config) (c : Settings) (now : Instant),
      raw.FinalizesTo P.toLowercase c → raw.Safe M P c now := by
  intro h
  have hsafe := h leakyBucket samplePlatform zeroIntervalConfig _ 0 finalizesTo_zeroInterval
  exact absurd hsafe.interval (by decide)

/-- `config_safe_iff` for the sample configuration, which is safe, and with a zero interval. -/
theorem config_safe_iff_sample :
    (Config.ofEndpoints [sampleEndpoint]).Safe leakyBucket samplePlatform
        (.ofEndpoints [sampleEndpoint]) 0 ∧
      ¬ zeroIntervalConfig.Safe leakyBucket samplePlatform
        { Settings.ofEndpoints [sampleEndpoint] with healthCheckIntervalSecs := 0 } 0 := by
  constructor
  · apply (config_safe_iff leakyBucket samplePlatform
      (finalizesTo_iff.mpr ⟨[sampleEndpoint], by decide +kernel, by decide +kernel⟩) 0).mpr
    constructor <;> decide
  · intro hsafe
    have hadm := (config_safe_iff leakyBucket samplePlatform finalizesTo_zeroInterval 0).mp hsafe
    exact absurd (hadm.interval 0 rfl) (by decide)

end AzothBalancer
