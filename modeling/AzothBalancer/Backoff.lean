import AzothBalancer.HealthRounds

/-!
# Consecutive cooldowns

`trigger_cooldown` takes the length of a cooldown from "the number of consecutive cooldown attempts". A
cooldown is not a consecutive one if the cooldown before it has ended and a health check begun after that
has succeeded. The count goes back to zero where a health round finds a down endpoint healthy, and a 429
does not take an endpoint down.

* `BackoffRecord` — the history of one endpoint: the cooldowns triggered since startup or the last
  recovery, the end of the latest one, and the probes since that end.
* `Recorded.Restarts` — a trigger on an endpoint checked since its latest cooldown starts the backoff
  afresh.
* `backoff_restarts_iff` — it does in every step of a run exactly if the cooldowns recorded do not show
  (`BackoffStarts`); `backoff_continues` is a run in which they do.
-/

namespace AzothBalancer

variable {M : Meter}

/-! ## The length of a first cooldown -/

/-- The cooldown after `n` others has the length of a first one. -/
def BackoffStarts (n base max_ : ℕ) : Prop :=
  n = 0 ∨ base = 0 ∨ max_ = 0 ∨ (n < 63 ∧ max_ ≤ 2 * base)

instance (n base max_ : ℕ) : Decidable (BackoffStarts n base max_) :=
  inferInstanceAs (Decidable (_ ∨ _ ∨ _ ∨ _))

section length

variable {n base max_ : ℕ} {now : Instant}

/-- Up to the 63rd attempt a cooldown doubles with each, up to the cap.
Source: `utils/cooldown.rs` `trigger_cooldown` -/
theorem cooldownDuration_of_le {k : ℕ} (h : k ≤ 63) :
    cooldownDuration k base max_ = min (min (base * 2 ^ k) u64Max) max_ := by
  unfold cooldownDuration saturatingMul64
  rw [wrappingPow64_two h]

/-- **When a cooldown has the length of a first one**, if that fits the clock. The cases are those of
the power: it wraps to zero from the 64th attempt on. -/
theorem cooldownDuration_eq_first_iff (hfits : min max_ (2 * base) < 2 ^ 63) :
    cooldownDuration (min u32Max (n + 1)) base max_ = min max_ (2 * base) ↔
      BackoffStarts n base max_ := by
  have hu32 : u32Max = 2 ^ 32 - 1 := rfl
  have hu64 : u64Max = 2 ^ 64 - 1 := rfl
  unfold BackoffStarts
  by_cases hn : n < 63
  · have hk : min u32Max (n + 1) = n + 1 := by omega
    rw [hk, cooldownDuration_of_le (by omega)]
    rcases Nat.eq_zero_or_pos n with hzero | hpos
    · subst hzero
      omega
    · have hpow : 2 ^ 2 ≤ 2 ^ (n + 1) := Nat.pow_le_pow_right (by decide) (by omega)
      have hquadruple : base * 2 ^ 2 ≤ base * 2 ^ (n + 1) := Nat.mul_le_mul_left base hpow
      have hzero : base = 0 → base * 2 ^ (n + 1) = 0 := by
        intro hbase
        rw [hbase, Nat.zero_mul]
      omega
  · rw [cooldownDuration_of_wrapped (by omega)]
    omega

/-- The end of a first cooldown, and when the cooldown after `n` others ends there. -/
theorem checkedAddSecs_eq_first_iff :
    Instant.checkedAddSecs now (cooldownDuration (min u32Max (n + 1)) base max_) =
        some (now + nanosPerSec * min max_ (2 * base)) ↔
      BackoffStarts n base max_ ∧ (Instant.checkedAddSecs now (min max_ (2 * base))).isSome := by
  rw [Instant.checkedAddSecs_eq_some_iff]
  apply and_congr_left
  intro hfits
  exact cooldownDuration_eq_first_iff (Instant.lt_of_checkedAddSecs hfits)

end length

/-- A cooldown is triggered on an endpoint with vitals. -/
theorem exists_vitals_of_triggersAt {s : RoundSystem M} {e : RoundEvent} {url : String}
    (h : s.triggersAt e url = true) : ∃ v, s.world.lb.vitals url = some v := by
  unfold RoundSystem.triggersAt at h
  split at h
  · rename_i v _ hv _
    exact ⟨v, hv⟩
  · cases h

/-- **Where a triggered cooldown ends**, if it takes effect: its length is that of one more attempt.
Source: `utils/cooldown.rs` `trigger_cooldown` -/
theorem cools_until_iff {s : RoundSystem M} {e : RoundEvent} (hs : s.Sound) {url : String} {v : Vitals}
    (hv : s.world.lb.vitals url = some v) (ht : s.triggersAt e url = true) (until_ : Instant) :
    (s.cools e url = true ∧ ∃ v' ∈ (s.step e).world.lb.vitals url, v'.cooldownUntil = some until_) ↔
      Instant.checkedAddSecs s.clock (cooldownDuration (saturatingAdd32 v.cooldownAttempts 1)
        s.world.lb.baseCooldownSecs s.world.lb.maxCooldownSecs) = some until_ := by
  unfold RoundSystem.triggersAt at ht
  rw [hv] at ht
  cases hx : s.eventAt e url with
  | none =>
      rw [hx] at ht
      cases ht
  | some x =>
      rw [hx] at ht
      change v.triggers x = true at ht
      have hends : (s.cools e url = true ∧
          ∃ v' ∈ (s.step e).world.lb.vitals url, v'.cooldownUntil = some until_) ↔
          (v.step s.world.lb.baseCooldownSecs s.world.lb.maxCooldownSecs x).2 = false ∧
          (v.step s.world.lb.baseCooldownSecs s.world.lb.maxCooldownSecs x).1.cooldownUntil =
            some until_ := by
        rw [vitals_eventAt hs e url]
        simp [RoundSystem.cools, hv, hx, ht, RoundSystem.receive, Vitals.receive]
      rw [hends]
      rcases Vitals.step_cases s.world.lb.baseCooldownSecs s.world.lb.maxCooldownSecs v x
        with ⟨-, -, b, -, hstep⟩ | ⟨hno, -, -⟩ | ⟨hno, -, -⟩
      · rw [hstep, Vitals.trigger_ends_iff, now_of_eventAt hx]
      · rw [ht] at hno
        cases hno
      · rw [ht] at hno
        cases hno

/-! ## The history of an endpoint -/

/-- What has happened to the cooldowns of an endpoint. -/
structure BackoffRecord where
  /-- The cooldowns triggered since startup or the last recovery. -/
  triggered : ℕ
  /-- The end of the latest cooldown. -/
  until_ : Option Instant
  /-- The probe of the current round began after that end. -/
  probed : Bool
  /-- A probe that began after that end has succeeded. -/
  verified : Bool
  deriving DecidableEq, Repr

/-- The record after an event. A trigger begins a new history of probes, also where it panics and the
latest cooldown stays the one before. -/
def BackoffRecord.next (s : RoundSystem M) (e : RoundEvent) (url : String) (r : BackoffRecord) :
    BackoffRecord :=
  if s.triggersAt e url then
    { triggered := r.triggered + 1
      until_ := ((s.step e).world.lb.vitals url >>= Vitals.cooldownUntil).or r.until_
      probed := false
      verified := false }
  else if s.recoversAt e url then { r with triggered := 0 }
  else
    match e, s.phase with
    | .startRound, .idle => { r with probed := r.until_.any (· ≤ s.clock) }
    | .completeProbe u isHealthy, .probing _ pending _ =>
        { r with verified := r.verified || (u = url && url ∈ pending && isHealthy && r.probed) }
    | _, _ => r

/-- The cooldowns on record, after an event. -/
theorem BackoffRecord.next_triggered (s : RoundSystem M) (e : RoundEvent) (url : String)
    (r : BackoffRecord) : (r.next s e url).triggered =
      if s.triggersAt e url then r.triggered + 1 else if s.recoversAt e url then 0 else r.triggered := by
  unfold next
  split
  · rfl
  · split
    · rfl
    · split <;> rfl

/-- The rounds, with the record of every URL. -/
structure Recorded (M : Meter) where
  system : RoundSystem M
  records : String → BackoffRecord

namespace Recorded

/-- The rounds from a startup in `w` on. -/
def start (w : World M) (clock : Instant) : Recorded M :=
  ⟨⟨w, clock, .idle⟩, fun _ => ⟨0, none, false, false⟩⟩

/-- One event. -/
def step (s : Recorded M) (e : RoundEvent) : Recorded M where
  system := s.system.step e
  records url := (s.records url).next s.system e url

/-- A trigger on an endpoint whose latest cooldown has ended, and that has been checked since, starts the
backoff afresh: it takes effect and sets a first cooldown. -/
def Restarts (s : Recorded M) (e : RoundEvent) : Prop :=
  ∀ url, s.system.triggersAt e url = true → (s.records url).verified = true →
    s.system.cools e url = true ∧ ∃ v ∈ (s.system.step e).world.lb.vitals url,
      v.cooldownUntil = some (s.system.clock + nanosPerSec *
        min s.system.world.lb.maxCooldownSecs (2 * s.system.world.lb.baseCooldownSecs))

/-- Where a trigger happens on such an endpoint, the cooldowns recorded do not show in the length, and
the length of a first cooldown fits the clock. -/
def Unshown (s : Recorded M) (e : RoundEvent) : Prop :=
  ∀ url, s.system.triggersAt e url = true → (s.records url).verified = true →
    BackoffStarts (s.records url).triggered s.system.world.lb.baseCooldownSecs
        s.system.world.lb.maxCooldownSecs ∧
      (Instant.checkedAddSecs s.system.clock (min s.system.world.lb.maxCooldownSecs
        (2 * s.system.world.lb.baseCooldownSecs))).isSome

/-- Only listed endpoints are in question. -/
instance (s : Recorded M) (e : RoundEvent) : Decidable (s.Unshown e) :=
  decidable_of_iff (∀ url ∈ s.system.world.urls, s.system.triggersAt e url = true →
      (s.records url).verified = true → _)
    ⟨fun h url ht => h url (mem_urls_of_triggersAt ht) ht, fun h url _ => h url⟩

/-- The attempts are the cooldowns recorded, up to saturation. -/
structure Sound (s : Recorded M) : Prop where
  system : s.system.Sound
  attempts : ∀ url v, s.system.world.lb.vitals url = some v →
    v.cooldownAttempts = min u32Max (s.records url).triggered

variable {s : Recorded M}

/-- **Every event counts what it triggers.** -/
theorem sound_step (h : s.Sound) (e : RoundEvent) : (s.step e).Sound := by
  refine ⟨sound_roundStep h.system e, fun url v' hv' => ?_⟩
  show v'.cooldownAttempts = min u32Max ((s.records url).next s.system e url).triggered
  rw [BackoffRecord.next_triggered]
  change (s.system.step e).world.lb.vitals url = some v' at hv'
  rw [vitals_eventAt h.system e url] at hv'
  obtain ⟨v, hv, rfl⟩ := Option.map_eq_some_iff.mp hv'
  have hatt := h.attempts url v hv
  unfold RoundSystem.triggersAt RoundSystem.recoversAt
  rw [hv]
  cases hx : s.system.eventAt e url with
  | none => exact hatt
  | some x =>
      show (v.step _ _ x).1.cooldownAttempts =
        min u32Max (if v.triggers x then _ else if v.recovers x then 0 else _)
      rcases Vitals.step_cases s.system.world.lb.baseCooldownSecs s.system.world.lb.maxCooldownSecs v x
        with ⟨ht, -, b, -, hstep⟩ | ⟨ht, hr, hstep⟩ | ⟨ht, hr, hstep⟩
      · obtain ⟨hcount, -⟩ := Vitals.trigger_spec s.system.world.lb.baseCooldownSecs
          s.system.world.lb.maxCooldownSecs x.now { v with healthy := b }
        rw [hstep, hcount, ht, if_pos rfl]
        show saturatingAdd32 v.cooldownAttempts 1 = _
        rw [hatt]
        exact saturatingAdd32_one_of_min _
      · rw [hstep, ht, hr]
        rfl
      · rw [hstep, ht, hr]
        exact hatt

/-- **A trigger starts the backoff afresh exactly if the cooldowns recorded do not show.** -/
theorem restarts_iff (h : s.Sound) (e : RoundEvent) : s.Restarts e ↔ s.Unshown e := by
  apply forall_congr'
  intro url
  apply imp_congr_right
  intro htriggers
  apply imp_congr_right
  intro _
  rw [← checkedAddSecs_eq_first_iff]
  obtain ⟨v, hv⟩ := exists_vitals_of_triggersAt htriggers
  rw [cools_until_iff h.system hv htriggers, h.attempts url v hv, saturatingAdd32_one_of_min]

/-- Startup has triggered nothing. -/
theorem sound_start {P : Platform} {config : Option Config} {path : String} {now : Instant}
    {w : World M} (h : LoadBalancer.new M P.toLowercase config path now = some w) :
    (start w now).Sound := by
  obtain ⟨-, -, c, -, -, -, hstart⟩ := started_of_new h
  refine ⟨⟨hstart.wellFormed, fun _ _ _ hphase => by cases hphase⟩, fun url v hv => ?_⟩
  rw [vitals_of_new h hv]
  rfl

end Recorded

/-- **The backoff goes on.** A 429, a health check that succeeds after the cooldown's end, and another
429: its cooldown is that of a second attempt.
Source: `balancer.rs` `mark_rate_limited`; `utils/health.rs` `perform_health_checks` -/
theorem backoff_continues : ¬ ∀ (config : Option Config) (path : String) (now : Instant)
    (w : World leakyBucket) (events : List RoundEvent),
    LoadBalancer.new leakyBucket samplePlatform.toLowercase config path now = some w →
      Runs.Along Recorded.step Recorded.Restarts (Recorded.start w now) events := by
  intro h
  have halong := h _ _ _ sampleWorld [.markRateLimited "http://a", .advanceClock 7000000000,
    .startRound, .completeProbe "http://a" true, .applyResults, .finishRound,
    .markRateLimited "http://a"] new_sampleWorld
  obtain ⟨-, -, -, -, -, -, hrestarts, -⟩ := halong
  obtain ⟨-, v, hv, huntil⟩ := hrestarts "http://a" (by decide) (by decide)
  have hafter : ((RoundSystem.run ⟨sampleWorld, 0, .idle⟩ [.markRateLimited "http://a",
      .advanceClock 7000000000, .startRound, .completeProbe "http://a" true, .applyResults,
      .finishRound, .markRateLimited "http://a"]).world.lb.vitals "http://a").map
        Vitals.cooldownUntil = some (some 19000000000) := by decide
  obtain ⟨v', hv', hlate⟩ := Option.map_eq_some_iff.mp hafter
  have hsame : v = v' := Option.some.inj (hv.symm.trans hv')
  rw [hsame, hlate] at huntil
  revert huntil
  decide

/-- **When the backoff starts afresh.** From startup, in every run of health rounds, marks, outcomes of
requests and time, every trigger on an endpoint whose latest cooldown has ended and which a health check
begun after that has found healthy sets a first cooldown, exactly if at each of them the cooldowns since
startup or the last recovery do not show in the length, and the length fits the clock.
Source: `utils/cooldown.rs` `trigger_cooldown`; `balancer.rs` `mark_rate_limited`,
`mark_unhealthy`; `utils/health.rs` `perform_health_checks` -/
theorem backoff_restarts_iff {P : Platform} {config : Option Config} {path : String} {now : Instant}
    {w : World M} (h : LoadBalancer.new M P.toLowercase config path now = some w)
    (events : List RoundEvent) :
    Runs.Along Recorded.step Recorded.Restarts (Recorded.start w now) events ↔
      Runs.Along Recorded.step Recorded.Unshown (Recorded.start w now) events :=
  Runs.along_congr Recorded.Sound (fun _ e _ hs => Recorded.sound_step hs e)
    (fun _ e _ hs => Recorded.restarts_iff hs e) (fun _ _ => trivial) (Recorded.sound_start h)

/-- `backoff_restarts_iff` for a failure, a recovery after the cooldown's end, and a 429. -/
theorem backoff_restarts_iff_sample :
    Runs.Along Recorded.step Recorded.Restarts (Recorded.start sampleWorld 0)
      [.markUnhealthy "http://a", .advanceClock 7000000000, .startRound,
        .completeProbe "http://a" true, .applyResults, .finishRound, .markRateLimited "http://a"] := by
  apply (backoff_restarts_iff new_sampleWorld _).mpr
  decide

end AzothBalancer
