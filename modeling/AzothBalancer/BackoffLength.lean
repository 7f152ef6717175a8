import AzothBalancer.Backoff
import AzothBalancer.System

/-!
# The length of a cooldown

`trigger_cooldown` takes `2u64.pow(attempts)`. The power wraps around, to zero from the 64th attempt on,
and a 429 counts an attempt whether or not the endpoint is in cooldown already.

* `backoffLength` — the length the backoff stands for, over the natural numbers.
* `cooldownDuration_eq_backoffLength_iff` — when the machine's length is that one (`PowerFits`).
* `BackoffSystem` — health rounds, marks, requests and time beside reloads in flight, with the cooldowns
  triggered on every URL since its attempts were last zero.
* `backoff_exact_iff` — every trigger sets a cooldown of the exact length exactly if the power fits at
  each; without reloads, if each is one of the first 63. `backoff_collapses` is a run up to the 64th.
-/

namespace AzothBalancer

variable {M : Meter}

/-! ## The length -/

section length

variable {base max_ attempts k : ℕ}

/-- The length of the `k`-th cooldown in a row, in seconds. -/
def backoffLength (base max_ k : ℕ) : ℕ := min max_ (base * 2 ^ k)

/-- The backoff never gets shorter. -/
theorem backoffLength_mono (base max_ : ℕ) : Monotone (backoffLength base max_) := by
  intro k k' hk
  exact min_le_min_left _ (Nat.mul_le_mul_left _ (Nat.pow_le_pow_right Nat.two_pos hk))

/-- The backoff is not empty, unless it is bounded by zero or starts there. -/
theorem backoffLength_pos (hbase : 0 < base) (hmax : 0 < max_) (k : ℕ) :
    0 < backoffLength base max_ k :=
  lt_min hmax (Nat.mul_pos hbase (Nat.two_pow_pos k))

/-- The cooldown after `attempts` counted ones has the length of the `k`-th: the power does not wrap
around, and it is the `k`-th one or both reach the cap. -/
def PowerFits (attempts k base max_ : ℕ) : Prop :=
  base = 0 ∨ max_ = 0 ∨
    (attempts < 63 ∧ (attempts + 1 = k ∨ max_ ≤ base * 2 ^ min (attempts + 1) k))

instance (attempts k base max_ : ℕ) : Decidable (PowerFits attempts k base max_) :=
  inferInstanceAs (Decidable (_ ∨ _ ∨ _))

/-- Where the backoffs of two attempts agree. -/
theorem backoffLength_eq_iff (hbase : 0 < base) {j k : ℕ} :
    backoffLength base max_ j = backoffLength base max_ k ↔ j = k ∨ max_ ≤ base * 2 ^ min j k := by
  have hpow : ∀ {i j : ℕ}, i < j → base * 2 ^ i < base * 2 ^ j := fun h =>
    Nat.mul_lt_mul_of_pos_left (Nat.pow_lt_pow_right (by decide) h) hbase
  unfold backoffLength
  rcases lt_trichotomy j k with hlt | rfl | hlt
  · have hstep := hpow hlt
    rw [min_eq_left hlt.le]
    omega
  · simp
  · have hstep := hpow hlt
    rw [min_eq_right hlt.le]
    omega

/-- **When the machine's length is the exact one**, for a cap that fits the clock.
Source: `utils/cooldown.rs` `trigger_cooldown` -/
theorem cooldownDuration_eq_backoffLength_iff (hmax : max_ < 2 ^ 63) :
    cooldownDuration (saturatingAdd32 attempts 1) base max_ = backoffLength base max_ k ↔
      PowerFits attempts k base max_ := by
  have hu32 : u32Max = 2 ^ 32 - 1 := rfl
  have hu64 : u64Max = 2 ^ 64 - 1 := rfl
  unfold PowerFits
  rcases Nat.eq_zero_or_pos base with hbase | hbase
  · subst hbase
    simp [cooldownDuration, saturatingMul64, backoffLength]
  by_cases hatt : attempts < 63
  · have hsat : saturatingAdd32 attempts 1 = attempts + 1 := by
      unfold saturatingAdd32
      omega
    have hlength : cooldownDuration (attempts + 1) base max_ = backoffLength base max_ (attempts + 1) := by
      rw [cooldownDuration_of_le (by omega)]
      unfold backoffLength
      omega
    rw [hsat, hlength, backoffLength_eq_iff hbase]
    constructor
    · exact fun h => .inr (.inr ⟨hatt, h⟩)
    · rintro (h | h | ⟨-, h⟩)
      · omega
      · exact .inr (h ▸ Nat.zero_le _)
      · exact h
  · have hwrapped : 64 ≤ saturatingAdd32 attempts 1 := by
      unfold saturatingAdd32
      omega
    have hpos := fun hmax : 0 < max_ => backoffLength_pos hbase hmax k
    rw [cooldownDuration_of_wrapped hwrapped]
    constructor
    · intro h
      by_contra hno
      have hlt := hpos (by omega)
      omega
    · rintro (h | h | ⟨h, -⟩)
      · omega
      · subst h
        exact (Nat.zero_min _).symm
      · exact absurd h hatt

end length

/-! ## Runs with reloads in flight -/

/-- The attempts counted on the endpoint under a URL. -/
def World.attemptsAt (w : World M) (url : String) : ℕ :=
  ((w.lb.vitals url).map Vitals.cooldownAttempts).getD 0

/-- The balancer with its health loop, its clock and the reloads in flight, and for every URL the
cooldowns triggered since its attempts were last zero. -/
structure BackoffSystem (M : Meter) where
  rounds : RoundSystem M
  reloads : List ReloadCall
  since : String → ℕ

/-- What happens to it: a part of a health round, a mark, the outcome of a request or time; a selection;
a part of a reload. -/
inductive BackoffEvent where
  | round (e : RoundEvent)
  | getNextEndpoint (batchSize : ℕ) (clock : Clock)
  | startReload (read : String → ReadResult)
  | reloadSection (i : ℕ)

/-- The event is not part of a reload. -/
def BackoffEvent.isRequest : BackoffEvent → Bool
  | .round _ | .getNextEndpoint _ _ => true
  | _ => false

namespace BackoffSystem

/-- From a startup in `w` on. -/
def start (w : World M) (clock : Instant) : BackoffSystem M := ⟨⟨w, clock, .idle⟩, [], fun _ => 0⟩

/-- The world and the reloads in flight. -/
def system (s : BackoffSystem M) : System M := ⟨s.rounds.world, s.reloads⟩

/-- The event calls `trigger_cooldown` on the endpoint under `url`. -/
def triggersAt (s : BackoffSystem M) (e : BackoffEvent) (url : String) : Bool :=
  match e with
  | .round e => s.rounds.triggersAt e url
  | _ => false

/-- The cooldowns triggered since the attempts were last zero, after an event that led to `w`. -/
def tally (s : BackoffSystem M) (e : BackoffEvent) (w : World M) (url : String) : ℕ :=
  if s.triggersAt e url then s.since url + 1 else if w.attemptsAt url = 0 then 0 else s.since url

/-- One event. -/
def step (P : Platform) (s : BackoffSystem M) (e : BackoffEvent) : BackoffSystem M :=
  match e with
  | .round x => ⟨s.rounds.step x, s.reloads, s.tally e (s.rounds.step x).world⟩
  | .getNextEndpoint batchSize clock =>
      let next := s.system.step P (.operation (.getNextEndpoint batchSize clock))
      ⟨{ s.rounds with world := next.world }, next.reloads, s.tally e next.world⟩
  | .startReload read =>
      let next := s.system.step P (.startReload read s.rounds.clock)
      ⟨{ s.rounds with world := next.world }, next.reloads, s.tally e next.world⟩
  | .reloadSection i =>
      let next := s.system.step P (.reloadSection i)
      ⟨{ s.rounds with world := next.world }, next.reloads, s.tally e next.world⟩

/-- Every cooldown the event triggers, where the cap fits the clock, does not panic and ends after exactly
the length of its number in the row; if the bounds are not zero, the endpoint is unavailable. -/
def Exact (P : Platform) (s : BackoffSystem M) : BackoffEvent → Prop
  | .round e => ∀ url, s.rounds.triggersAt e url = true →
      (Instant.checkedAddSecs s.rounds.clock s.rounds.world.lb.maxCooldownSecs).isSome →
      s.rounds.cools e url = true ∧ ∃ ep ∈ (s.step P (.round e)).rounds.world.lb.endpoint? url,
        ep.cooldownUntil = some (s.rounds.clock + nanosPerSec * backoffLength
          s.rounds.world.lb.baseCooldownSecs s.rounds.world.lb.maxCooldownSecs (s.since url + 1)) ∧
        (0 < s.rounds.world.lb.baseCooldownSecs → 0 < s.rounds.world.lb.maxCooldownSecs →
          ep.isAvailable s.rounds.clock = false)
  | _ => True

/-- `C` holds of every cooldown the event triggers where the cap fits the clock. -/
def AtTriggers (C : BackoffSystem M → String → Prop) (s : BackoffSystem M) (e : BackoffEvent) : Prop :=
  ∀ url, s.triggersAt e url = true →
    (Instant.checkedAddSecs s.rounds.clock s.rounds.world.lb.maxCooldownSecs).isSome → C s url

/-- The power fits. -/
def Fits (s : BackoffSystem M) (url : String) : Prop :=
  PowerFits (s.rounds.world.attemptsAt url) (s.since url + 1) s.rounds.world.lb.baseCooldownSecs
    s.rounds.world.lb.maxCooldownSecs

/-- The trigger is one of the first 63 in a row, or it is bounded by zero or starts there. -/
def Early (s : BackoffSystem M) (url : String) : Prop :=
  s.rounds.world.lb.baseCooldownSecs = 0 ∨ s.rounds.world.lb.maxCooldownSecs = 0 ∨
    s.since url + 1 ≤ 63

instance (s : BackoffSystem M) (url : String) : Decidable (s.Early url) :=
  inferInstanceAs (Decidable (_ ∨ _ ∨ _))

/-- URLs are distinct, and so is what reloads publish. -/
structure Sound (s : BackoffSystem M) : Prop where
  rounds : s.rounds.Sound
  system : s.system.Sound

variable {P : Platform} {s : BackoffSystem M}

/-- A trigger is on a listed endpoint. -/
theorem mem_urls_of_triggersAt {e : BackoffEvent} {url : String} (h : s.triggersAt e url = true) :
    url ∈ s.rounds.world.urls := by
  cases e with
  | round e => exact AzothBalancer.mem_urls_of_triggersAt h
  | _ => cases h

/-- Only listed endpoints are in question. -/
instance {C : BackoffSystem M → String → Prop} [∀ s url, Decidable (C s url)] (s : BackoffSystem M)
    (e : BackoffEvent) : Decidable (AtTriggers C s e) :=
  decidable_of_iff (∀ url ∈ s.rounds.world.urls, s.triggersAt e url = true → _ → C s url)
    ⟨fun h url ht => h url (mem_urls_of_triggersAt ht) ht, fun h url _ => h url⟩

/-- Health rounds do not depend on what a sound step makes of the world. -/
theorem Sound.withWorld {next : System M} {since : String → ℕ} (h : s.rounds.Sound) (hnext : next.Sound) :
    Sound ⟨{ s.rounds with world := next.world }, next.reloads, since⟩ :=
  ⟨⟨hnext.world, h.round⟩, hnext⟩

/-- **Every event keeps the system sound.** -/
theorem sound_step (h : s.Sound) (e : BackoffEvent) : (s.step P e).Sound := by
  cases e with
  | round e =>
      have hk := keeps_roundStep s.rounds e
      refine ⟨sound_roundStep h.rounds e, hk.wellFormed h.system.world, h.system.settings, ?_⟩
      exact fun call hcall => (h.system.frames call hcall).mono hk.grows
  | getNextEndpoint batchSize clock =>
      exact .withWorld h.rounds (AzothBalancer.sound_step P _ h.system)
  | startReload read => exact .withWorld h.rounds (AzothBalancer.sound_step P _ h.system)
  | reloadSection i => exact .withWorld h.rounds (AzothBalancer.sound_step P _ h.system)

/-- Startup is sound. -/
theorem sound_start {config : Option Config} {path : String} {now : Instant} {w : World M}
    (h : LoadBalancer.new M P.toLowercase config path now = some w) : (start w now).Sound := by
  obtain ⟨-, -, c, -, -, -, hstart⟩ := started_of_new h
  exact ⟨⟨hstart.wellFormed, fun _ _ _ hphase => by cases hphase⟩, hstart.wellFormed,
    fun _ hcall => by simp [start, system] at hcall, fun _ hcall => by simp [start, system] at hcall⟩

/-- After a trigger with a positive length, the endpoint is unavailable. -/
theorem isAvailable_of_backoff {ep : RpcEndpoint} {base max_ k : ℕ} {now : Instant}
    (h : ep.cooldownUntil = some (now + nanosPerSec * backoffLength base max_ k)) (hbase : 0 < base)
    (hmax : 0 < max_) : ep.isAvailable now = false := by
  have hpos : 0 < nanosPerSec * backoffLength base max_ k :=
    Nat.mul_pos (by decide) (backoffLength_pos hbase hmax k)
  have hrunning : ep.isInCooldown now = true := by
    unfold RpcEndpoint.isInCooldown
    rw [h]
    exact decide_eq_true (Nat.lt_add_of_pos_right hpos)
  unfold RpcEndpoint.isAvailable
  rw [hrunning]
  exact Bool.and_false _

/-- **The cooldowns an event triggers are exact exactly if the power fits.** -/
theorem exact_iff (h : s.Sound) (e : BackoffEvent) : s.Exact P e ↔ AtTriggers Fits s e := by
  cases e with
  | round e =>
      apply forall_congr'
      intro url
      apply imp_congr_right
      intro htriggers
      apply imp_congr_right
      intro hcap
      have hmax := Instant.lt_of_checkedAddSecs hcap
      have hfits : (Instant.checkedAddSecs s.rounds.clock (backoffLength
          s.rounds.world.lb.baseCooldownSecs s.rounds.world.lb.maxCooldownSecs (s.since url + 1))).isSome := by
        have hle : backoffLength s.rounds.world.lb.baseCooldownSecs s.rounds.world.lb.maxCooldownSecs
            (s.since url + 1) ≤ s.rounds.world.lb.maxCooldownSecs := min_le_left _ _
        rw [Instant.checkedAddSecs_of_le hle hcap]
        rfl
      obtain ⟨v, hv⟩ := exists_vitals_of_triggersAt htriggers
      have hatt : s.rounds.world.attemptsAt url = v.cooldownAttempts := by
        unfold World.attemptsAt
        rw [hv]
        rfl
      have hends := fun until_ => cools_until_iff h.rounds hv htriggers until_
      unfold Fits
      rw [hatt, ← cooldownDuration_eq_backoffLength_iff hmax]
      constructor
      · rintro ⟨hcools, ep, hep, huntil, -⟩
        have hvit := vitals_of_endpoint? hep
        have hend := (hends _).mp ⟨hcools, ep.vitals, hvit, huntil⟩
        exact (Instant.checkedAddSecs_eq_some_iff.mp hend).1
      · intro hlength
        obtain ⟨hcools, v', hv', huntil⟩ :=
          (hends _).mpr (Instant.checkedAddSecs_eq_some_iff.mpr ⟨hlength, hfits⟩)
        obtain ⟨ep, hep, rfl⟩ := Option.map_eq_some_iff.mp hv'
        exact ⟨hcools, ep, hep, huntil, isAvailable_of_backoff huntil⟩
  | getNextEndpoint batchSize clock => exact iff_of_true trivial fun _ ht => by cases ht
  | startReload read => exact iff_of_true trivial fun _ ht => by cases ht
  | reloadSection i => exact iff_of_true trivial fun _ ht => by cases ht

end BackoffSystem

/-! ## Runs without reloads -/

namespace BackoffSystem

variable {P : Platform} {s : BackoffSystem M}

/-- The attempts are the cooldowns triggered, up to saturation. -/
def Counted (s : BackoffSystem M) : Prop :=
  ∀ url ∈ s.rounds.world.urls, s.rounds.world.attemptsAt url = min u32Max (s.since url)

/-- A listed URL has vitals. -/
theorem exists_vitals_of_mem {w : World M} {url : String} (h : url ∈ w.urls) :
    ∃ v, w.lb.vitals url = some v ∧ w.attemptsAt url = v.cooldownAttempts := by
  obtain ⟨ep, hep⟩ := KeyedList.exists_lookup h
  have hv : w.lb.vitals url = some ep.vitals := vitals_of_endpoint? hep
  refine ⟨ep.vitals, hv, ?_⟩
  unfold World.attemptsAt
  rw [hv]
  rfl

/-- The tally of an event that leaves the attempts of a URL as they are. -/
theorem tally_of_same {e : BackoffEvent} {w : World M} {url : String}
    (htriggers : s.triggersAt e url = false)
    (hsame : w.attemptsAt url = s.rounds.world.attemptsAt url)
    (h : s.rounds.world.attemptsAt url = min u32Max (s.since url)) :
    w.attemptsAt url = min u32Max (s.tally e w url) := by
  unfold tally
  rw [hsame, htriggers, if_neg Bool.false_ne_true]
  split
  · rename_i hzero
    exact hzero
  · exact h

/-- **A part of a round, or a mark, counts what it triggers.** -/
theorem counted_round (hs : s.Sound) (h : s.Counted) (e : RoundEvent) {url : String}
    (hurl : url ∈ s.rounds.world.urls) : (s.rounds.step e).world.attemptsAt url =
      min u32Max (s.tally (.round e) (s.rounds.step e).world url) := by
  obtain ⟨v, hv, hatt⟩ := exists_vitals_of_mem hurl
  have hcount := h url hurl
  have hattempts : (s.rounds.step e).world.attemptsAt url =
      (s.rounds.receive (s.rounds.eventAt e url) v).cooldownAttempts := by
    unfold World.attemptsAt
    rw [vitals_eventAt hs.rounds e url, hv]
    rfl
  rcases hx : s.rounds.eventAt e url with _ | x
  · have htriggers : s.triggersAt (.round e) url = false := by
      simp [triggersAt, RoundSystem.triggersAt, hv, hx]
    apply tally_of_same htriggers _ hcount
    rw [hattempts, hx, hatt]
    rfl
  · have htriggers : s.triggersAt (.round e) url = v.triggers x := by
      simp [triggersAt, RoundSystem.triggersAt, hv, hx]
    rw [hx] at hattempts
    change _ = (v.step _ _ x).1.cooldownAttempts at hattempts
    rcases Vitals.step_cases s.rounds.world.lb.baseCooldownSecs s.rounds.world.lb.maxCooldownSecs v x
      with ⟨ht, -, b, -, hstep⟩ | ⟨ht, -, hstep⟩ | ⟨ht, -, hstep⟩
    · obtain ⟨hone, -⟩ := Vitals.trigger_spec s.rounds.world.lb.baseCooldownSecs
        s.rounds.world.lb.maxCooldownSecs x.now { v with healthy := b }
      unfold tally
      rw [hattempts, hstep, hone, htriggers, ht, if_pos rfl]
      show saturatingAdd32 v.cooldownAttempts 1 = _
      rw [← hatt, hcount]
      exact saturatingAdd32_one_of_min _
    · rw [hstep] at hattempts
      change _ = 0 at hattempts
      unfold tally
      rw [htriggers, ht, if_neg Bool.false_ne_true, if_pos hattempts, hattempts]
      exact (Nat.min_zero _).symm
    · apply tally_of_same (htriggers.trans ht) _ hcount
      rw [hattempts, hstep, hatt]

/-- **Every event but those of a reload counts what it triggers.** A selection triggers nothing. -/
theorem counted_step (hs : s.Sound) (h : s.Counted) {e : BackoffEvent} (he : e.isRequest = true) :
    (s.step P e).Counted := by
  intro url hurl
  cases e with
  | round e =>
      have hurls : (s.rounds.step e).world.urls = s.rounds.world.urls :=
        (keeps_roundStep s.rounds e).urls
      exact counted_round hs h e (hurls ▸ hurl)
  | getNextEndpoint batchSize clock =>
      have hurls : (s.rounds.world.exec (.getNextEndpoint batchSize clock)).1.urls =
          s.rounds.world.urls := (keeps_exec s.rounds.world _).urls
      have hvit : (s.rounds.world.exec (.getNextEndpoint batchSize clock)).1.lb.vitals =
          s.rounds.world.lb.vitals := congrArg Prod.fst (exec_refines s.rounds.world _)
      have hsame : (s.rounds.world.exec (.getNextEndpoint batchSize clock)).1.attemptsAt url =
          s.rounds.world.attemptsAt url := by
        unfold World.attemptsAt
        rw [hvit]
      have hquiet : s.triggersAt (.getNextEndpoint batchSize clock) url = false := rfl
      exact tally_of_same hquiet hsame (h url (hurls ▸ hurl))
  | startReload read => cases he
  | reloadSection i => cases he

/-- Startup has triggered nothing. -/
theorem counted_start {config : Option Config} {path : String} {now : Instant} {w : World M}
    (h : LoadBalancer.new M P.toLowercase config path now = some w) : (start w now).Counted := by
  intro url hurl
  obtain ⟨v, hv, hatt⟩ := exists_vitals_of_mem hurl
  rw [hatt, vitals_of_new h hv]
  exact (Nat.min_zero _).symm

/-- Where the attempts are the cooldowns triggered, the power fits exactly for the first 63. -/
theorem fits_iff_early (h : s.Counted) {url : String} (hurl : url ∈ s.rounds.world.urls) :
    s.Fits url ↔ s.Early url := by
  have hu32 : u32Max = 2 ^ 32 - 1 := rfl
  unfold Fits Early PowerFits
  rw [h url hurl]
  constructor
  · rintro (hbase | hmax | ⟨hlt, -⟩)
    · exact .inl hbase
    · exact .inr (.inl hmax)
    · exact .inr (.inr (by omega))
  · rintro (hbase | hmax | hle)
    · exact .inl hbase
    · exact .inr (.inl hmax)
    · exact .inr (.inr ⟨by omega, .inl (by omega)⟩)

end BackoffSystem

/-! ## Exact runs -/

/-- **When the backoff is exact.** From startup, in every run of health rounds, marks, requests and time
beside reloads in flight, every trigger for which the cap fits the clock sets, without a panic, a cooldown
of exactly its length over the natural numbers, exactly if at each the power of the attempts counted fits:
at most 63 are counted with it, and they are the cooldowns triggered since the attempts were last zero, or
both lengths are the cap; or a bound is zero. In runs without reloads the attempts are those cooldowns, and
the condition is that each trigger is one of the first 63, or a bound is zero. The exact length does not
decrease from one to the next.
Source: `utils/cooldown.rs` `trigger_cooldown`; `balancer.rs` `mark_rate_limited`,
`mark_unhealthy`; `utils/health.rs` `perform_health_checks` -/
theorem backoff_exact_iff {P : Platform} {config : Option Config} {path : String} {now : Instant}
    {w : World M} (h : LoadBalancer.new M P.toLowercase config path now = some w)
    (events : List BackoffEvent) :
    (Runs.Along (BackoffSystem.step P) (BackoffSystem.Exact P) (.start w now) events ↔
      Runs.Along (BackoffSystem.step P) (BackoffSystem.AtTriggers BackoffSystem.Fits)
        (.start w now) events) ∧
    ((∀ e ∈ events, e.isRequest = true) →
      (Runs.Along (BackoffSystem.step P) (BackoffSystem.Exact P) (.start w now) events ↔
        Runs.Along (BackoffSystem.step P) (BackoffSystem.AtTriggers BackoffSystem.Early)
          (.start w now) events)) ∧
    ∀ base max_, Monotone (backoffLength base max_) := by
  have hstart : (BackoffSystem.start w now).Sound := BackoffSystem.sound_start h
  refine ⟨?_, fun hrequests => ?_, backoffLength_mono⟩
  · exact Runs.along_congr BackoffSystem.Sound (fun _ e _ hs => BackoffSystem.sound_step hs e)
      (fun _ e _ hs => BackoffSystem.exact_iff hs e) (fun _ _ => trivial) hstart
  · refine Runs.along_congr (fun s => BackoffSystem.Sound s ∧ BackoffSystem.Counted s)
      (fun _ e he hs => ⟨BackoffSystem.sound_step hs.1 e, BackoffSystem.counted_step hs.1 hs.2 he⟩)
      (fun s e _ hs => ?_) hrequests ⟨hstart, BackoffSystem.counted_start h⟩
    rw [BackoffSystem.exact_iff hs.1]
    apply forall_congr'
    intro url
    apply imp_congr_right
    intro htriggers
    apply imp_congr_right
    intro _
    exact BackoffSystem.fits_iff_early hs.2 (BackoffSystem.mem_urls_of_triggersAt htriggers)

/-- `backoff_exact_iff` for two 429s and a failure. -/
theorem backoff_exact_iff_sample :
    Runs.Along (BackoffSystem.step samplePlatform) (BackoffSystem.Exact samplePlatform)
      (.start sampleWorld 0) [.round (.markRateLimited "http://a"), .round (.markRateLimited "http://a"),
        .round (.advanceClock 5), .round (.markUnhealthy "http://a")] := by
  have hiff := (backoff_exact_iff new_sampleWorld [.round (.markRateLimited "http://a"),
    .round (.markRateLimited "http://a"), .round (.advanceClock 5),
    .round (.markUnhealthy "http://a")]).2.1 (by simp [BackoffEvent.isRequest])
  apply hiff.mpr
  decide

/-! ## The collapse -/

section collapse

variable {P : Platform} {s : BackoffSystem M} {url : String}

/-- A 429 triggers a cooldown on a listed endpoint. -/
theorem BackoffSystem.triggersAt_markRateLimited (h : url ∈ s.rounds.world.urls) :
    s.triggersAt (.round (.markRateLimited url)) url = true := by
  obtain ⟨v, hv, -⟩ := BackoffSystem.exists_vitals_of_mem h
  simp [BackoffSystem.triggersAt, RoundSystem.triggersAt, RoundSystem.eventAt, hv, Vitals.triggers]

/-- **Every 429 of a row is counted**, and leaves the list, the bounds and the clock as they are. -/
theorem BackoffSystem.run_markRateLimited (P : Platform) (n : ℕ) (h : url ∈ s.rounds.world.urls) :
    let s' := Runs.run (BackoffSystem.step P) s (List.replicate n (.round (.markRateLimited url)))
    s'.since url = s.since url + n ∧ s'.rounds.world.urls = s.rounds.world.urls ∧
      s'.rounds.world.lb.baseCooldownSecs = s.rounds.world.lb.baseCooldownSecs ∧
      s'.rounds.world.lb.maxCooldownSecs = s.rounds.world.lb.maxCooldownSecs ∧
      s'.rounds.clock = s.rounds.clock := by
  induction n generalizing s with
  | zero => exact ⟨rfl, rfl, rfl, rfl, rfl⟩
  | succ n ih =>
      have hk := keeps_roundStep s.rounds (.markRateLimited url)
      have hurls : (s.step P (.round (.markRateLimited url))).rounds.world.urls = s.rounds.world.urls :=
        hk.urls
      have hone : (s.step P (.round (.markRateLimited url))).since url = s.since url + 1 := by
        show s.tally _ _ url = _
        unfold BackoffSystem.tally
        rw [if_pos (BackoffSystem.triggersAt_markRateLimited h)]
      obtain ⟨hsince, hlist, hbase, hmax, hclock⟩ := ih (hurls ▸ h)
      refine ⟨?_, hlist.trans hurls, hbase.trans hk.bounds.1, hmax.trans hk.bounds.2, hclock⟩
      rw [List.replicate_succ, Runs.run_cons, hsince, hone]
      omega

/-- **A row of 429s with exact cooldowns ends with the 63rd**, unless a bound is zero. -/
theorem BackoffSystem.early_of_exact_row {config : Option Config} {path : String} {now : Instant}
    {w : World M} (hnew : LoadBalancer.new M P.toLowercase config path now = some w)
    (hurl : url ∈ w.urls) (hcap : (Instant.checkedAddSecs now w.lb.maxCooldownSecs).isSome) (n : ℕ)
    (h : Runs.Along (BackoffSystem.step P) (BackoffSystem.Exact P) (.start w now)
      (List.replicate n (.round (.markRateLimited url)) ++ [.round (.markRateLimited url)])) :
    w.lb.baseCooldownSecs = 0 ∨ w.lb.maxCooldownSecs = 0 ∨ n + 1 ≤ 63 := by
  obtain ⟨-, hexact, -⟩ := Runs.along_append.mp h
  obtain ⟨hsince, hurls, hbase, hmax, hclock⟩ :=
    BackoffSystem.run_markRateLimited P n (show url ∈ (BackoffSystem.start w now).rounds.world.urls from hurl)
  have hrow : ∀ e ∈ List.replicate n (BackoffEvent.round (.markRateLimited url)), e.isRequest = true := by
    intro e he
    rw [List.eq_of_mem_replicate he]
    rfl
  obtain ⟨hsound, hcounted⟩ := Runs.invariant (fun s => BackoffSystem.Sound s ∧ BackoffSystem.Counted s)
    (fun e => e.isRequest = true)
    (fun _ e he hs => ⟨BackoffSystem.sound_step hs.1 e, BackoffSystem.counted_step hs.1 hs.2 he⟩)
    hrow ⟨BackoffSystem.sound_start hnew, BackoffSystem.counted_start hnew⟩
  have hlisted := hurls.symm ▸ hurl
  have hfits := (BackoffSystem.exact_iff hsound _).mp hexact url
    (BackoffSystem.triggersAt_markRateLimited hlisted) (by rw [hclock, hmax]; exact hcap)
  have hearly := (BackoffSystem.fits_iff_early hcounted hlisted).mp hfits
  unfold BackoffSystem.Early at hearly
  rw [hbase, hmax, hsince] at hearly
  simpa [BackoffSystem.start] using hearly

end collapse

/-- **The 64th 429 in a row sets no cooldown of its length.**
Source: `utils/cooldown.rs` `trigger_cooldown`; `balancer.rs` `mark_rate_limited` -/
theorem backoff_collapses : ¬ ∀ (config : Option Config) (path : String) (now : Instant)
    (w : World leakyBucket) (events : List BackoffEvent),
    LoadBalancer.new leakyBucket samplePlatform.toLowercase config path now = some w →
      Runs.Along (BackoffSystem.step samplePlatform) (BackoffSystem.Exact samplePlatform) (.start w now)
        events := by
  intro h
  have hlisted : "http://a" ∈ sampleWorld.urls := by decide
  have hcap : (Instant.checkedAddSecs 0 sampleWorld.lb.maxCooldownSecs).isSome := by decide
  rcases BackoffSystem.early_of_exact_row new_sampleWorld hlisted hcap 63
    (h _ _ _ sampleWorld _ new_sampleWorld) with hzero | hzero | hearly
  · exact absurd hzero (by decide)
  · exact absurd hzero (by decide)
  · exact absurd hearly (by decide)
end AzothBalancer
