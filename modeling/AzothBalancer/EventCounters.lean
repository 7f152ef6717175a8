import AzothBalancer.Instances
import AzothBalancer.RegistryFrame
import Mathlib.Data.Nat.Cast.Basic

/-!
# The event counters

`COOLDOWNS_TRIGGERED` is documented as the number of times an endpoint was put into cooldown, and
`ALL_ENDPOINTS_RATE_LIMITED` as the number of times no endpoint was available, whether rate limited, in
cooldown or unhealthy. The first is never incremented, and the second only where a scan of the tiers
fails, not where there is no endpoint to scan.

* `World.cooled` — the endpoints an operation puts into cooldown, and `System.timesNone`, the selections
  without result: the events, read off the states of a run;
* `System.EventsCounted` — the two counters show the events;
* `event_counters_iff` — they do exactly if the run puts no endpoint into cooldown and every selection
  finds an available endpoint.
-/

namespace AzothBalancer

variable {M : Meter}

/-! ## The events -/

/-- The URL, if its record satisfies `p` and a trigger takes effect on it. -/
def World.cooledIf (w : World M) (url : String) (p : RpcEndpoint → Bool) (base max_ : ℕ)
    (now : Instant) : List String :=
  match w.lb.endpoint? url with
  | none => []
  | some ep => if p ep && (triggerCooldown ep base max_ now).2.isSome then [url] else []

/-- The endpoints that applying probe results puts into cooldown, in order. -/
def cooledByProbes (base max_ timeoutMs : ℕ) (now : Instant) :
    List (String × Bool) → World M → List String
  | [], _ => []
  | result :: rest, w =>
      w.cooledIf result.1 (fun ep => !result.2 && ep.healthy) base max_ now ++
        match applyProbe base max_ timeoutMs now w result with
        | (_, true) => []
        | (w, false) => cooledByProbes base max_ timeoutMs now rest w

/-- The endpoints an operation puts into cooldown, in order. -/
def World.cooled (w : World M) : Operation → List String
  | .markRateLimited url now =>
      w.cooledIf url (fun _ => true) w.lb.baseCooldownSecs w.lb.maxCooldownSecs now
  | .markUnhealthy url now =>
      w.cooledIf url (fun ep => ep.healthy) w.lb.baseCooldownSecs w.lb.maxCooldownSecs now
  | .applyHealthResults results timeoutMs now =>
      cooledByProbes w.lb.baseCooldownSecs w.lb.maxCooldownSecs timeoutMs now results w
  | _ => []

/-- The endpoints a step of the system puts into cooldown. -/
def System.cooled (s : System M) : SystemEvent → List String
  | .operation op => s.world.cooled op
  | _ => []

/-- How often a run puts an endpoint into cooldown. -/
def System.timesCooled (P : Platform) (url : String) : System M → List SystemEvent → ℕ :=
  Runs.charged (System.step P) fun s e => (s.cooled e).count url

/-- A selection finds no available endpoint. -/
def System.findsNone (s : System M) : SystemEvent → Bool
  | .operation (.getNextEndpoint _ clock) => (availableEndpoints s.world.lb clock.now).isEmpty
  | _ => false

/-- A selection answers nothing. -/
def System.answersNone (s : System M) : SystemEvent → Bool
  | .operation (.getNextEndpoint batchSize clock) =>
      (getNextEndpoint s.world batchSize clock).1.isNone
  | _ => false

/-- How often a selection answers nothing in a run. -/
def System.timesNone (P : Platform) : System M → List SystemEvent → ℕ :=
  Runs.charged (System.step P) fun s e => (s.answersNone e).toNat

/-- The two counters show the events of the run. -/
structure System.EventsCounted (P : Platform) (s : System M) (events : List SystemEvent) : Prop where
  cooldowns : ∀ url, (s.run P events).world.prom.value .cooldownsTriggered [url] =
    s.timesCooled P url events
  exhausted : (s.run P events).world.prom.value .allEndpointsRateLimited [] = s.timesNone P events

/-- The step puts no endpoint into cooldown, and a selection finds an available endpoint. -/
def System.Uneventful (s : System M) (e : SystemEvent) : Prop :=
  s.cooled e = [] ∧ s.findsNone e = false

instance (s : System M) (e : SystemEvent) : Decidable (s.Uneventful e) :=
  inferInstanceAs (Decidable (_ ∧ _))

/-! ## What is counted -/

/-- A selection without available endpoint answers nothing. -/
theorem answersNone_of_findsNone {s : System M} {e : SystemEvent} (h : s.findsNone e) :
    s.answersNone e := by
  unfold System.findsNone at h
  split at h
  · simp [System.answersNone, getNextEndpoint, selectBestEndpoint, h]
  · cases h

/-- **A selection counts itself** if it answers nothing though there are available endpoints.
Source: `strategy.rs` `select_best_endpoint` -/
theorem value_getNextEndpoint (w : World M) (n : ℕ) (clock : Clock) :
    (getNextEndpoint w n clock).2.prom.value .allEndpointsRateLimited [] =
      w.prom.value .allEndpointsRateLimited [] +
        if (getNextEndpoint w n clock).1.isNone ∧ (availableEndpoints w.lb clock.now).isEmpty = false
        then 1 else 0 := by
  have hscan := (writes_scanTiers n clock.now (sortedTiers w clock.now) w).value
    (id : ¬ ScanWrites _ _ .allEndpointsRateLimited [])
  unfold getNextEndpoint selectBestEndpoint
  cases hempty : (availableEndpoints w.lb clock.now).isEmpty with
  | true => simp
  | false =>
      rcases hres : scanTiers n clock.now (sortedTiers w clock.now) w with ⟨_ | ep, w'⟩
      · rw [hres] at hscan
        simp [hscan]
      · rw [hres] at hscan
        simp [hscan]

/-- Cooldowns are not counted. -/
theorem value_cooldownsTriggered (P : Platform) {s : System M} {e : SystemEvent}
    (h : s.RemovesNothing e) (url : String) :
    (s.step P e).world.prom.value .cooldownsTriggered [url] =
      s.world.prom.value .cooldownsTriggered [url] :=
  value_systemStep P h (by decide) [url]

/-- **Of the selections that answer nothing, those that found an endpoint are counted.** -/
theorem value_allEndpointsRateLimited (P : Platform) {s : System M} {e : SystemEvent}
    (h : s.RemovesNothing e) :
    (s.step P e).world.prom.value .allEndpointsRateLimited [] + (s.findsNone e).toNat =
      s.world.prom.value .allEndpointsRateLimited [] + (s.answersNone e).toNat := by
  cases e with
  | startReload read now =>
      rw [value_reloadStep P h (by simp) (by decide)]
      simp [System.findsNone, System.answersNone]
  | reloadSection k =>
      rw [value_reloadStep P h (by simp) (by decide)]
      simp [System.findsNone, System.answersNone]
  | operation op =>
      by_cases hsel : ∃ n clock, op = .getNextEndpoint n clock
      · obtain ⟨n, clock, rfl⟩ := hsel
        have hvalue := value_getNextEndpoint s.world n clock
        have hnone := answersNone_of_findsNone (s := s) (e := .operation (.getNextEndpoint n clock))
        simp only [System.findsNone, System.answersNone] at hnone ⊢
        show (getNextEndpoint s.world n clock).2.prom.value .allEndpointsRateLimited [] + _ = _
        rw [hvalue]
        cases hfinds : (availableEndpoints s.world.lb clock.now).isEmpty with
        | true => simp [hnone hfinds]
        | false => cases (getNextEndpoint s.world n clock).1 <;> simp
      · have hvalue : (s.world.exec op).1.prom.value .allEndpointsRateLimited [] = _ :=
          (writes_exec s.world op).value fun hw => by
            unfold World.OperationWrites at hw
            split at hw
            · exact hsel ⟨_, _, rfl⟩
            · cases hw
            · exact hw
        cases op with
        | getNextEndpoint n clock => exact absurd ⟨n, clock, rfl⟩ hsel
        | _ => simpa [System.step, System.findsNone, System.answersNone] using hvalue

/-! ## The runs in which the counters are right -/

/-- Over a run, likewise. -/
theorem value_allEndpointsRateLimited_run (P : Platform) {s : System M} {events : List SystemEvent}
    (h : Runs.Along (System.step P) System.RemovesNothing s events) :
    (s.run P events).world.prom.value .allEndpointsRateLimited [] +
        Runs.charged (System.step P) (fun s e => (s.findsNone e).toNat) s events =
      s.world.prom.value .allEndpointsRateLimited [] + s.timesNone P events := by
  have hbalance := Runs.balance (fun s : System M => s.world.prom.value .allEndpointsRateLimited [])
    (fun s e he => value_allEndpointsRateLimited P he) h
  have hcast := fun count : System M → SystemEvent → ℕ =>
    Runs.charged_map (Nat.castAddMonoidHom ℤ) (System.step P) count s events
  simp only [Nat.coe_castAddMonoidHom] at hcast
  rw [hcast, hcast] at hbalance
  exact hbalance

/-- **When the event counters are right.** From startup, in every run in which no reload removes an
endpoint, the two counters show the events of the run exactly if it puts no endpoint into cooldown and
every selection finds an available endpoint.
Source: `utils/cooldown.rs` `trigger_cooldown`, `strategy.rs` `select_best_endpoint` -/
theorem event_counters_iff (P : Platform) {config : Option Config} {path : String} {now : Instant}
    {w : World M} (hnew : LoadBalancer.new M P.toLowercase config path now = some w)
    {events : List SystemEvent}
    (hkeep : Runs.Along (System.step P) System.RemovesNothing ⟨w, []⟩ events) :
    System.EventsCounted P ⟨w, []⟩ events ↔
      Runs.Along (System.step P) System.Uneventful ⟨w, []⟩ events := by
  have hcooldowns : ∀ url,
      (System.run P ⟨w, []⟩ events).world.prom.value .cooldownsTriggered [url] = 0 := by
    intro url
    apply Runs.invariant_along
      (fun s : System M => s.world.prom.value .cooldownsTriggered [url] = 0) System.RemovesNothing ?_
      hkeep (value_of_new hnew (by decide) _)
    intro s e he h
    rw [value_cooldownsTriggered P he, h]
  have hexhausted := value_allEndpointsRateLimited_run P hkeep
  rw [value_of_new hnew (by decide), zero_add] at hexhausted
  have hcooled : (∀ url, System.timesCooled P url ⟨w, []⟩ events = 0) ↔
      Runs.Along (System.step P) (fun s e => s.cooled e = []) ⟨w, []⟩ events := by
    simp only [System.timesCooled, Runs.charged_eq_zero_iff, ← Runs.along_forall,
      List.eq_nil_iff_forall_not_mem, List.count_eq_zero]
  have hfinds : Runs.charged (System.step P) (fun s e => (s.findsNone e).toNat) ⟨w, []⟩ events = 0 ↔
      Runs.Along (System.step P) (fun s e => s.findsNone e = false) ⟨w, []⟩ events := by
    simp only [Runs.charged_eq_zero_iff, Bool.toNat_eq_zero]
  have hboth : Runs.Along (System.step P) System.Uneventful ⟨w, []⟩ events ↔ _ := Runs.along_and
  rw [hboth, ← hcooled, ← hfinds]
  constructor
  · intro h
    refine ⟨fun url => ?_, ?_⟩
    · have hurl := h.cooldowns url
      rw [hcooldowns url] at hurl
      exact_mod_cast hurl.symm
    · have hnone := h.exhausted
      omega
  · rintro ⟨hnever, hnone⟩
    refine ⟨fun url => ?_, by omega⟩
    rw [hcooldowns url, hnever url]
    rfl

/-- A batch is served while its endpoint stays up. -/
theorem event_counters_iff_sample :
    System.EventsCounted samplePlatform ⟨sampleWorld, []⟩
      [.operation (.getNextEndpoint 1 ⟨1, 1⟩), .operation (.updateMetrics "http://a" (.response 200) 5)] := by
  rw [event_counters_iff samplePlatform new_sampleWorld (by simp [Runs.Along, System.RemovesNothing])]
  decide +kernel

/-- The endpoint is put into cooldown, and the next selection finds none: neither is counted. -/
theorem events_not_counted : ¬ ∀ (M : Meter) (P : Platform) (config : Option Config) (path : String)
    (now : Instant) (w : World M), LoadBalancer.new M P.toLowercase config path now = some w →
    ∀ events, Runs.Along (System.step P) System.RemovesNothing ⟨w, []⟩ events →
      System.EventsCounted P ⟨w, []⟩ events := by
  intro h
  have hcounted := h leakyBucket samplePlatform _ _ _ sampleWorld new_sampleWorld
    [.operation (.markUnhealthy "http://a" 1), .operation (.getNextEndpoint 1 ⟨1, 1⟩)]
    (by simp [Runs.Along, System.RemovesNothing])
  have hcooldowns := hcounted.cooldowns "http://a"
  have hexhausted := hcounted.exhausted
  revert hcooldowns hexhausted
  decide +kernel

end AzothBalancer
