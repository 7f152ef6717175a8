import AzothBalancer.HealthRounds

/-!
# Stale probes

Results of a health round are held until its last probe completes. A request may fail meanwhile, on an
endpoint whose probe has succeeded already, and the cooldown this triggers is there to give the node
time to recover. The write section then takes the older success for a recovery.

* `Watched` — the rounds, with the endpoints on which a cooldown was triggered since their probe
  completed.
* `Watched.Spared` — the write section leaves their cooldowns, attempts and health flags alone.
* `stale_probe_iff` — it does in every step of a run exactly if no success is applied to one of those
  endpoints while it is down; `stale_probe` is a run in which one is.
-/

namespace AzothBalancer

variable {M : Meter}

/-! ## Cooldowns under events -/

namespace Vitals

/-- From `v` to `v'` the cooldown has not been cleared, the attempts have not been reset, and the
endpoint has not been set back to healthy. -/
structure KeepsCooldown (v v' : Vitals) : Prop where
  cooldown : v.cooldownUntil.isSome → v'.cooldownUntil.isSome
  attempts : v.cooldownAttempts ≤ v'.cooldownAttempts
  healthy : v.healthy = false → v'.healthy = false

variable {v : Vitals} {x : HealthEvent}

/-- A trigger leaves the attempts within their type. -/
theorem attempts_of_triggers (base max_ : ℕ) (h : v.triggers x = true) :
    (v.step base max_ x).1.cooldownAttempts ≤ u32Max := by
  rcases step_cases base max_ v x with ⟨-, -, b, -, hstep⟩ | ⟨hno, -, -⟩ | ⟨hno, -, -⟩
  · obtain ⟨hatt, -⟩ := trigger_spec base max_ x.now { v with healthy := b }
    rw [hstep, hatt]
    exact Nat.min_le_right _ _
  · rw [h] at hno
    cases hno
  · rw [h] at hno
    cases hno

/-- So does every event, from attempts within it. -/
theorem attempts_step (base max_ : ℕ) (h : v.cooldownAttempts ≤ u32Max) (x : HealthEvent) :
    (v.step base max_ x).1.cooldownAttempts ≤ u32Max := by
  rcases step_cases base max_ v x with ⟨ht, -, -⟩ | ⟨-, -, hstep⟩ | ⟨-, -, hstep⟩
  · exact attempts_of_triggers base max_ ht
  · rw [hstep]
    exact Nat.zero_le _
  · rw [hstep]
    exact h

/-- **Which events keep a cooldown**: all but a recovery. -/
theorem keepsCooldown_step_iff (base max_ : ℕ) (h : v.cooldownAttempts ≤ u32Max) (x : HealthEvent) :
    v.KeepsCooldown (v.step base max_ x).1 ↔ v.recovers x = false := by
  rcases step_cases base max_ v x with ⟨-, hrec, b, hb, hstep⟩ | ⟨-, hrec, hstep⟩ | ⟨-, hrec, hstep⟩
  · obtain ⟨hatt, hhealthy, hcool⟩ := trigger_spec base max_ x.now { v with healthy := b }
    rw [hstep]
    refine iff_of_true ⟨hcool, ?_, fun hv => hhealthy.trans (hb hv)⟩ hrec
    rw [hatt]
    show v.cooldownAttempts ≤ min (v.cooldownAttempts + 1) u32Max
    omega
  · rw [hstep, hrec]
    refine iff_of_false (fun hkeeps => ?_) Bool.noConfusion
    have hup := hkeeps.healthy (healthy_of_recovers hrec)
    cases hup
  · rw [hstep]
    exact iff_of_true ⟨id, le_rfl, id⟩ hrec

end Vitals

/-! ## The endpoints cooled since their probe -/

/-- The rounds, with the endpoints on which a cooldown was triggered since their probe of the current
round completed. -/
structure Watched (M : Meter) where
  system : RoundSystem M
  cooled : String → Bool

namespace Watched

/-- The rounds from `w` on, with the health loop between two rounds. -/
def start (w : World M) (clock : Instant) : Watched M := ⟨⟨w, clock, .idle⟩, fun _ => false⟩

/-- One event. A probe that has not completed is forgotten, as are all of them at the end of the
round. -/
def step (s : Watched M) (e : RoundEvent) : Watched M where
  system := s.system.step e
  cooled url := decide (url ∈ (s.system.step e).answered) && (s.cooled url || s.system.triggersAt e url)

/-- The write section keeps the cooldowns that were triggered since the endpoints' probes completed. -/
def Spared (s : Watched M) (e : RoundEvent) : Prop :=
  (s.system.applied e).isSome → ∀ url, s.cooled url = true →
    ∃ v ∈ s.system.world.lb.vitals url, ∃ v' ∈ (s.system.step e).world.lb.vitals url,
      v.KeepsCooldown v'

/-- Where the write section applies a success to one of these endpoints, the endpoint is healthy. -/
def NoStaleSuccess (s : Watched M) (e : RoundEvent) : Prop :=
  ∀ results ∈ s.system.applied e, ∀ url, s.cooled url = true → (url, true) ∈ s.system.reached results →
    ∃ v ∈ s.system.world.lb.vitals url, v.healthy = true

/-- The endpoints in question are listed, and their attempts are within their type. -/
structure Sound (s : Watched M) : Prop where
  system : s.system.Sound
  attempts : ∀ url, s.cooled url = true →
    ∃ v, s.system.world.lb.vitals url = some v ∧ v.cooldownAttempts ≤ u32Max

variable {s : Watched M}

/-- Every event keeps this. -/
theorem sound_step (h : s.Sound) (e : RoundEvent) : (s.step e).Sound := by
  refine ⟨sound_roundStep h.system e, fun url hurl => ?_⟩
  show ∃ v', (s.system.step e).world.lb.vitals url = some v' ∧ _
  rw [vitals_eventAt h.system e url]
  simp only [step, Bool.and_eq_true, Bool.or_eq_true] at hurl
  rcases hurl.2 with hold | htriggers
  · obtain ⟨v, hv, hatt⟩ := h.attempts url hold
    rw [hv]
    refine ⟨_, rfl, ?_⟩
    cases s.system.eventAt e url with
    | none => exact hatt
    | some x => exact Vitals.attempts_step _ _ hatt x
  · unfold RoundSystem.triggersAt at htriggers
    split at htriggers
    · rename_i v x hv hx
      rw [hv, hx]
      exact ⟨_, rfl, Vitals.attempts_of_triggers _ _ htriggers⟩
    · cases htriggers

/-- **The write section spares the cooldowns exactly if it applies no stale success.** -/
theorem spared_iff (h : s.Sound) (e : RoundEvent) : s.Spared e ↔ s.NoStaleSuccess e := by
  unfold Spared NoStaleSuccess
  cases happlied : s.system.applied e with
  | none => simp
  | some results =>
      simp only [Option.isSome_some, forall_const, Option.mem_some_iff, forall_eq']
      apply forall_congr'
      intro url
      apply imp_congr_right
      intro hurl
      obtain ⟨v, hv, hatt⟩ := h.attempts url hurl
      rw [vitals_eventAt h.system e url, hv]
      simp only [Option.map_some, Option.mem_some_iff, exists_eq_left']
      have hsuccess : s.system.eventAt e url = some (.probe true s.system.clock) ↔ _ :=
        eventAt_eq_probe_iff h.system happlied
      cases hx : s.system.eventAt e url with
      | none =>
          refine iff_of_true ⟨id, le_rfl, id⟩ fun hmem => ?_
          have hsome := hsuccess.mpr ⟨true, hmem, rfl⟩
          rw [hx] at hsome
          cases hsome
      | some x =>
          obtain ⟨b, hmem, rfl⟩ := (eventAt_eq_probe_iff h.system happlied).mp hx
          refine (Vitals.keepsCooldown_step_iff _ _ hatt _).trans ?_
          cases b with
          | true => simp [Vitals.recovers, hmem]
          | false =>
              refine iff_of_true rfl fun hmem' => ?_
              have hsome := hsuccess.mpr ⟨true, hmem', rfl⟩
              rw [hx] at hsome
              cases hsome

/-- The first state is sound. -/
theorem sound_start {w : World M} (hw : w.WellFormed) (clock : Instant) : (start w clock).Sound :=
  ⟨⟨hw, fun _ _ _ h => by cases h⟩, fun _ h => by cases h⟩

end Watched

/-- **A stale probe cancels a cooldown.** The endpoint's probe succeeds, then a request to it fails and
`mark_unhealthy` puts it into cooldown; the write section makes it healthy again and clears the
cooldown.
Source: `utils/health.rs` `perform_health_checks`; `balancer.rs` `mark_unhealthy` -/
theorem stale_probe : ¬ ∀ (w : World leakyBucket) (clock : Instant) (events : List RoundEvent),
    w.Reachable samplePlatform →
      Runs.Along Watched.step Watched.Spared (Watched.start w clock) events := by
  intro h
  obtain ⟨-, -, -, hspared, -⟩ := h sampleWorld 5 [.startRound, .completeProbe "http://a" true,
    .markUnhealthy "http://a", .applyResults] (World.reachable_of_new new_sampleWorld)
  obtain ⟨v, hv, v', hv', hkeeps⟩ := hspared (by decide) "http://a" (by decide)
  have hbefore : (RoundSystem.run ⟨sampleWorld, 5, .idle⟩ [.startRound,
      .completeProbe "http://a" true, .markUnhealthy "http://a"]).world.lb.vitals "http://a" =
        some ⟨false, some 6000000005, 1⟩ := by decide
  have hafter : (RoundSystem.run ⟨sampleWorld, 5, .idle⟩ [.startRound, .completeProbe "http://a" true,
      .markUnhealthy "http://a", .applyResults]).world.lb.vitals "http://a" = some .initial := by decide
  have hcooled : v = ⟨false, some 6000000005, 1⟩ := Option.some.inj (hv.symm.trans hbefore)
  have hinitial : v' = .initial := Option.some.inj (hv'.symm.trans hafter)
  subst hcooled hinitial
  have hcool := hkeeps.cooldown rfl
  cases hcool

/-- **When stale probes cancel nothing.** From a reachable state, in every interleaving of health rounds
with marks, outcomes of requests and time, every write section spares the cooldowns triggered since the
endpoints' probes of the round completed, exactly if none applies a success to such an endpoint while
it is down.
Source: `utils/health.rs` `perform_health_checks`; `balancer.rs` `mark_unhealthy`,
`mark_rate_limited`; `utils/cooldown.rs` `trigger_cooldown` -/
theorem stale_probe_iff {P : Platform} {w : World M} (hw : w.Reachable P) (clock : Instant)
    (events : List RoundEvent) :
    Runs.Along Watched.step Watched.Spared (Watched.start w clock) events ↔
      Runs.Along Watched.step Watched.NoStaleSuccess (Watched.start w clock) events :=
  Runs.along_congr Watched.Sound (fun _ e _ h => Watched.sound_step h e)
    (fun _ e _ h => Watched.spared_iff h e) (fun _ _ => trivial) (Watched.sound_start hw.wellFormed clock)

/-- `stale_probe_iff` for a 429 after the endpoint's probe: the endpoint stays healthy and in
cooldown. -/
theorem stale_probe_iff_sample : Runs.Along Watched.step Watched.Spared (Watched.start sampleWorld 5)
    [.startRound, .completeProbe "http://a" true, .markRateLimited "http://a", .applyResults] := by
  refine (stale_probe_iff (World.reachable_of_new new_sampleWorld) 5 _).mpr
    ⟨fun _ h => (nomatch h), fun _ h => (nomatch h), fun _ h => (nomatch h), ?_, trivial⟩
  intro results hresults url _ hmem
  have hall : results = [("http://a", true)] := (Option.some.inj hresults).symm
  subst hall
  have hurl : (url, true) = ("http://a", true) :=
    List.mem_singleton.mp ((HealthTable.reached_sublist _).subset hmem)
  cases hurl
  have hhealthy : ((RoundSystem.run ⟨sampleWorld, 5, .idle⟩ [.startRound,
      .completeProbe "http://a" true, .markRateLimited "http://a"]).world.lb.vitals "http://a").map
        Vitals.healthy = some true := by decide
  obtain ⟨v, hv, hh⟩ := Option.map_eq_some_iff.mp hhealthy
  exact ⟨v, hv, hh⟩

end AzothBalancer
