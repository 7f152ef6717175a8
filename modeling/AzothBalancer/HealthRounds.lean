import AzothBalancer.Instances
import AzothBalancer.RegistryFrame

/-!
# Health rounds, step by step

`perform_health_checks` copies the URLs, probes all of them at once, collects the results as they come
in, and applies them in one write section after the last. Requests are forwarded meanwhile. `RoundSystem`
is the balancer with the health loop's place in its round and the clock, and `RoundSystem.step` moves it
by one event: a part of the round, a mark, the outcome of a request, or time.

* `run_healthRound` — a round that nothing interrupts is `performHealthChecks`.
* `keeps_roundStep`, `vitals_roundStep` — what an event keeps, and what it does to the vitals: it runs
  the health machine over the events of its operation.
* `RoundSystem.Sound` — the collected results are for distinct URLs; `sound_roundStep` is the step lemma.
* `vitals_eventAt` — an event at one URL: what reaches the endpoint is a mark, or its own probe result in
  the write section (`eventAt_eq_probe_iff`).
-/

namespace AzothBalancer

variable {M : Meter}

/-- How far the health loop is with a round. A panic in the write section ends the loop.
Source: `utils/health.rs` `perform_health_checks` -/
inductive RoundPhase where
  | idle
  | probing (timeoutMs : ℕ) (pending : List String) (updates : List (String × Bool))
  | counting
  | stopped
  deriving DecidableEq, Repr

/-- The balancer, the clock and the health loop. -/
structure RoundSystem (M : Meter) where
  world : World M
  clock : Instant
  phase : RoundPhase

/-- The parts of a health round, and what runs beside it. -/
inductive RoundEvent where
  | startRound
  | completeProbe (url : String) (isHealthy : Bool)
  | applyResults
  | finishRound
  | markUnhealthy (url : String)
  | markRateLimited (url : String)
  | updateMetrics (url : String) (result : UpstreamResult) (elapsedMs : ℕ)
  | advanceClock (nanos : ℕ)
  deriving DecidableEq, Repr

namespace RoundSystem

/-- One event; one that does not fit the round does nothing.
Source: `utils/health.rs` `perform_health_checks`; `balancer.rs` `mark_unhealthy`,
`mark_rate_limited`; `forwarder.rs` `forward_request` -/
def step (s : RoundSystem M) : RoundEvent → RoundSystem M
  | .startRound =>
      match s.phase with
      | .idle =>
          { s with
            phase := .probing (timeoutMillis s.world.lb.healthCheckTimeoutSecs) s.world.urls [] }
      | _ => s
  | .completeProbe url isHealthy =>
      match s.phase with
      | .probing timeoutMs pending updates =>
          if url ∈ pending then
            { s with
              world := { s.world with prom := s.world.prom.observe .healthCheckLatency [url] }
              phase := .probing timeoutMs (pending.erase url) (updates ++ [(url, isHealthy)]) }
          else s
      | _ => s
  | .applyResults =>
      match s.phase with
      | .probing timeoutMs [] updates =>
          let (w, panicked) := applyHealthResults s.world updates timeoutMs s.clock
          { s with world := w, phase := if panicked then .stopped else .counting }
      | _ => s
  | .finishRound =>
      match s.phase with
      | .counting => { s with world := updateHealthyCount s.world s.clock, phase := .idle }
      | _ => s
  | .markUnhealthy url => { s with world := (AzothBalancer.markUnhealthy s.world url s.clock).1 }
  | .markRateLimited url => { s with world := (AzothBalancer.markRateLimited s.world url s.clock).1 }
  | .updateMetrics url result elapsedMs =>
      { s with world := AzothBalancer.updateMetrics s.world url result elapsedMs }
  | .advanceClock nanos => { s with clock := s.clock + nanos }

/-- The state after a list of events. -/
def run (s : RoundSystem M) (events : List RoundEvent) : RoundSystem M := Runs.run step s events

/-- The operation on the shared state that an event amounts to. -/
def operation (s : RoundSystem M) : RoundEvent → Option Operation
  | .applyResults =>
      match s.phase with
      | .probing timeoutMs [] updates => some (.applyHealthResults updates timeoutMs s.clock)
      | _ => none
  | .finishRound =>
      match s.phase with
      | .counting => some (.updateHealthyCount s.clock)
      | _ => none
  | .markUnhealthy url => some (.markUnhealthy url s.clock)
  | .markRateLimited url => some (.markRateLimited url s.clock)
  | .updateMetrics url result elapsedMs => some (.updateMetrics url result elapsedMs)
  | _ => none

/-- The results collected so far. -/
def updates (s : RoundSystem M) : List (String × Bool) :=
  match s.phase with
  | .probing _ _ updates => updates
  | _ => []

/-- The URLs whose probe of the current round has completed. -/
def answered (s : RoundSystem M) : List String := s.updates.map Prod.fst

/-- The results that the event applies: all collected ones, when the last probe has completed. -/
def applied (s : RoundSystem M) : RoundEvent → Option (List (String × Bool))
  | .applyResults =>
      match s.phase with
      | .probing _ [] updates => some updates
      | _ => none
  | _ => none

/-- Those of the results that the write section gets to. -/
def reached (s : RoundSystem M) (results : List (String × Bool)) : List (String × Bool) :=
  HealthTable.reached s.world.lb.baseCooldownSecs s.world.lb.maxCooldownSecs s.clock s.world.lb.vitals
    results

/-- The event that reaches the endpoint under `url`. -/
def eventAt (s : RoundSystem M) (e : RoundEvent) (url : String) : Option HealthEvent :=
  match e with
  | .markUnhealthy u => if u = url then some (.unhealthy s.clock) else none
  | .markRateLimited u => if u = url then some (.rateLimited s.clock) else none
  | e =>
      match s.applied e with
      | some results =>
          (KeyedList.lookup Prod.fst url (s.reached results)).map fun r => .probe r.2 s.clock
      | none => none

/-- An endpoint's vitals after an event that reaches it, under the balancer's cooldown bounds. -/
def receive (s : RoundSystem M) (x : Option HealthEvent) (v : Vitals) : Vitals :=
  v.receive s.world.lb.baseCooldownSecs s.world.lb.maxCooldownSecs x

/-- The event calls `trigger_cooldown` on the endpoint under `url`. -/
def triggersAt (s : RoundSystem M) (e : RoundEvent) (url : String) : Bool :=
  match s.world.lb.vitals url, s.eventAt e url with
  | some v, some x => v.triggers x
  | _, _ => false

/-- The event takes the endpoint under `url` back. -/
def recoversAt (s : RoundSystem M) (e : RoundEvent) (url : String) : Bool :=
  match s.world.lb.vitals url, s.eventAt e url with
  | some v, some x => v.recovers x
  | _, _ => false

/-- The event puts the endpoint under `url` into cooldown: it triggers one, and its length fits the
clock. -/
def cools (s : RoundSystem M) (e : RoundEvent) (url : String) : Bool :=
  match s.world.lb.vitals url, s.eventAt e url with
  | some v, some x =>
      v.triggers x && !(v.step s.world.lb.baseCooldownSecs s.world.lb.maxCooldownSecs x).2
  | _, _ => false

/-- URLs are distinct among the endpoints, and among the probes of a round. -/
structure Sound (s : RoundSystem M) : Prop where
  world : s.world.WellFormed
  round : ∀ timeoutMs pending updates, s.phase = .probing timeoutMs pending updates →
    (updates.map Prod.fst ++ pending).Nodup

end RoundSystem

/-! ## A round alone -/

section alone

/-- The probes complete in any order; each result is collected and its latency observed. -/
theorem run_completeProbes (clock : Instant) (timeoutMs : ℕ) {results : List (String × Bool)}
    {pending : List String} (h : (results.map Prod.fst).Perm pending) (w : World M)
    (updates : List (String × Bool)) :
    RoundSystem.run ⟨w, clock, .probing timeoutMs pending updates⟩
        (results.map fun r => .completeProbe r.1 r.2) =
      ⟨{ w with prom := results.foldl (fun m r => m.observe .healthCheckLatency [r.1]) w.prom }, clock,
        .probing timeoutMs [] (updates ++ results)⟩ := by
  induction results generalizing pending updates w with
  | nil =>
      have hempty : pending = [] := List.nil_perm.mp h
      subst hempty
      simp [RoundSystem.run]
  | cons r rest ih =>
      obtain ⟨hmem, hrest⟩ := List.cons_perm_iff_perm_erase.mp h
      have hstep : RoundSystem.step ⟨w, clock, .probing timeoutMs pending updates⟩
            (.completeProbe r.1 r.2) =
          ⟨{ w with prom := w.prom.observe .healthCheckLatency [r.1] }, clock,
            .probing timeoutMs (pending.erase r.1) (updates ++ [r])⟩ := by
        simp only [RoundSystem.step]
        rw [if_pos hmem]
      have htail := ih hrest { w with prom := w.prom.observe .healthCheckLatency [r.1] }
        (updates ++ [r])
      unfold RoundSystem.run at htail ⊢
      rw [List.map_cons, Runs.run_cons, hstep, htail, List.append_assoc]
      rfl

/-- **A round that nothing interrupts** is a health round run alone, whatever order the probes complete
in; the loop goes on unless the write section panicked.
Source: `utils/health.rs` `perform_health_checks` -/
theorem run_healthRound (w : World M) (clock : Instant) {results : List (String × Bool)}
    (h : (results.map Prod.fst).Perm w.urls) :
    RoundSystem.run ⟨w, clock, .idle⟩
        ([.startRound] ++ results.map (fun r => .completeProbe r.1 r.2) ++ [.applyResults, .finishRound]) =
      ⟨(performHealthChecks w results clock).1, clock,
        if (performHealthChecks w results clock).2 then .stopped else .idle⟩ := by
  have hprobes := run_completeProbes clock (timeoutMillis w.lb.healthCheckTimeoutSecs) h w []
  unfold RoundSystem.run at hprobes ⊢
  have hstart : Runs.run RoundSystem.step ⟨w, clock, .idle⟩ [.startRound] =
      ⟨w, clock, .probing (timeoutMillis w.lb.healthCheckTimeoutSecs) w.urls []⟩ := rfl
  rw [Runs.run_append, Runs.run_append, hstart, hprobes, List.nil_append, Runs.run_cons, Runs.run_cons,
    Runs.run_nil]
  rcases hres : applyHealthResults
      { w with prom := results.foldl (fun m r => m.observe .healthCheckLatency [r.1]) w.prom } results
      (timeoutMillis w.lb.healthCheckTimeoutSecs) clock with ⟨w', panicked⟩
  have happly : ∀ w₀ : World M, applyHealthResults w₀ results
        (timeoutMillis w.lb.healthCheckTimeoutSecs) clock = (w', panicked) →
      RoundSystem.step ⟨w₀, clock, .probing (timeoutMillis w.lb.healthCheckTimeoutSecs) [] results⟩
        .applyResults = ⟨w', clock, if panicked then .stopped else .counting⟩ := by
    intro w₀ h₀
    simp only [RoundSystem.step, h₀]
  rw [happly _ hres]
  unfold performHealthChecks
  simp only [hres]
  cases panicked <;> rfl

end alone

/-! ## One event -/

section step

variable {s : RoundSystem M} {e : RoundEvent}

/-- What an event does to the world, its operation does; without one, only the registry is written. -/
theorem world_roundStep (s : RoundSystem M) (e : RoundEvent) :
    (∃ op, s.operation e = some op ∧ (s.step e).world = (s.world.exec op).1) ∨
      (s.operation e = none ∧ s.world.SameStore (s.step e).world) := by
  cases e with
  | markUnhealthy url => exact .inl ⟨_, rfl, rfl⟩
  | markRateLimited url => exact .inl ⟨_, rfl, rfl⟩
  | updateMetrics url result elapsedMs => exact .inl ⟨_, rfl, rfl⟩
  | advanceClock nanos => exact .inr ⟨rfl, .refl s.world⟩
  | startRound =>
      refine .inr ⟨rfl, ?_⟩
      simp only [RoundSystem.step]
      split <;> exact .refl s.world
  | completeProbe url isHealthy =>
      refine .inr ⟨rfl, ?_⟩
      simp only [RoundSystem.step]
      split
      · split
        · exact ⟨rfl, rfl, rfl⟩
        · exact .refl s.world
      · exact .refl s.world
  | finishRound =>
      simp only [RoundSystem.operation, RoundSystem.step]
      cases s.phase with
      | counting => exact .inl ⟨_, rfl, rfl⟩
      | _ => exact .inr ⟨rfl, .refl s.world⟩
  | applyResults =>
      simp only [RoundSystem.operation, RoundSystem.step]
      split
      · exact .inl ⟨_, rfl, rfl⟩
      · exact .inr ⟨rfl, .refl s.world⟩

/-- Every event is in the frame of the operations. -/
theorem keeps_roundStep (s : RoundSystem M) (e : RoundEvent) : s.world.Keeps (s.step e).world := by
  rcases world_roundStep s e with ⟨op, -, hworld⟩ | ⟨-, hsame⟩
  · rw [hworld]
    exact keeps_exec s.world op
  · exact hsame.keeps

/-- **An event runs the health machine over the events of its operation.** -/
theorem vitals_roundStep (s : RoundSystem M) (e : RoundEvent) :
    (s.step e).world.lb.vitals =
      (HealthTable.run s.world.lb.baseCooldownSecs s.world.lb.maxCooldownSecs
        (((s.operation e).map Operation.events).getD []) s.world.lb.vitals).1 := by
  rcases world_roundStep s e with ⟨op, hop, hworld⟩ | ⟨hnone, hsame⟩
  · rw [hop, hworld]
    exact congrArg Prod.fst (exec_refines s.world op)
  · rw [hnone, hsame.lb]
    rfl

/-- **Every event keeps the system sound.** A probe that completes moves its URL from the pending ones
to the answered ones. -/
theorem sound_roundStep (h : s.Sound) (e : RoundEvent) : (s.step e).Sound := by
  refine ⟨(keeps_roundStep s e).wellFormed h.world, ?_⟩
  intro timeoutMs pending updates hphase
  cases e with
  | markUnhealthy url => exact h.round _ _ _ hphase
  | markRateLimited url => exact h.round _ _ _ hphase
  | updateMetrics url result elapsedMs => exact h.round _ _ _ hphase
  | advanceClock nanos => exact h.round _ _ _ hphase
  | startRound =>
      simp only [RoundSystem.step] at hphase
      split at hphase
      · cases hphase
        exact h.world.nodup
      · exact h.round _ _ _ hphase
  | completeProbe url isHealthy =>
      simp only [RoundSystem.step] at hphase
      split at hphase
      · rename_i timeoutMs pending updates hold
        split at hphase
        · rename_i hmem
          cases hphase
          have hperm : ((updates ++ [(url, isHealthy)]).map Prod.fst ++ pending.erase url).Perm
              (updates.map Prod.fst ++ pending) := by
            rw [List.map_append, List.append_assoc]
            exact (List.perm_cons_erase hmem).symm.append_left _
          exact hperm.nodup_iff.mpr (h.round _ _ _ hold)
        · exact h.round _ _ _ hphase
      · exact h.round _ _ _ hphase
  | applyResults =>
      simp only [RoundSystem.step] at hphase
      split at hphase
      · dsimp only at hphase
        split at hphase <;> cases hphase
      · exact h.round _ _ _ hphase
  | finishRound =>
      simp only [RoundSystem.step] at hphase
      split at hphase
      · cases hphase
      · exact h.round _ _ _ hphase

/-- What is applied has been collected in a round. -/
theorem operation_of_applied {results : List (String × Bool)} (h : s.applied e = some results) :
    ∃ timeoutMs, e = .applyResults ∧ s.phase = .probing timeoutMs [] results ∧
      s.operation e = some (.applyHealthResults results timeoutMs s.clock) := by
  unfold RoundSystem.applied at h
  split at h
  · split at h
    · rename_i timeoutMs updates hphase
      cases h
      exact ⟨timeoutMs, rfl, hphase, by simp [RoundSystem.operation, hphase]⟩
    · cases h
  · cases h

/-- The results that are applied are for distinct URLs. -/
theorem RoundSystem.Sound.nodup {results : List (String × Bool)} (hs : s.Sound)
    (h : s.applied e = some results) : (results.map Prod.fst).Nodup := by
  obtain ⟨timeoutMs, -, hphase, -⟩ := operation_of_applied h
  simpa using hs.round timeoutMs [] results hphase

/-- **An event, at one URL.**
Source: `utils/health.rs` `perform_health_checks`; `balancer.rs` `mark_unhealthy`,
`mark_rate_limited` -/
theorem vitals_eventAt (hs : s.Sound) (e : RoundEvent) (url : String) :
    (s.step e).world.lb.vitals url =
      (s.world.lb.vitals url).map (s.receive (s.eventAt e url)) := by
  have hvit := congrFun (vitals_roundStep s e) url
  have hquiet : ((s.operation e).map Operation.events).getD [] = [] → s.eventAt e url = none →
      (s.step e).world.lb.vitals url =
        (s.world.lb.vitals url).map (s.receive (s.eventAt e url)) := by
    intro hop hevent
    rw [hvit, hop, hevent]
    exact (Option.map_id' (x := s.world.lb.vitals url)).symm
  have hmark : ∀ u x, ((s.operation e).map Operation.events).getD [] = [(u, x)] →
      s.eventAt e url = (if u = url then some x else none) →
      (s.step e).world.lb.vitals url =
        (s.world.lb.vitals url).map (s.receive (s.eventAt e url)) := by
    intro u x hop hevent
    rw [hvit, hop, hevent, HealthTable.run_singleton, HealthTable.step_apply]
    split
    · rfl
    · exact (Option.map_id' (x := s.world.lb.vitals url)).symm
  cases e with
  | markUnhealthy u => exact hmark u _ rfl rfl
  | markRateLimited u => exact hmark u _ rfl rfl
  | updateMetrics u result elapsedMs => exact hquiet rfl rfl
  | advanceClock nanos => exact hquiet rfl rfl
  | startRound => exact hquiet rfl rfl
  | completeProbe u isHealthy => exact hquiet rfl rfl
  | finishRound =>
      refine hquiet ?_ rfl
      simp only [RoundSystem.operation]
      split <;> rfl
  | applyResults =>
      cases happlied : s.applied .applyResults with
      | some results =>
          obtain ⟨timeoutMs, -, -, hop⟩ := operation_of_applied happlied
          rw [hvit, hop]
          simp only [RoundSystem.eventAt, happlied]
          exact HealthTable.run_probes_apply (hs.nodup happlied) url
      | none =>
          refine hquiet ?_ (by simp only [RoundSystem.eventAt, happlied])
          unfold RoundSystem.applied at happlied
          simp only [RoundSystem.operation]
          split
          · rename_i hphase
            simp [hphase] at happlied
          · rfl

/-- **In the write section, an endpoint gets its own result**, if the section gets to it. -/
theorem eventAt_eq_probe_iff (hs : s.Sound) {results : List (String × Bool)}
    (h : s.applied e = some results) {url : String} {x : HealthEvent} :
    s.eventAt e url = some x ↔ ∃ b, (url, b) ∈ s.reached results ∧ x = .probe b s.clock := by
  obtain ⟨timeoutMs, rfl, -, -⟩ := operation_of_applied h
  have hevent : s.eventAt .applyResults url =
      (KeyedList.lookup Prod.fst url (s.reached results)).map fun r => .probe r.2 s.clock := by
    simp only [RoundSystem.eventAt, h]
  rw [hevent, Option.map_eq_some_iff]
  constructor
  · rintro ⟨⟨u, b⟩, hr, rfl⟩
    have hu : u = url := KeyedList.key_of_lookup hr
    subst hu
    exact ⟨b, KeyedList.mem_of_lookup hr, rfl⟩
  · rintro ⟨b, hmem, rfl⟩
    have hnodup : ((s.reached results).map Prod.fst).Nodup :=
      (hs.nodup h).sublist ((HealthTable.reached_sublist results).map Prod.fst)
    exact ⟨(url, b), KeyedList.lookup_of_mem hnodup hmem, rfl⟩

/-- Events happen at the time on the clock. -/
theorem now_of_eventAt {url : String} {x : HealthEvent} (h : s.eventAt e url = some x) :
    x.now = s.clock := by
  unfold RoundSystem.eventAt at h
  split at h
  · split at h <;> cases h
    rfl
  · split at h <;> cases h
    rfl
  · split at h
    · obtain ⟨r, -, rfl⟩ := Option.map_eq_some_iff.mp h
      rfl
    · cases h

/-- A cooldown is triggered on a listed endpoint. -/
theorem mem_urls_of_triggersAt {url : String} (h : s.triggersAt e url = true) : url ∈ s.world.urls := by
  unfold RoundSystem.triggersAt at h
  split at h
  · rename_i v x hv _
    obtain ⟨ep, hep, -⟩ := Option.map_eq_some_iff.mp hv
    exact KeyedList.lookup_isSome_iff.mp (Option.isSome_of_eq_some hep)
  · cases h

end step

end AzothBalancer
