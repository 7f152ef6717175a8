import AzothBalancer.BackgroundTasks
import AzothBalancer.ConfigSafety
import AzothBalancer.EndpointSeries
import AzothBalancer.StatusReport

/-!
# The cooldown gauge

`COOLDOWN_SECONDS_GAUGE` is written in three places: a trigger publishes the length of the cooldown it sets,
every second the updater writes what is left of each, and a new endpoint starts at zero. Between two ticks it
is out of date. `gauge_covers` says on which side: over any commands and ticks, one at a time, it never shows
less than what is left.

`Registry.Covers` is the invariant for one endpoint, from an instant on. A tick reads the clock for every
endpoint anew (`cooldownGaugeTick`); `run_cooldownGaugeTick` is the tick as the task runs it.
-/

namespace AzothBalancer

variable {M : Meter}

/-! ## A tick -/

/-- Sets the gauges of the endpoints, the `i`-th by the reading `readings i` of the clock.
Source: `utils/cooldown.rs` `cooldown_gauge_updater`, `for ep in endpoints.iter()` -/
def setGauges (readings : ℕ → Instant) : ℕ → List RpcEndpoint → Registry → Registry
  | _, [], m => m
  | i, ep :: eps, m =>
      let remaining := ep.cooldownRemainingSecs (readings i)
      setGauges readings (i + 1) eps (m.set .cooldownSecondsGauge [ep.url] remaining)

/-- A tick of the updater run alone: a reading for each gauge, and one for each endpoint that is counted.
Source: `utils/cooldown.rs` `cooldown_gauge_updater` -/
def cooldownGaugeTick (w : World M) (readings : ℕ → Instant) : World M :=
  updateHealthyCountAt { w with prom := setGauges readings 0 w.lb.endpoints w.prom } fun i =>
    readings (w.lb.endpoints.length + i)

/-- The gauges that a tick has still to set, as the task sets them. -/
theorem run_setGauges (clock : Instant) (phase : RoundPhase) (health : HealthLoop) :
    ∀ (eps : List RpcEndpoint) (w : World M) (i : ℕ),
      Process.run ⟨⟨w, clock, phase⟩, health, .updating eps, .serving⟩
          (List.replicate eps.length (.pollGauge true)) =
        (⟨⟨{ w with prom := setGauges (fun _ => clock) i eps w.prom }, clock, phase⟩, health,
          .updating [], .serving⟩ : Process M)
  | [], _, _ => rfl
  | _ :: eps, _, i => run_setGauges clock phase health eps _ (i + 1)

/-- **A tick of the updater that nothing interrupts** is `cooldownGaugeTick`.
Source: `utils/cooldown.rs` `cooldown_gauge_updater` -/
theorem run_cooldownGaugeTick (w : World M) (clock : Instant) (phase : RoundPhase) (health : HealthLoop) :
    Process.run ⟨⟨w, clock, phase⟩, health, .selecting, .serving⟩ ([.pollGauge true] ++
        List.replicate w.lb.endpoints.length (.pollGauge true) ++ [.pollGauge true]) =
      (⟨⟨cooldownGaugeTick w fun _ => clock, clock, phase⟩, health, .selecting, .serving⟩ :
        Process M) := by
  unfold Process.run
  simp only [Runs.run_append, Runs.run_cons, Runs.run_nil]
  have hset := run_setGauges clock phase health w.lb.endpoints w 0
  unfold Process.run at hset
  have hbegin : Process.step ⟨⟨w, clock, phase⟩, health, .selecting, .serving⟩ (.pollGauge true) =
      (⟨⟨w, clock, phase⟩, health, .updating w.lb.endpoints, .serving⟩ : Process M) := rfl
  rw [hbegin, hset]
  rfl

/-! ## What a gauge shows -/

namespace Registry

/-- From `now` on, the gauge at the URL shows no less than is left of the cooldown of the record. -/
def Covers (m : Registry) (url : String) (ep : RpcEndpoint) (now : Instant) : Prop :=
  ∃ shown : ℤ, m.series .cooldownSecondsGauge [url] = some shown ∧
    ∀ t, now ≤ t → (ep.cooldownRemainingSecs t : ℤ) ≤ shown

variable {m m' : Registry} {url : String} {ep ep' : RpcEndpoint} {now later : Instant}

/-- Time passes. -/
theorem Covers.mono (h : m.Covers url ep now) (hle : now ≤ later) : m.Covers url ep later := by
  obtain ⟨shown, hshown, hcover⟩ := h
  exact ⟨shown, hshown, fun t ht => hcover t (hle.trans ht)⟩

/-- Neither the gauge nor the cooldown moves. -/
theorem Covers.same (h : m.Covers url ep now)
    (hm : m'.series .cooldownSecondsGauge [url] = m.series .cooldownSecondsGauge [url])
    (hep : ep'.cooldownUntil = ep.cooldownUntil) : m'.Covers url ep' now := by
  obtain ⟨shown, hshown, hcover⟩ := h
  refine ⟨shown, hm.trans hshown, fun t ht => ?_⟩
  have hsame : ep'.cooldownRemainingSecs t = ep.cooldownRemainingSecs t := by
    unfold RpcEndpoint.cooldownRemainingSecs
    rw [hep]
  rw [hsame]
  exact hcover t ht

/-- The cooldown is lifted, the gauge keeps what it shows. -/
theorem Covers.lifted (h : m.Covers url ep now)
    (hm : m'.series .cooldownSecondsGauge [url] = m.series .cooldownSecondsGauge [url])
    (hep : ep'.cooldownUntil = none) : m'.Covers url ep' now := by
  obtain ⟨shown, hshown, hcover⟩ := h
  refine ⟨shown, hm.trans hshown, fun t ht => ?_⟩
  have hzero : ep'.cooldownRemainingSecs t = 0 := by
    unfold RpcEndpoint.cooldownRemainingSecs
    rw [hep]
  rw [hzero]
  exact (Int.natCast_nonneg _).trans (hcover now le_rfl)

/-- Other series do not concern the gauge. -/
theorem gauge_put_of_ne {f : Family} {labels : List String} {v : Option ℤ}
    (hf : Family.cooldownSecondsGauge ≠ f) :
    (m.put f labels v).series .cooldownSecondsGauge [url] = m.series .cooldownSecondsGauge [url] := by
  simp [put, hf]

/-- Nor do the gauges of other endpoints. -/
theorem gauge_put_of_url_ne {url' : String} {v : Option ℤ} (hu : url ≠ url') :
    (m.put .cooldownSecondsGauge [url'] v).series .cooldownSecondsGauge [url] =
      m.series .cooldownSecondsGauge [url] := by
  simp [put, hu]

end Registry

/-- A trigger that does not panic publishes no less than will be left of its cooldown.
Source: `utils/cooldown.rs` `trigger_cooldown` -/
theorem covers_triggerCooldown {m : Registry} {ep : RpcEndpoint} {base max_ : ℕ} {now later : Instant}
    {url : String} {duration : ℕ} (hd : (triggerCooldown ep base max_ now).2 = some duration)
    (hle : now ≤ later) :
    (publishCooldown m url duration).Covers url (triggerCooldown ep base max_ now).1 later := by
  unfold triggerCooldown at hd ⊢
  dsimp only at hd ⊢
  split at hd
  · cases hd
  · rename_i until_ huntil
    cases hd
    generalize cooldownDuration _ base max_ = duration at huntil ⊢
    have hcast : (BitVec.ofNat 64 duration).toInt = duration :=
      toInt_of_checkedAddSecs (Option.isSome_of_eq_some huntil)
    have hend : until_ = now + nanosPerSec * duration := Instant.eq_of_checkedAddSecs huntil
    refine ⟨duration, ?_, fun t ht => ?_⟩
    · unfold publishCooldown
      rw [hcast]
      simp [Registry.set, Registry.put]
    · simp only [RpcEndpoint.cooldownRemainingSecs]
      split
      · have hleft : until_ - t ≤ nanosPerSec * duration := by
          rw [hend, Nat.sub_le_iff_le_add, Nat.add_comm]
          exact Nat.add_le_add_left (hle.trans ht) _
        exact_mod_cast Nat.div_le_of_le_mul hleft
      · exact Int.natCast_nonneg _

/-- A trigger that panics sets no cooldown. -/
theorem cooldownUntil_triggerCooldown_of_panicked {ep : RpcEndpoint} {base max_ : ℕ} {now : Instant}
    (h : (triggerCooldown ep base max_ now).2 = none) :
    (triggerCooldown ep base max_ now).1.cooldownUntil = ep.cooldownUntil := by
  unfold triggerCooldown at h ⊢
  dsimp only at h ⊢
  split at h
  · rfl
  · cases h

/-! ## Operations -/

/-- The operation reads the clock no later than this. -/
def Operation.ReadBy (later : Instant) : Operation → Prop
  | .markUnhealthy _ now | .markRateLimited _ now | .applyHealthResults _ _ now => now ≤ later
  | _ => True

/-- From `now` on, every gauge shows no less than is left. -/
def World.CoversCooldowns (w : World M) (now : Instant) : Prop :=
  ∀ url ep, w.lb.endpoint? url = some ep → w.prom.Covers url ep now

namespace World.CoversCooldowns

variable {w : World M} {url : String} {ep : RpcEndpoint} {now later : Instant}

/-- Time passes. -/
theorem mono (h : w.CoversCooldowns now) (hle : now ≤ later) : w.CoversCooldowns later :=
  fun u e he => (h u e he).mono hle

/-- The records and the gauges of the cooldowns stay as they are. -/
theorem same {w' : World M} (h : w.CoversCooldowns now) (hlb : w'.lb.endpoints = w.lb.endpoints)
    (hprom : ∀ u, w'.prom.series .cooldownSecondsGauge [u] = w.prom.series .cooldownSecondsGauge [u]) :
    w'.CoversCooldowns now := by
  intro u e he
  unfold LoadBalancer.endpoint? at he
  rw [hlb] at he
  exact (h u e he).same (hprom u) rfl

/-- A record is rewritten, and its cooldown stays or is lifted. -/
theorem updateEndpoint (h : w.CoversCooldowns now) (hep : w.lb.endpoint? url = some ep)
    {f : RpcEndpoint → RpcEndpoint} (hf : ∀ e, (f e).url = e.url)
    (hcool : (f ep).cooldownUntil = ep.cooldownUntil ∨ (f ep).cooldownUntil = none) :
    World.CoversCooldowns { w with lb := w.lb.updateEndpoint url f } now := by
  intro u e he
  rw [endpoint?_updateEndpoint hep hf] at he
  split at he
  · rename_i hu
    subst hu
    cases he
    rcases hcool with hsame | hnone
    · exact (h u ep hep).same rfl hsame
    · exact (h u ep hep).lifted rfl hnone
  · exact h u e he

/-- A trigger publishes its cooldown; one that panics sets none. -/
theorem cooldownEndpoint (h : w.CoversCooldowns later) (hep : w.lb.endpoint? url = some ep)
    {prepare : RpcEndpoint → RpcEndpoint}
    (hprep : ∀ e, (prepare e).url = e.url ∧ (prepare e).cooldownUntil = e.cooldownUntil) (base max_ : ℕ)
    (hle : now ≤ later) :
    (AzothBalancer.cooldownEndpoint w ep prepare base max_ now).1.CoversCooldowns later := by
  have hurl : ep.url = url := KeyedList.key_of_lookup hep
  intro u e he
  rw [endpoint?_cooldownEndpoint hep fun e => (hprep e).1] at he
  unfold AzothBalancer.cooldownEndpoint
  dsimp only
  split
  · rename_i duration hd
    split at he
    · rename_i hu
      cases he
      rw [hurl, ← hu]
      exact covers_triggerCooldown hd hle
    · rename_i hu
      exact (h u e he).same (Registry.gauge_put_of_url_ne fun heq => hu (heq.trans hurl)) rfl
  · rename_i hd
    split at he
    · rename_i hu
      subst hu
      cases he
      refine (h u ep hep).same rfl ?_
      rw [← (hprep ep).2]
      exact cooldownUntil_triggerCooldown_of_panicked hd
    · exact h u e he

/-- Source: `balancer.rs` `mark_rate_limited` -/
theorem markRateLimited (h : w.CoversCooldowns later) (url : String) (hle : now ≤ later) :
    (AzothBalancer.markRateLimited w url now).1.CoversCooldowns later := by
  unfold AzothBalancer.markRateLimited
  split
  · exact h
  · rename_i ep hep
    exact h.cooldownEndpoint hep (fun _ => ⟨rfl, rfl⟩) _ _ hle

/-- Source: `balancer.rs` `mark_unhealthy` -/
theorem markUnhealthy (h : w.CoversCooldowns later) (url : String) (hle : now ≤ later) :
    (AzothBalancer.markUnhealthy w url now).1.CoversCooldowns later := by
  unfold AzothBalancer.markUnhealthy
  split
  · exact h
  · rename_i ep hep
    split
    · apply h.cooldownEndpoint hep _ _ _ hle
      exact fun _ => ⟨rfl, rfl⟩
    · exact h

/-- A probe that finds a down endpoint healthy lifts its cooldown, one that finds a healthy endpoint down
sets one.
Source: `utils/health.rs` `perform_health_checks` -/
theorem applyProbe (h : w.CoversCooldowns later) (base max_ timeoutMs : ℕ) (hle : now ≤ later)
    (result : String × Bool) :
    (AzothBalancer.applyProbe base max_ timeoutMs now w result).1.CoversCooldowns later := by
  unfold AzothBalancer.applyProbe
  dsimp only
  split
  · exact h
  · rename_i ep hep
    split
    · split
      · exact h.updateEndpoint hep (fun _ => rfl) (.inl rfl)
      · have hrecord : (recordRecovery w ep).CoversCooldowns later := h.same rfl fun _ => rfl
        exact hrecord.updateEndpoint hep (fun _ => rfl) (.inr rfl)
    · have hrecord : (recordFailedProbe w result.1 ep timeoutMs).CoversCooldowns later :=
        h.same rfl fun _ => Registry.gauge_put_of_ne (by decide)
      split
      · apply hrecord.cooldownEndpoint hep _ _ _ hle
        exact fun _ => ⟨rfl, rfl⟩
      · exact hrecord.updateEndpoint hep (fun _ => rfl) (.inl rfl)

/-- Source: `utils/health.rs` `perform_health_checks` -/
theorem applyProbes (base max_ timeoutMs : ℕ) (hle : now ≤ later) :
    ∀ (results : List (String × Bool)) {w : World M}, w.CoversCooldowns later →
      (AzothBalancer.applyProbes base max_ timeoutMs now results w).1.CoversCooldowns later
  | [], _, h => h
  | result :: rest, w, h => by
      have hone := h.applyProbe base max_ timeoutMs hle result
      unfold AzothBalancer.applyProbes
      split
      · rename_i w' heq
        rwa [heq] at hone
      · rename_i w' heq
        rw [heq] at hone
        exact applyProbes base max_ timeoutMs hle rest hone

/-- The count of available endpoints is another gauge. -/
theorem updateHealthyCount (h : w.CoversCooldowns later) :
    (AzothBalancer.updateHealthyCount w now).CoversCooldowns later :=
  h.same rfl fun _ => Registry.gauge_put_of_ne (by decide)

/-- Source: `utils/health.rs` `perform_health_checks` -/
theorem performHealthChecks (h : w.CoversCooldowns later) (results : List (String × Bool))
    (hle : now ≤ later) : (AzothBalancer.performHealthChecks w results now).1.CoversCooldowns later := by
  have hobserve : ∀ (results : List (String × Bool)) (m : Registry) (u : String),
      (results.foldl (fun m r => m.observe .healthCheckLatency [r.1]) m).series .cooldownSecondsGauge [u] =
        m.series .cooldownSecondsGauge [u] := by
    intro results
    induction results with
    | nil => exact fun _ _ => rfl
    | cons r results ih =>
        intro m u
        rw [List.foldl_cons, ih]
        exact Registry.gauge_put_of_ne (by decide)
  unfold AzothBalancer.performHealthChecks
  dsimp only
  generalize hobserved : List.foldl _ w.prom results = observed
  have hstart : World.CoversCooldowns { w with prom := observed } later := by
    subst hobserved
    exact h.same rfl (hobserve results w.prom)
  have happly := applyProbes w.lb.baseCooldownSecs w.lb.maxCooldownSecs
    (timeoutMillis w.lb.healthCheckTimeoutSecs) hle results hstart
  split
  · rename_i w' heq
    unfold applyHealthResults at heq
    rwa [heq] at happly
  · rename_i w' heq
    unfold applyHealthResults at heq
    rw [heq] at happly
    exact happly.updateHealthyCount

/-- Source: `balancer.rs`, `forwarder.rs` -/
theorem exec (h : w.CoversCooldowns later) (op : Operation) (hop : op.ReadBy later) :
    (w.exec op).1.CoversCooldowns later := by
  rcases op with ⟨n, clock⟩ | ⟨url, now⟩ | ⟨url, now⟩ | ⟨results, timeoutMs, now⟩ | now |
    ⟨url, result, elapsedMs⟩
  · have hgauge : ∀ u, ((getNextEndpoint w n clock).2.prom.series .cooldownSecondsGauge [u]) =
        w.prom.series .cooldownSecondsGauge [u] :=
      fun u => (writes_getNextEndpoint w n clock).frame _ _ fun hw => hw.elim id nofun
    rcases getNextEndpoint_spec w n clock with ⟨w', hw', hs⟩ | ⟨ep, w', hw', -, -, hlb, -⟩
    · rw [hw'] at hgauge
      show World.CoversCooldowns (getNextEndpoint w n clock).2 later
      rw [hw']
      exact h.same (congrArg LoadBalancer.endpoints hs.lb) hgauge
    · rw [hw'] at hgauge
      show World.CoversCooldowns (getNextEndpoint w n clock).2 later
      rw [hw']
      exact h.same (congrArg LoadBalancer.endpoints hlb) hgauge
  · exact h.markUnhealthy url hop
  · exact h.markRateLimited url hop
  · exact applyProbes _ _ timeoutMs hop results h
  · exact h.updateHealthyCount
  · show (updateMetrics w url result elapsedMs).CoversCooldowns later
    unfold updateMetrics
    split
    · exact h
    · exact h.same rfl fun _ => rfl

end World.CoversCooldowns

/-! ## Startup and reloads -/

/-- Initialised gauges show zero.
Source: `config_reloader.rs` `initialize_endpoint_metrics` -/
theorem gauge_initializeAll {α : Type} (urlOf : α → String) (u : String) (l : List α) (m : Registry) :
    (l.foldl (fun m a => initializeEndpointMetrics (urlOf a) m) m).series .cooldownSecondsGauge [u] =
      if u ∈ l.map urlOf then some 0 else m.series .cooldownSecondsGauge [u] := by
  induction l generalizing m with
  | nil => rfl
  | cons a l ih =>
      have hone : (initializeEndpointMetrics (urlOf a) m).series .cooldownSecondsGauge [u] =
          if u = urlOf a then some 0 else m.series .cooldownSecondsGauge [u] := by
        simp [initializeEndpointMetrics, Registry.set, Registry.incBy, Registry.put]
      rw [List.foldl_cons, ih, hone]
      by_cases hu : u = urlOf a
      · simp [hu]
      · simp [hu]

/-- A record without a cooldown is covered by a gauge at zero. -/
theorem covers_of_zero {m : Registry} {url : String} {ep : RpcEndpoint} {now : Instant}
    (hm : m.series .cooldownSecondsGauge [url] = some 0) (hep : ep.cooldownUntil = none) :
    m.Covers url ep now := by
  refine ⟨0, hm, fun t _ => ?_⟩
  simp [RpcEndpoint.cooldownRemainingSecs, hep]

/-- Source: `balancer.rs` `LoadBalancer::new` -/
theorem coversCooldowns_of_new {lower : List Char → List Char} {config : Option Config} {path : String}
    {now : Instant} {w : World M} (h : LoadBalancer.new M lower config path now = some w) :
    w.CoversCooldowns now := by
  intro url ep hep
  have hinit : ep.vitals = .initial := vitals_of_new h (vitals_of_endpoint? hep)
  apply covers_of_zero
  · rw [prom_of_new h, gauge_initializeAll, if_pos]
    exact KeyedList.lookup_isSome_iff.mp (Option.isSome_of_eq_some hep)
  · exact congrArg Vitals.cooldownUntil hinit

/-- A reload keeps the cooldowns and gauges of known endpoints, and gives new ones a gauge at zero.
Source: `config_reloader.rs` `reload` -/
theorem World.CoversCooldowns.reload {w : World M} {later : Instant} (h : w.CoversCooldowns later)
    (P : Platform) (read : String → ReadResult) (now : Instant) :
    (AzothBalancer.reload P read w now).2.CoversCooldowns later := by
  rcases reload_cases P read w now with ⟨o, hreload, -⟩ | ⟨c, -, hc, hreload⟩
  · rw [hreload]
    exact h
  · rw [hreload]
    obtain ⟨s, eps, hmerge, hstep, hexec⟩ := execSections_reloadProgram_merge P now w hc
    rw [hexec]
    intro url ep hep
    have hprom : (reloadedRegistry c eps now s.prom).series .cooldownSecondsGauge [url] =
        s.prom.series .cooldownSecondsGauge [url] := by
      simp [reloadedRegistry, Registry.set, Registry.put]
    have hmem : ep ∈ eps := KeyedList.mem_of_lookup hep
    have hurl : ep.url = url := KeyedList.key_of_lookup hep
    obtain ⟨e, he, hrec⟩ := KeyedList.exists_left_of_forall₂ hstep.records hmem
    have heurl : e.url = url := hrec.config.1.symm.trans hurl
    have hmerged := mergeEndpoints_prom hmerge
    have hgauge := gauge_initializeAll EndpointConfig.url url
      (c.endpoints.filter fun e => ((w.lb.withClient c.client).endpoint? e.url).isNone)
      (mergeStartAlone P c w).prom
    rw [← hmerged] at hgauge
    rcases hrec with ⟨existing, weight, hknown, -⟩ | ⟨weight, r, hunknown, -⟩
    · rw [LoadBalancer.withClient_endpoint?, heurl] at hknown
      refine (h url existing hknown).same ?_ rfl
      rw [hprom, hgauge, if_neg]
      · -- the URL stays configured, so it is not cleaned up
        refine (series_cleanupAll _ _ _ _).trans (if_neg ?_)
        rintro ⟨-, removed, hremoved, hlabel⟩
        rw [diffSection, P.mem_hashOrder, Finset.mem_sdiff, List.mem_toFinset, List.mem_toFinset] at hremoved
        apply hremoved.2
        rw [← List.singleton_inj.mp hlabel, ← heurl]
        exact List.mem_map_of_mem he
      · intro hnew
        obtain ⟨e', he', heq⟩ := List.mem_map.mp hnew
        have hnone := (List.mem_filter.mp he').2
        rw [LoadBalancer.withClient_endpoint?, heq, hknown] at hnone
        cases hnone
    · apply covers_of_zero _ rfl
      rw [hprom, hgauge, if_pos]
      rw [← heurl]
      apply List.mem_map_of_mem
      rw [List.mem_filter, hunknown]
      exact ⟨he, rfl⟩

/-! ## Ticks -/

section tick

variable {readings : ℕ → Instant}

/-- The gauges of other URLs stay. -/
theorem gauge_setGauges_of_not_mem {url : String} : ∀ {eps : List RpcEndpoint} {i : ℕ} {m : Registry},
    url ∉ eps.map RpcEndpoint.url →
      (setGauges readings i eps m).series .cooldownSecondsGauge [url] = m.series .cooldownSecondsGauge [url]
  | [], _, _, _ => rfl
  | ep :: eps, i, m, h => by
      rw [List.map_cons, List.mem_cons, not_or] at h
      unfold setGauges
      rw [gauge_setGauges_of_not_mem h.2]
      exact Registry.gauge_put_of_url_ne h.1

/-- Over distinct URLs, every gauge shows what was left when the clock was read for it. -/
theorem gauge_setGauges (readings : ℕ → Instant) : ∀ {eps : List RpcEndpoint} {i : ℕ} {m : Registry},
    (eps.map RpcEndpoint.url).Nodup → ∀ j (hj : j < eps.length),
      (setGauges readings i eps m).series .cooldownSecondsGauge [eps[j].url] =
        some (eps[j].cooldownRemainingSecs (readings (i + j)) : ℤ)
  | ep :: eps, i, m, hnodup, 0, _ => by
      rw [List.map_cons, List.nodup_cons] at hnodup
      unfold setGauges
      rw [List.getElem_cons_zero, gauge_setGauges_of_not_mem hnodup.1]
      simp [Registry.set, Registry.put]
  | ep :: eps, i, m, hnodup, j + 1, hj => by
      rw [List.map_cons, List.nodup_cons] at hnodup
      have hrest := gauge_setGauges readings (i := i + 1)
        (m := m.set .cooldownSecondsGauge [ep.url] (ep.cooldownRemainingSecs (readings i))) hnodup.2 j
        (Nat.lt_of_succ_lt_succ hj)
      unfold setGauges
      rw [List.getElem_cons_succ, hrest, Nat.add_right_comm, Nat.add_assoc]

/-- A tick writes gauges only. -/
theorem sameStore_cooldownGaugeTick (w : World M) (readings : ℕ → Instant) :
    w.SameStore (cooldownGaugeTick w readings) := ⟨rfl, rfl, rfl⟩

/-- The gauges after a tick. -/
theorem gauge_cooldownGaugeTick {w : World M} (hnodup : (w.lb.endpoints.map RpcEndpoint.url).Nodup) (i : ℕ)
    (hi : i < w.lb.endpoints.length) :
    (cooldownGaugeTick w readings).prom.series .cooldownSecondsGauge [w.lb.endpoints[i].url] =
      some (w.lb.endpoints[i].cooldownRemainingSecs (readings i) : ℤ) := by
  have hset := gauge_setGauges readings (i := 0) (m := w.prom) hnodup i hi
  rw [Nat.zero_add] at hset
  rw [← hset]
  exact Registry.gauge_put_of_ne (by decide)

/-- A tick covers what is left from its last reading on. -/
theorem coversCooldowns_cooldownGaugeTick {w : World M} (hw : w.WellFormed) (hmono : Monotone readings) :
    (cooldownGaugeTick w readings).CoversCooldowns (readings w.lb.endpoints.length) := by
  intro url ep hep
  have hmem : ep ∈ w.lb.endpoints := KeyedList.mem_of_lookup hep
  have hurl : ep.url = url := KeyedList.key_of_lookup hep
  obtain ⟨i, hi, rfl⟩ := List.getElem_of_mem hmem
  refine ⟨_, hurl ▸ gauge_cooldownGaugeTick hw.nodup i hi, fun t ht => ?_⟩
  exact_mod_cast RpcEndpoint.cooldownRemainingSecs_le ((hmono hi.le).trans ht)

/-- Within a second of the reading, no more than one second has gone. -/
theorem cooldownRemainingSecs_le_succ (ep : RpcEndpoint) {now t : Instant}
    (ht : t ≤ now + nanosPerSec) :
    ep.cooldownRemainingSecs now ≤ ep.cooldownRemainingSecs t + 1 := by
  have hpos : 0 < nanosPerSec := by decide
  unfold RpcEndpoint.cooldownRemainingSecs
  split
  · rename_i until_ _
    have hleft : until_ - now ≤ until_ - t + nanosPerSec := by
      rw [Nat.sub_le_iff_le_add]
      calc until_ ≤ until_ - t + t := le_tsub_add
        _ ≤ until_ - t + (now + nanosPerSec) := Nat.add_le_add_left ht _
        _ = until_ - t + nanosPerSec + now := by rw [Nat.add_comm now, Nat.add_assoc]
    have hdiv : (until_ - now) / nanosPerSec ≤ (until_ - t) / nanosPerSec + 1 := by
      rw [← Nat.add_div_right _ hpos]
      exact Nat.div_le_div_right hleft
    split
    · split
      · exact hdiv
      · rename_i hover
        rwa [Nat.sub_eq_zero_of_le (not_lt.mp hover), Nat.zero_div] at hdiv
    · exact Nat.zero_le _
  · exact Nat.zero_le _

end tick

/-! ## Runs -/

/-- The command reads the clock no later than this. The time of a reload ends up in new records, which have
no cooldown. -/
def Command.ReadBy (later : Instant) : Command → Prop
  | .operation op => op.ReadBy later
  | .healthRound _ now => now ≤ later
  | .reload _ _ => True

/-- The sequential runs from a startup with ticks of the gauge updater among the commands: the world they lead
to, and the time by which its cooldowns and their gauges were written. A command may panic. -/
inductive GaugedRun (P : Platform) : World M → Instant → Prop where
  | start {config : Option Config} {path : String} {now : Instant} {w : World M} :
      LoadBalancer.new M P.toLowercase config path now = some w → GaugedRun P w now
  | command {w : World M} {now later : Instant} (cmd : Command) :
      GaugedRun P w now → now ≤ later → cmd.ReadBy later → GaugedRun P (w.perform P cmd).1 later
  | tick {w : World M} {now : Instant} (readings : ℕ → Instant) :
      GaugedRun P w now → Monotone readings → now ≤ readings 0 →
      GaugedRun P (cooldownGaugeTick w readings) (readings w.lb.endpoints.length)

/-- The store's invariant holds in every state of these runs. -/
theorem GaugedRun.invariant {P : Platform} {w : World M} {now : Instant} (h : GaugedRun P w now) :
    w.WellFormed ∧ w.Matched := by
  induction h with
  | start hnew =>
      obtain ⟨-, -, c, -, -, -, hstart⟩ := started_of_new hnew
      exact ⟨hstart.wellFormed, hstart.matched⟩
  | command cmd _ _ _ ih => exact invariant_perform P cmd ih.1 ih.2
  | @tick w _ readings _ _ _ ih =>
      have hkeeps := (sameStore_cooldownGaugeTick w readings).keeps
      exact ⟨hkeeps.wellFormed ih.1, hkeeps.matched ih.2⟩

/-- Every run keeps the cooldowns covered. -/
theorem GaugedRun.coversCooldowns {P : Platform} {w : World M} {now : Instant} (h : GaugedRun P w now) :
    w.CoversCooldowns now := by
  induction h with
  | start hnew => exact coversCooldowns_of_new hnew
  | command cmd _ hle hread ih =>
      have hlater := ih.mono hle
      rcases cmd with op | ⟨results, _⟩ | ⟨read, started⟩
      · exact hlater.exec op hread
      · exact hlater.performHealthChecks results hread
      · exact hlater.reload P read started
  | tick readings hrun hmono _ _ => exact coversCooldowns_cooldownGaugeTick hrun.invariant.1 hmono

/-- **The cooldown gauge never shows less than is left.** From every startup, for any selections, marks, health
rounds, reloads and ticks of the updater, one at a time on a clock that does not go back, panics included, the
gauge of every endpoint exists and shows at every later time at least the seconds its cooldown has left, until
something else happens. A tick brings every gauge up to date: within a second of the reading it is at most one
too high; the gauge of available endpoints counts them, each at a reading of its own.
Source: `utils/cooldown.rs` `trigger_cooldown`, `cooldown_gauge_updater`; `config_reloader.rs` `reload` -/
theorem gauge_covers {P : Platform} {w : World M} {now : Instant} (h : GaugedRun P w now) :
    (∀ ep ∈ w.lb.endpoints, ∃ shown : ℤ,
      w.prom.series .cooldownSecondsGauge [ep.url] = some shown ∧
        ∀ t, now ≤ t → (ep.cooldownRemainingSecs t : ℤ) ≤ shown) ∧
      ∀ readings : ℕ → Instant, Monotone readings →
        let w' := cooldownGaugeTick w readings
        (∀ i (hi : i < w.lb.endpoints.length), ∃ shown : ℕ,
          w'.prom.series .cooldownSecondsGauge [w.lb.endpoints[i].url] = some (shown : ℤ) ∧
            ∀ t, readings i ≤ t → t ≤ readings i + nanosPerSec →
              w.lb.endpoints[i].cooldownRemainingSecs t ≤ shown ∧
                shown ≤ w.lb.endpoints[i].cooldownRemainingSecs t + 1) ∧
          w'.prom.series .healthyEndpoints [] = some (countAvailable (fun i =>
            readings (w.lb.endpoints.length + i)) w.lb.endpoints : ℤ) := by
  have hwf := h.invariant.1
  refine ⟨fun ep hep => ?_, fun readings hmono => ⟨fun i hi => ?_, ?_⟩⟩
  · exact h.coversCooldowns ep.url ep (hwf.endpoint?_of_mem hep)
  · refine ⟨_, gauge_cooldownGaugeTick hwf.nodup i hi, fun t hle ht => ⟨?_, ?_⟩⟩
    · exact RpcEndpoint.cooldownRemainingSecs_le hle
    · exact cooldownRemainingSecs_le_succ _ ht
  · simp [cooldownGaugeTick, updateHealthyCountAt, Registry.set, Registry.put]

/-- `gauge_covers` after a 429 for the sample endpoint. -/
theorem gauge_covers_sample : ∃ ep ∈ limitedWorld.lb.endpoints, ∃ shown : ℤ,
    limitedWorld.prom.series .cooldownSecondsGauge [ep.url] = some shown ∧
      ∀ t, 5 ≤ t → (ep.cooldownRemainingSecs t : ℤ) ≤ shown := by
  have hne : limitedWorld.lb.endpoints ≠ [] := by decide
  have hrun : GaugedRun samplePlatform limitedWorld 5 := (GaugedRun.start new_sampleWorld).command
    (.operation (.markRateLimited "http://a" 5)) (Nat.zero_le 5) le_rfl
  exact ⟨_, List.head_mem hne, (gauge_covers hrun).1 _ (List.head_mem hne)⟩

-- before the next tick the gauge may show more than is left
example : limitedWorld.prom.value .cooldownSecondsGauge ["http://a"] = 6 ∧
    limitedWorld.lb.endpoints.map (fun ep => ep.cooldownRemainingSecs 3000000005) = [3] := by decide +kernel

end AzothBalancer
