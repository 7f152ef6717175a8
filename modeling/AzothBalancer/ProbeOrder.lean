import AzothBalancer.Instances
import AzothBalancer.OwnMetrics

/-!
# The order of probe results

The results of a health round arrive in the order in which the probes complete. Each is entered into the
record of its own endpoint, its metrics object and its failure count (`HealthEntry`), and into no other, so
the order does not matter as long as all results are applied. They are unless `trigger_cooldown` panics on
one: then the results after it are lost.

* `healthEntry_applyProbes` — the write section, at one URL: the URL's own result, if it is reached.
* `probe_order_iff` — all orders lead to the same endpoints and counts exactly if no result overflows the
  clock, or all others change nothing. `probe_order_matters` is a round in which the order shows.
-/

namespace AzothBalancer

variable {M : Meter}

/-- URLs are pairwise distinct, and so are metrics objects. -/
structure World.Separate (w : World M) : Prop where
  urls : (w.lb.endpoints.map RpcEndpoint.url).Nodup
  metrics : OwnMetrics w.lb.endpoints

/-- Every reachable world is such. -/
theorem World.Reachable.separate {P : Platform} {w : World M} (h : w.Reachable P) : w.Separate :=
  ⟨h.wellFormed.nodup, h.ownMetrics⟩

/-- The frame of an operation keeps URLs and objects distinct. -/
theorem World.Keeps.separate {w w' : World M} (h : w.Keeps w') (hw : w.Separate) : w'.Separate :=
  ⟨h.urls ▸ hw.urls, h.ownMetrics hw.metrics⟩

/-- All that a probe result of an endpoint is entered into: its record, its metrics object and its count of
failed health checks. -/
structure HealthEntry where
  endpoint : RpcEndpoint
  metrics : Option EndpointMetrics
  failed : ℤ

/-- The entry of a listed URL. -/
def World.healthEntry (w : World M) (url : String) : Option HealthEntry :=
  (w.lb.endpoint? url).map fun ep =>
    ⟨ep, w.metrics.get? ep.metrics, w.prom.value .healthcheckFailed [url]⟩

/-- The same endpoints, with the same metrics, and the same counts of failed health checks. -/
structure World.SameHealth (w w' : World M) : Prop where
  endpoints : w'.lb.endpoints = w.lb.endpoints
  metrics : ∀ ep ∈ w.lb.endpoints, w'.metrics.get? ep.metrics = w.metrics.get? ep.metrics
  failed : ∀ labels, w'.prom.value .healthcheckFailed labels = w.prom.value .healthcheckFailed labels

/-! ## One result -/

/-- What the write section has read before its loop. -/
structure ProbeSection where
  base : ℕ
  max_ : ℕ
  timeoutMs : ℕ
  now : Instant
  smoothing : F64

/-- The write section of a round in a world.
Source: `utils/health.rs` `perform_health_checks` -/
def World.probeSection (w : World M) (timeoutMs : ℕ) (now : Instant) : ProbeSection :=
  ⟨w.lb.baseCooldownSecs, w.lb.maxCooldownSecs, timeoutMs, now, w.lb.latencySmoothingFactor⟩

/-- The record after a probe result. -/
def RpcEndpoint.probed (ep : RpcEndpoint) (s : ProbeSection) (isHealthy : Bool) : RpcEndpoint :=
  let checked := { ep with healthy := isHealthy, lastCheck := s.now }
  if isHealthy then
    if ep.healthy then checked else { checked with cooldownAttempts := 0, cooldownUntil := none }
  else if ep.healthy then (triggerCooldown checked s.base s.max_ s.now).1 else checked

/-- The metrics of an endpoint after its probe result. -/
def EndpointMetrics.probed (m : EndpointMetrics) (ep : RpcEndpoint) (s : ProbeSection)
    (isHealthy : Bool) : EndpointMetrics :=
  if isHealthy then
    if ep.healthy then m
    else
      { m with
        consecutiveFailures := 0
        emaErrorPenaltyMs := EndpointMetrics.updateEma m.emaErrorPenaltyMs 0 (.finite (1 / 2)) }
  else m.update (.failure .timeout s.timeoutMs) s.smoothing

/-- The entry after a probe result. -/
def HealthEntry.probed (x : HealthEntry) (s : ProbeSection) (isHealthy : Bool) : HealthEntry where
  endpoint := x.endpoint.probed s isHealthy
  metrics := x.metrics.map fun m => m.probed x.endpoint s isHealthy
  failed := x.failed + if isHealthy then 0 else 1

section probed

variable {ep : RpcEndpoint} {s : ProbeSection} {isHealthy : Bool}

/-- A result keeps the URL. -/
@[simp] theorem RpcEndpoint.probed_url : (ep.probed s isHealthy).url = ep.url := by
  unfold probed
  split
  · split <;> rfl
  · split
    · exact triggerCooldown_url ..
    · rfl

/-- A result keeps the metrics object. -/
@[simp] theorem RpcEndpoint.probed_metrics : (ep.probed s isHealthy).metrics = ep.metrics := by
  unfold probed
  split
  · split <;> rfl
  · split
    · exact triggerCooldown_metrics ..
    · rfl

end probed

section one

variable {w : World M} {url : String} {ep : RpcEndpoint} {s : ProbeSection} {isHealthy : Bool}

/-- A trigger writes no metrics object and counts no failed check. -/
theorem cooldownEndpoint_frame (w : World M) (ep : RpcEndpoint) (prepare : RpcEndpoint → RpcEndpoint)
    (base max_ : ℕ) (now : Instant) (labels : List String) :
    (cooldownEndpoint w ep prepare base max_ now).1.metrics = w.metrics ∧
      (cooldownEndpoint w ep prepare base max_ now).1.prom.value .healthcheckFailed labels =
        w.prom.value .healthcheckFailed labels := by
  unfold cooldownEndpoint
  dsimp only
  split
  · exact ⟨rfl, by simp [publishCooldown]⟩
  · exact ⟨rfl, rfl⟩

/-- **One result, on a listed URL**: its record is rewritten, and no other.
Source: `utils/health.rs` `perform_health_checks`, the body of the loop over `updates` -/
theorem applyProbe_endpoint? (hep : w.lb.endpoint? url = some ep) (u : String) :
    (applyProbe s.base s.max_ s.timeoutMs s.now w (url, isHealthy)).1.lb.endpoint? u =
      if u = url then some (ep.probed s isHealthy) else w.lb.endpoint? u := by
  unfold applyProbe RpcEndpoint.probed
  simp only [hep]
  split
  · split
    · apply endpoint?_updateEndpoint hep
      intro e
      rfl
    · apply endpoint?_updateEndpoint hep
      intro e
      rfl
  · have hfail : (recordFailedProbe w url ep s.timeoutMs).lb.endpoint? url = some ep := hep
    split
    · apply endpoint?_cooldownEndpoint hfail
      intro e
      rfl
    · apply endpoint?_updateEndpoint hep
      intro e
      rfl

/-- Its metrics object is rewritten, and no other. -/
theorem applyProbe_metrics (hs : s.smoothing = w.lb.latencySmoothingFactor)
    (hep : w.lb.endpoint? url = some ep) (r : MetricsRef) :
    (applyProbe s.base s.max_ s.timeoutMs s.now w (url, isHealthy)).1.metrics.get? r =
      if r = ep.metrics then (w.metrics.get? r).map fun m => m.probed ep s isHealthy
      else w.metrics.get? r := by
  unfold applyProbe EndpointMetrics.probed
  simp only [hep]
  split
  · split
    · simp
    · exact RefHeap.get?_modify
  · rw [hs]
    split
    · rw [(cooldownEndpoint_frame _ _ _ _ _ _ []).1]
      exact RefHeap.get?_modify
    · exact RefHeap.get?_modify

/-- Its count of failed checks goes up if it failed, and no other. -/
theorem applyProbe_failed (hep : w.lb.endpoint? url = some ep) (labels : List String) :
    (applyProbe s.base s.max_ s.timeoutMs s.now w (url, isHealthy)).1.prom.value .healthcheckFailed labels =
      w.prom.value .healthcheckFailed labels + if isHealthy = false ∧ labels = [url] then 1 else 0 := by
  unfold applyProbe
  simp only [hep]
  split
  · rename_i hh
    rw [hh]
    split <;> exact (add_zero _).symm
  · rename_i hh
    have hfail : (recordFailedProbe w url ep s.timeoutMs).prom.value .healthcheckFailed labels =
        w.prom.value .healthcheckFailed labels + if isHealthy = false ∧ labels = [url] then 1 else 0 := by
      simp [recordFailedProbe, hh]
    split
    · rw [(cooldownEndpoint_frame _ _ _ _ _ _ labels).2, hfail]
    · exact hfail

/-- A result for a URL that is not listed changes nothing.
Source: `utils/health.rs` `perform_health_checks`, the body of the loop over `updates` -/
theorem applyProbe_of_unlisted (hep : w.lb.endpoint? url = none) :
    applyProbe s.base s.max_ s.timeoutMs s.now w (url, isHealthy) = (w, false) := by
  unfold applyProbe
  simp only [hep]

/-- **One result, at one URL.** The objects of other records are others. -/
theorem healthEntry_applyProbe (hw : w.Separate) (hs : s.smoothing = w.lb.latencySmoothingFactor)
    (r : String × Bool) (u : String) :
    (applyProbe s.base s.max_ s.timeoutMs s.now w r).1.healthEntry u =
      if u = r.1 then (w.healthEntry u).map fun x => x.probed s r.2 else w.healthEntry u := by
  obtain ⟨url, isHealthy⟩ := r
  dsimp only
  rcases hep : w.lb.endpoint? url with _ | ep
  · rw [applyProbe_of_unlisted hep]
    split
    · rename_i hu
      unfold World.healthEntry
      rw [hu, hep]
      rfl
    · rfl
  · unfold World.healthEntry
    rw [applyProbe_endpoint? hep]
    by_cases hu : u = url
    · subst hu
      rw [if_pos rfl, if_pos rfl, hep, Option.map_some, Option.map_some, Option.map_some,
        RpcEndpoint.probed_metrics, applyProbe_metrics hs hep, if_pos rfl, applyProbe_failed hep]
      cases isHealthy <;> simp [HealthEntry.probed]
    · rw [if_neg hu, if_neg hu]
      rcases hep' : w.lb.endpoint? u with _ | ep'
      · rfl
      · have hne : ep'.metrics ≠ ep.metrics := by
          intro heq
          have hsame := hw.metrics.eq_of_metrics (KeyedList.mem_of_lookup hep')
            (KeyedList.mem_of_lookup hep) heq
          apply hu
          rw [← KeyedList.key_of_lookup hep', hsame, KeyedList.key_of_lookup hep]
        rw [Option.map_some, Option.map_some, applyProbe_metrics hs hep, if_neg hne,
          applyProbe_failed hep, if_neg (by simp [hu]), add_zero]

end one

/-! ## All results -/

section all

variable {w w₁ w₂ : World M} {results : List (String × Bool)}

/-- A result is entered for the first panic, too. -/
theorem applyProbes_cons (base max_ timeoutMs : ℕ) (now : Instant) (r : String × Bool)
    (rest : List (String × Bool)) (w : World M) :
    applyProbes base max_ timeoutMs now (r :: rest) w =
      if w.lb.vitals.overflows base max_ now r then applyProbe base max_ timeoutMs now w r
      else applyProbes base max_ timeoutMs now rest (applyProbe base max_ timeoutMs now w r).1 := by
  have hpanic : (applyProbe base max_ timeoutMs now w r).2 = w.lb.vitals.overflows base max_ now r := by
    rw [← HealthTable.step_probe_snd]
    exact congrArg Prod.snd (applyProbe_refines base max_ timeoutMs now w r)
  rw [applyProbes, ← hpanic]
  rcases applyProbe base max_ timeoutMs now w r with ⟨w', panicked⟩
  cases panicked <;> rfl

/-- **The write section, at one URL**: its own result, if it is reached.
The induction is on the results; the section goes on with the world after the first, in which the other
URLs have the entries they had.
Source: `utils/health.rs` `perform_health_checks` -/
theorem healthEntry_applyProbes (s : ProbeSection) (hw : w.Separate)
    (hs : s.smoothing = w.lb.latencySmoothingFactor) (hn : (results.map Prod.fst).Nodup) (url : String) :
    (applyProbes s.base s.max_ s.timeoutMs s.now results w).1.healthEntry url =
      (w.healthEntry url).map fun x =>
        (KeyedList.lookup Prod.fst url (w.lb.vitals.reached s.base s.max_ s.now results)).elim x
          fun r => x.probed s r.2 := by
  induction results generalizing w with
  | nil => exact (Option.map_id' (x := w.healthEntry url)).symm
  | cons r rest ih =>
      rw [List.map_cons, List.nodup_cons] at hn
      have hone := healthEntry_applyProbe hw hs r url
      rw [applyProbes_cons, HealthTable.reached, KeyedList.lookup_cons]
      by_cases ho : w.lb.vitals.overflows s.base s.max_ s.now r = true
      · rw [if_pos ho, if_pos ho, hone]
        by_cases hu : r.1 = url
        · rw [if_pos hu, if_pos hu.symm]
          rfl
        · rw [if_neg hu, if_neg (Ne.symm hu), KeyedList.lookup_nil]
          exact (Option.map_id' (x := w.healthEntry url)).symm
      · have hk := keeps_applyProbe s.base s.max_ s.timeoutMs s.now w r
        have hvitals : (applyProbe s.base s.max_ s.timeoutMs s.now w r).1.lb.vitals =
            (w.lb.vitals.step s.base s.max_ (r.1, .probe r.2 s.now)).1 :=
          congrArg Prod.fst (applyProbe_refines s.base s.max_ s.timeoutMs s.now w r)
        have hreached : (applyProbe s.base s.max_ s.timeoutMs s.now w r).1.lb.vitals.reached s.base s.max_
            s.now rest = w.lb.vitals.reached s.base s.max_ s.now rest := by
          rw [hvitals]
          exact HealthTable.reached_congr fun r' hr' =>
            HealthTable.overflows_congr (HealthTable.step_probe_of_not_mem hn.1 r' hr')
        have hsmoothing : s.smoothing =
            (applyProbe s.base s.max_ s.timeoutMs s.now w r).1.lb.latencySmoothingFactor := by
          rw [hk.lb]
          exact hs
        rw [if_neg ho, if_neg ho, ih (hk.separate hw) hsmoothing hn.2, hreached, hone]
        by_cases hu : r.1 = url
        · have hnone : KeyedList.lookup Prod.fst url (w.lb.vitals.reached s.base s.max_ s.now rest) =
              none := by
            rw [KeyedList.lookup_eq_none_iff, ← hu]
            intro hmem
            exact hn.1 (((HealthTable.reached_sublist rest).map Prod.fst).subset hmem)
          rw [hnone, if_pos hu, if_pos hu.symm, Option.map_map]
          rfl
        · rw [if_neg hu, if_neg (Ne.symm hu)]

/-- The counts of other label values than those of listed URLs stay. -/
theorem failed_applyProbes (s : ProbeSection) (results : List (String × Bool)) {labels : List String}
    (h : ∀ url, labels = [url] → w.lb.endpoint? url = none) :
    (applyProbes s.base s.max_ s.timeoutMs s.now results w).1.prom.value .healthcheckFailed labels =
      w.prom.value .healthcheckFailed labels := by
  induction results generalizing w with
  | nil => rfl
  | cons r rest ih =>
      obtain ⟨url, isHealthy⟩ := r
      have hone : (applyProbe s.base s.max_ s.timeoutMs s.now w (url, isHealthy)).1.prom.value
          .healthcheckFailed labels = w.prom.value .healthcheckFailed labels := by
        rcases hep : w.lb.endpoint? url with _ | ep
        · rw [applyProbe_of_unlisted hep]
        · rw [applyProbe_failed hep, if_neg, add_zero]
          rintro ⟨-, rfl⟩
          rw [h url rfl] at hep
          cases hep
      have hnone : ∀ u, labels = [u] →
          (applyProbe s.base s.max_ s.timeoutMs s.now w (url, isHealthy)).1.lb.endpoint? u = none := by
        intro u hu
        rw [(keeps_applyProbe s.base s.max_ s.timeoutMs s.now w (url, isHealthy)).endpoint?_eq_none]
        exact h u hu
      rw [applyProbes_cons]
      split
      · exact hone
      · rw [ih hnone, hone]

/-- In the frame of a world, the entries tell its continuations apart. -/
theorem sameHealth_iff (hw : w.Separate) (h₁ : w.Keeps w₁) (h₂ : w.Keeps w₂)
    (hother : ∀ labels, (∀ url, labels = [url] → w.lb.endpoint? url = none) →
      w₂.prom.value .healthcheckFailed labels = w₁.prom.value .healthcheckFailed labels) :
    w₁.SameHealth w₂ ↔ ∀ url, w₂.healthEntry url = w₁.healthEntry url := by
  constructor
  · intro h url
    have hep : w₂.lb.endpoint? url = w₁.lb.endpoint? url := by
      unfold LoadBalancer.endpoint?
      rw [h.endpoints]
    unfold World.healthEntry
    rw [hep]
    rcases hfound : w₁.lb.endpoint? url with _ | ep
    · rfl
    · rw [Option.map_some, Option.map_some, h.metrics ep (KeyedList.mem_of_lookup hfound), h.failed]
  · intro h
    have hfound : ∀ url, w₂.lb.endpoint? url = w₁.lb.endpoint? url := by
      intro url
      have hurl := congrArg (Option.map HealthEntry.endpoint) (h url)
      simpa [World.healthEntry, Function.comp_def] using hurl
    refine ⟨?_, ?_, ?_⟩
    · exact KeyedList.ext_lookup (h₂.urls.trans h₁.urls.symm) (h₁.separate hw).urls hfound
    · intro ep hep
      have hown : w₁.lb.endpoint? ep.url = some ep := KeyedList.lookup_of_mem (h₁.separate hw).urls hep
      have hentry := h ep.url
      unfold World.healthEntry at hentry
      rw [hfound, hown, Option.map_some, Option.map_some, Option.some.injEq] at hentry
      exact congrArg HealthEntry.metrics hentry
    · intro labels
      by_cases hlisted : ∃ url ep, labels = [url] ∧ w₁.lb.endpoint? url = some ep
      · obtain ⟨url, ep, rfl, hep⟩ := hlisted
        have hentry := h url
        unfold World.healthEntry at hentry
        rw [hfound, hep, Option.map_some, Option.map_some, Option.some.injEq] at hentry
        exact congrArg HealthEntry.failed hentry
      · apply hother
        intro url hurl
        have hnone : w₁.lb.endpoint? url = none := by
          rw [Option.eq_none_iff_forall_ne_some]
          exact fun ep hep => hlisted ⟨url, ep, hurl, hep⟩
        exact h₁.endpoint?_eq_none.mp hnone

end all

/-! ## The order -/

/-- The result changes nothing: its URL is not listed, or it finds a healthy endpoint healthy that has been
checked at this very time. -/
def World.Idle (w : World M) (now : Instant) (r : String × Bool) : Prop :=
  ∀ ep ∈ w.lb.endpoint? r.1, r.2 = true ∧ ep.healthy = true ∧ ep.lastCheck = now

instance (w : World M) (now : Instant) (r : String × Bool) : Decidable (w.Idle now r) :=
  inferInstanceAs (Decidable (∀ ep ∈ w.lb.endpoint? r.1, _))

/-- The result asks for a cooldown that does not fit the clock. -/
def World.Overflows (w : World M) (now : Instant) (r : String × Bool) : Prop :=
  w.lb.vitals.overflows w.lb.baseCooldownSecs w.lb.maxCooldownSecs now r = true

instance (w : World M) (now : Instant) (r : String × Bool) : Decidable (w.Overflows now r) :=
  inferInstanceAs (Decidable (_ = true))

/-- A result that overflows leaves all others idle. -/
def World.Undisturbed (w : World M) (now : Instant) (results : List (String × Bool)) : Prop :=
  ∀ r ∈ results, w.Overflows now r → ∀ r' ∈ results, r' ≠ r → w.Idle now r'

instance (w : World M) (now : Instant) (results : List (String × Bool)) :
    Decidable (w.Undisturbed now results) :=
  inferInstanceAs (Decidable (∀ r ∈ results, _ → ∀ r' ∈ results, _))

namespace HealthTable

variable {base max_ : ℕ} {now : Instant} {t : HealthTable} {results : List (String × Bool)}
  {r : String × Bool}

/-- A result is reached, or another one overflows. -/
theorem exists_overflows_of_not_reached (hr : r ∈ results) (h : r ∉ t.reached base max_ now results) :
    ∃ r' ∈ results, r' ≠ r ∧ t.overflows base max_ now r' = true := by
  induction results with
  | nil => cases hr
  | cons r₀ rest ih =>
      rw [reached, List.mem_cons, not_or] at h
      obtain ⟨hne, hrest⟩ := h
      by_cases ho : t.overflows base max_ now r₀ = true
      · exact ⟨r₀, List.mem_cons_self, Ne.symm hne, ho⟩
      · rw [if_neg ho] at hrest
        obtain ⟨r', hr', hne', ho'⟩ := ih ((List.mem_cons.mp hr).resolve_left hne) hrest
        exact ⟨r', List.mem_cons_of_mem _ hr', hne', ho'⟩

end HealthTable

section order

variable {w : World M} {results : List (String × Bool)} {r : String × Bool} {now : Instant}

/-- **A result is idle exactly if it leaves the entry of its URL as it is.** -/
theorem idle_iff (timeoutMs : ℕ) : w.Idle now r ↔
    ((w.healthEntry r.1).map fun x => x.probed (w.probeSection timeoutMs now) r.2) =
      w.healthEntry r.1 := by
  unfold World.Idle World.healthEntry
  rcases w.lb.endpoint? r.1 with _ | ep
  · simp
  · simp only [Option.mem_some_iff, forall_eq', Option.map_some, Option.some.injEq]
    constructor
    · rintro ⟨hr, hh, hcheck⟩
      have hrecord : ep.probed (w.probeSection timeoutMs now) true = ep := by
        unfold RpcEndpoint.probed
        rw [if_pos rfl, if_pos hh]
        show ({ ep with healthy := true, lastCheck := now } : RpcEndpoint) = ep
        rw [← hh, ← hcheck]
      have hmetrics : ∀ m : EndpointMetrics, m.probed ep (w.probeSection timeoutMs now) true = m := by
        intro m
        unfold EndpointMetrics.probed
        rw [if_pos rfl, if_pos hh]
      simp [HealthEntry.probed, hr, hrecord, hmetrics]
    · intro h
      have hfailed := congrArg HealthEntry.failed h
      have hendpoint := congrArg HealthEntry.endpoint h
      have hr : r.2 = true := by
        by_contra hr
        simp [HealthEntry.probed, hr] at hfailed
      change ep.probed (w.probeSection timeoutMs now) r.2 = ep at hendpoint
      have hchecked : (ep.probed (w.probeSection timeoutMs now) r.2).healthy = true ∧
          (ep.probed (w.probeSection timeoutMs now) r.2).lastCheck = now := by
        unfold RpcEndpoint.probed
        rw [hr, if_pos rfl]
        split <;> exact ⟨rfl, rfl⟩
      rw [hendpoint] at hchecked
      exact ⟨hr, hchecked⟩

/-- The write section, at one URL: its own result. Where it is not reached, it would change nothing. -/
theorem healthEntry_of_undisturbed (hw : w.Separate) (hn : (results.map Prod.fst).Nodup)
    (h : w.Undisturbed now results) (timeoutMs : ℕ) (url : String) :
    (applyHealthResults w results timeoutMs now).1.healthEntry url = (w.healthEntry url).map fun x =>
      (KeyedList.lookup Prod.fst url results).elim x fun r =>
        x.probed (w.probeSection timeoutMs now) r.2 := by
  have hsub : (w.lb.vitals.reached w.lb.baseCooldownSecs w.lb.maxCooldownSecs now results).Sublist
      results := HealthTable.reached_sublist results
  refine (healthEntry_applyProbes (w.probeSection timeoutMs now) hw rfl hn url).trans ?_
  show (w.healthEntry url).map (fun x => (KeyedList.lookup Prod.fst url (w.lb.vitals.reached
    w.lb.baseCooldownSecs w.lb.maxCooldownSecs now results)).elim x _) = _
  rcases hreached : KeyedList.lookup Prod.fst url (w.lb.vitals.reached w.lb.baseCooldownSecs
      w.lb.maxCooldownSecs now results) with _ | r
  · rcases hlook : KeyedList.lookup Prod.fst url results with _ | r
    · rfl
    · have hr := KeyedList.mem_of_lookup hlook
      have hurl : r.1 = url := KeyedList.key_of_lookup hlook
      have hnot : r ∉ w.lb.vitals.reached w.lb.baseCooldownSecs w.lb.maxCooldownSecs now results := by
        intro hmem
        rw [KeyedList.lookup_eq_none_iff, ← hurl] at hreached
        exact hreached (List.mem_map_of_mem hmem)
      obtain ⟨r', hr', hne, ho⟩ := HealthTable.exists_overflows_of_not_reached hr hnot
      have hidle := (idle_iff timeoutMs).mp (h r' hr' ho r hr (Ne.symm hne))
      rw [hurl] at hidle
      exact (Option.map_id' (x := w.healthEntry url)).trans hidle.symm
  · have hin := hsub.subset (KeyedList.mem_of_lookup hreached)
    have hurl : r.1 = url := KeyedList.key_of_lookup hreached
    rw [← hurl, KeyedList.lookup_of_mem hn hin]

/-- After any order, the health is that of another exactly if the entries are. -/
theorem sameHealth_applyHealthResults (hw : w.Separate) (timeoutMs : ℕ)
    (results results' : List (String × Bool)) :
    (applyHealthResults w results timeoutMs now).1.SameHealth
        (applyHealthResults w results' timeoutMs now).1 ↔
      ∀ url, (applyHealthResults w results' timeoutMs now).1.healthEntry url =
        (applyHealthResults w results timeoutMs now).1.healthEntry url := by
  apply sameHealth_iff hw (keeps_of_applyHealthResults rfl) (keeps_of_applyHealthResults rfl)
  intro labels hlabels
  exact (failed_applyProbes (w.probeSection timeoutMs now) results' hlabels).trans
    (failed_applyProbes (w.probeSection timeoutMs now) results hlabels).symm

/-- A result that comes first is entered, whatever follows. -/
theorem healthEntry_of_first (hw : w.Separate) {rest : List (String × Bool)}
    (hn : ((r :: rest).map Prod.fst).Nodup) (timeoutMs : ℕ) (now : Instant) :
    (applyHealthResults w (r :: rest) timeoutMs now).1.healthEntry r.1 =
      (w.healthEntry r.1).map fun x => x.probed (w.probeSection timeoutMs now) r.2 := by
  refine (healthEntry_applyProbes (w.probeSection timeoutMs now) hw rfl hn r.1).trans ?_
  rw [HealthTable.reached, KeyedList.lookup_cons, if_pos rfl]
  rfl

/-- After a result that overflows, no other is entered. -/
theorem healthEntry_of_overflows (hw : w.Separate) {rest : List (String × Bool)}
    (hn : ((r :: rest).map Prod.fst).Nodup) (ho : w.Overflows now r) (timeoutMs : ℕ) {url : String}
    (hurl : url ≠ r.1) :
    (applyHealthResults w (r :: rest) timeoutMs now).1.healthEntry url = w.healthEntry url := by
  refine (healthEntry_applyProbes (w.probeSection timeoutMs now) hw rfl hn url).trans ?_
  have hcut : w.lb.vitals.reached (w.probeSection timeoutMs now).base (w.probeSection timeoutMs now).max_
      (w.probeSection timeoutMs now).now (r :: rest) = [r] := by
    rw [HealthTable.reached]
    exact congrArg (List.cons r) (if_pos ho)
  rw [hcut, KeyedList.lookup_cons, if_neg (Ne.symm hurl)]
  exact Option.map_id' (x := w.healthEntry url)

end order

/-- Results for URLs that are not listed change nothing.
Source: `utils/health.rs` `perform_health_checks` -/
theorem applyProbes_filter (base max_ timeoutMs : ℕ) (now : Instant) :
    ∀ (results : List (String × Bool)) (w : World M),
      applyProbes base max_ timeoutMs now
          (results.filter fun r => r.1 ∈ w.lb.endpoints.map RpcEndpoint.url) w =
        applyProbes base max_ timeoutMs now results w
  | [], _ => rfl
  | r :: rest, w => by
      have hurls := (keeps_applyProbe base max_ timeoutMs now w r).urls
      have hrest := applyProbes_filter base max_ timeoutMs now rest
      by_cases hlisted : r.1 ∈ w.lb.endpoints.map RpcEndpoint.url
      · rw [List.filter_cons_of_pos (by simpa using hlisted), applyProbes_cons, applyProbes_cons,
          ← hrest, hurls]
      · have hnone : w.lb.endpoint? r.1 = none := KeyedList.lookup_eq_none_iff.mpr hlisted
        have hskip : applyProbe base max_ timeoutMs now w r = (w, false) := by
          unfold applyProbe
          simp only [hnone]
        rw [List.filter_cons_of_neg (by simpa using hlisted), hrest, applyProbes, hskip]

/-- **When the order of the results does not matter.** On endpoints with distinct URLs and metrics objects
of their own, all orders of probe results for distinct URLs lead to the same endpoints, with the same
metrics, and the same counts of failed health checks, exactly if a result whose cooldown does not fit the
clock leaves all others idle: for URLs that are not listed, or finding a healthy endpoint healthy that has
been checked at this very time. In every case, results for URLs that are not listed change nothing at all,
and endpoints without a result are left as they are.
Source: `utils/health.rs` `perform_health_checks`; `utils/cooldown.rs` `trigger_cooldown` -/
theorem probe_order_iff {w : World M} (hw : w.Separate) {results : List (String × Bool)}
    (hn : (results.map Prod.fst).Nodup) (timeoutMs : ℕ) (now : Instant) :
    ((∀ results', results'.Perm results → (applyHealthResults w results timeoutMs now).1.SameHealth
        (applyHealthResults w results' timeoutMs now).1) ↔ w.Undisturbed now results) ∧
    applyHealthResults w (results.filter fun r => r.1 ∈ w.lb.endpoints.map RpcEndpoint.url) timeoutMs now =
      applyHealthResults w results timeoutMs now ∧
    ∀ url, url ∉ results.map Prod.fst →
      (applyHealthResults w results timeoutMs now).1.healthEntry url = w.healthEntry url := by
  refine ⟨⟨fun h => ?_, fun h results' hp => ?_⟩, ?_, fun url hurl => ?_⟩
  · -- one order with the overflow first, one with the other result first
    intro r hr ho r' hr' hne
    have hnodup : ∀ {l : List (String × Bool)}, l.Perm results → (l.map Prod.fst).Nodup :=
      fun hp => (hp.map Prod.fst).nodup_iff.mpr hn
    have hfirst := (List.perm_cons_erase hr).symm
    have hother := (List.perm_cons_erase hr').symm
    have hurl : r'.1 ≠ r.1 := fun heq => hne (List.inj_on_of_nodup_map hn hr' hr heq)
    have hcut := healthEntry_of_overflows hw (hnodup hfirst) ho timeoutMs hurl
    have hentered := healthEntry_of_first hw (hnodup hother) timeoutMs now
    have hsame := fun {l : List (String × Bool)} (hp : l.Perm results) =>
      (sameHealth_applyHealthResults hw timeoutMs results l).mp (h l hp) r'.1
    rw [idle_iff timeoutMs, ← hentered, hsame hother, ← hsame hfirst, hcut]
  · rw [sameHealth_applyHealthResults hw]
    intro url
    have hn' : (results'.map Prod.fst).Nodup := (hp.map Prod.fst).nodup_iff.mpr hn
    have h' : w.Undisturbed now results' := fun r hr ho r' hr' =>
      h r (hp.subset hr) ho r' (hp.subset hr')
    rw [healthEntry_of_undisturbed hw hn h, healthEntry_of_undisturbed hw hn' h',
      KeyedList.lookup_perm hp hn]
  · exact applyProbes_filter _ _ _ _ results w
  · refine (healthEntry_applyProbes (w.probeSection timeoutMs now) hw rfl hn url).trans ?_
    have hnone : KeyedList.lookup Prod.fst url (w.lb.vitals.reached (w.probeSection timeoutMs now).base
        (w.probeSection timeoutMs now).max_ (w.probeSection timeoutMs now).now results) = none := by
      rw [KeyedList.lookup_eq_none_iff]
      exact fun hmem => hurl (((HealthTable.reached_sublist results).map Prod.fst).subset hmem)
    rw [hnone]
    exact Option.map_id' (x := w.healthEntry url)

/-- The startup from a file with two endpoints, `http://a` and `http://b`, and one bound for both ends of
the backoff. -/
def pairStartup (cooldownSecs : Option ℕ) : Option (World leakyBucket) :=
  LoadBalancer.new leakyBucket asciiLowercase
    (some { balancer := some {
      baseCooldownSecs := cooldownSecs
      maxCooldownSecs := cooldownSecs
      endpoints := some [sampleEndpoint, otherEndpoint] } }) "config.toml" 0

/-- The world of such a startup is reachable. -/
theorem reachable_pairStartup (cooldownSecs : Option ℕ) (h : (pairStartup cooldownSecs).isSome) :
    ((pairStartup cooldownSecs).get h).Reachable samplePlatform :=
  World.reachable_of_new (Option.some_get h).symm

/-- `probe_order_iff` for a failure, a success and a result for a URL that is not listed, the other way
round. -/
theorem probe_order_iff_sample :
    (applyHealthResults ((pairStartup none).get (by decide)) [("http://a", false), ("http://b", true),
        ("http://c", false)] 5000 1000000000).1.SameHealth
      (applyHealthResults ((pairStartup none).get (by decide)) [("http://c", false), ("http://b", true),
        ("http://a", false)] 5000 1000000000).1 := by
  have hsep := (reachable_pairStartup none (by decide)).separate
  apply (probe_order_iff hsep (by decide) 5000 1000000000).1.mpr
  · decide
  · decide

/-- **The order of two failed probes shows**, where the cooldown does not fit the clock: only the first is
entered.
Source: `utils/health.rs` `perform_health_checks`; `utils/cooldown.rs` `trigger_cooldown` -/
theorem probe_order_matters : ¬ ∀ (w : World leakyBucket) (results results' : List (String × Bool))
    (timeoutMs : ℕ) (now : Instant), w.Reachable samplePlatform → (results.map Prod.fst).Nodup →
      results'.Perm results → (applyHealthResults w results timeoutMs now).1.SameHealth
        (applyHealthResults w results' timeoutMs now).1 := by
  intro h
  have hsame := h ((pairStartup (some (2 ^ 63 - 1))).get (by decide))
    [("http://a", false), ("http://b", false)] [("http://b", false), ("http://a", false)] 5000 1000000000
    (reachable_pairStartup _ (by decide)) (by decide) (List.Perm.swap _ _ _)
  have hdown := congrArg (List.map RpcEndpoint.healthy) hsame.endpoints
  revert hdown
  decide

end AzothBalancer
