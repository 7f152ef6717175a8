import AzothBalancer.Forwarder
import AzothBalancer.HealthMachine
import AzothBalancer.SelectionSpec

/-!
# The operations between reloads

`Operation` collects the atomic steps of everything but a reload, and `World.exec` runs one. Two
facts are proved about each of them, and all later invariants rest on these two:

* `keeps_exec` — what no operation does (`World.Keeps`): the list of endpoints keeps its URLs,
  configurations and metrics references, every other field of the balancer stays as it is, and no
  object is lost or changes its creation record;
* `exec_refines` — what an operation does to the vitals of the endpoints is a run of the health
  machine over the operation's events.

A health round's write section is one operation. Its results and its timeout were obtained earlier
and are part of the operation.
-/

namespace AzothBalancer

variable {M : Meter}

/-- The atomic steps of selections, marks, health rounds and forwarded requests. -/
inductive Operation where
  | getNextEndpoint (batchSize : ℕ) (clock : Clock)
  | markUnhealthy (url : String) (now : Instant)
  | markRateLimited (url : String) (now : Instant)
  | applyHealthResults (results : List (String × Bool)) (timeoutMs : ℕ) (now : Instant)
  | updateHealthyCount (now : Instant)
  | updateMetrics (url : String) (result : UpstreamResult) (elapsedMs : ℕ)
  deriving DecidableEq, Repr

/-- Runs an operation: the world afterwards, and whether it panicked. -/
def World.exec (w : World M) : Operation → World M × Bool
  | .getNextEndpoint batchSize clock => ((AzothBalancer.getNextEndpoint w batchSize clock).2, false)
  | .markUnhealthy url now => AzothBalancer.markUnhealthy w url now
  | .markRateLimited url now => AzothBalancer.markRateLimited w url now
  | .applyHealthResults results timeoutMs now =>
      AzothBalancer.applyHealthResults w results timeoutMs now
  | .updateHealthyCount now => (AzothBalancer.updateHealthyCount w now, false)
  | .updateMetrics url result elapsedMs =>
      (AzothBalancer.updateMetrics w url result elapsedMs, false)

/-- The events an operation delivers to the health machine, in order. -/
def Operation.events : Operation → List (String × HealthEvent)
  | .markUnhealthy url now => [(url, .unhealthy now)]
  | .markRateLimited url now => [(url, .rateLimited now)]
  | .applyHealthResults results _ now => results.map fun r => (r.1, .probe r.2 now)
  | _ => []

/-! ## What no operation does -/

/-- The part of an endpoint record that only a reload writes. -/
structure EndpointProfile where
  url : String
  rateLimitPerSec : ℕ
  burstSize : ℕ
  weight : ℕ
  metrics : MetricsRef
  deriving DecidableEq, Repr

/-- The profile of a record. -/
def RpcEndpoint.profile (ep : RpcEndpoint) : EndpointProfile :=
  ⟨ep.url, ep.rateLimitPerSec, ep.burstSize, ep.weight, ep.metrics⟩

/-- The frame of an operation. -/
structure World.Keeps (w w' : World M) : Prop where
  lb : w'.lb = { w.lb with endpoints := w'.lb.endpoints }
  profiles : w'.lb.endpoints.map RpcEndpoint.profile = w.lb.endpoints.map RpcEndpoint.profile
  metrics : ∀ r, w'.metrics.Valid r ↔ w.metrics.Valid r
  limiters : ∀ r, (w'.limiters.get? r).map RateLimiter.params = (w.limiters.get? r).map RateLimiter.params

/-- Nothing happens. -/
theorem World.Keeps.refl (w : World M) : w.Keeps w := ⟨rfl, rfl, fun _ => Iff.rfl, fun _ => rfl⟩

/-- Frames compose. -/
theorem World.Keeps.trans {w₁ w₂ w₃ : World M} (h₁₂ : w₁.Keeps w₂) (h₂₃ : w₂.Keeps w₃) :
    w₁.Keeps w₃ where
  lb := by rw [h₂₃.lb, h₁₂.lb]
  profiles := h₂₃.profiles.trans h₁₂.profiles
  metrics r := (h₂₃.metrics r).trans (h₁₂.metrics r)
  limiters r := (h₂₃.limiters r).trans (h₁₂.limiters r)

/-- Writing the registry is in the frame. -/
theorem World.SameStore.keeps {w w' : World M} (h : w.SameStore w') : w.Keeps w' where
  lb := by rw [h.lb]
  profiles := by rw [h.lb]
  metrics r := by rw [h.metrics]
  limiters r := by rw [h.limiters]

/-- Writing a metrics object is in the frame. -/
theorem keeps_metrics (w : World M) (r : MetricsRef) (f : EndpointMetrics → EndpointMetrics) :
    w.Keeps { w with metrics := w.metrics.modify r f } :=
  ⟨rfl, rfl, fun _ => RefHeap.valid_modify, fun _ => rfl⟩

/-- Rewriting a record within its profile is in the frame. -/
theorem keeps_updateEndpoint (w : World M) (url : String) {f : RpcEndpoint → RpcEndpoint}
    (hf : ∀ e, (f e).profile = e.profile) :
    w.Keeps { w with lb := w.lb.updateEndpoint url f } where
  lb := rfl
  profiles := KeyedList.map_update_of_eq hf
  metrics _ := Iff.rfl
  limiters _ := rfl

/-- Reserving cells changes no creation record. -/
theorem params_of_reserved {w : World M} {url : String} {n : ℕ} {now : Instant}
    {heap : RefHeap (RateLimiter M)} (h : Reserved w url n now heap) (r : LimiterRef) :
    (heap.get? r).map RateLimiter.params = (w.limiters.get? r).map RateLimiter.params := by
  cases h with
  | unlimited _ => rfl
  | nothing _ => rfl
  | @charged r' l _ hg _ _ =>
      by_cases hr : r = r'
      · subst hr
        rw [RefHeap.get?_modify_self, hg]
        rfl
      · rw [RefHeap.get?_modify_of_ne hr]

/-- A trigger stays within the profile. -/
theorem triggerCooldown_profile (ep : RpcEndpoint) (base max_ : ℕ) (now : Instant) :
    (triggerCooldown ep base max_ now).1.profile = ep.profile := by
  obtain ⟨hr, hb, hw⟩ := triggerCooldown_config ep base max_ now
  simp [RpcEndpoint.profile, hr, hb, hw]

/-- Putting an endpoint into cooldown is in the frame. -/
theorem keeps_cooldownEndpoint (w : World M) (ep : RpcEndpoint) {prepare : RpcEndpoint → RpcEndpoint}
    (hprep : ∀ e, (prepare e).profile = e.profile) (base max_ : ℕ) (now : Instant) :
    w.Keeps (cooldownEndpoint w ep prepare base max_ now).1 := by
  have hupd := keeps_updateEndpoint w ep.url
    (f := fun e => (triggerCooldown (prepare e) base max_ now).1)
    fun e => (triggerCooldown_profile ..).trans (hprep e)
  unfold cooldownEndpoint
  dsimp only
  split
  · exact hupd.trans (World.SameStore.keeps ⟨rfl, rfl, rfl⟩)
  · exact hupd

/-- The mark of a 429 is in the frame.
Source: `balancer.rs` `mark_rate_limited` -/
theorem keeps_markRateLimited (w : World M) (url : String) (now : Instant) :
    w.Keeps (markRateLimited w url now).1 := by
  unfold markRateLimited
  split
  · exact .refl w
  · exact keeps_cooldownEndpoint w _ (fun _ => rfl) _ _ _

/-- The mark of a failure is in the frame.
Source: `balancer.rs` `mark_unhealthy` -/
theorem keeps_markUnhealthy (w : World M) (url : String) (now : Instant) :
    w.Keeps (markUnhealthy w url now).1 := by
  unfold markUnhealthy
  split
  · exact .refl w
  · split
    · apply keeps_cooldownEndpoint
      intro e
      rfl
    · exact .refl w

/-- Applying one probe result is in the frame.
Source: `utils/health.rs` `perform_health_checks` -/
theorem keeps_applyProbe (base max_ timeoutMs : ℕ) (now : Instant) (w : World M)
    (result : String × Bool) : w.Keeps (applyProbe base max_ timeoutMs now w result).1 := by
  unfold applyProbe
  dsimp only
  split
  · exact .refl w
  · split
    · split
      · exact keeps_updateEndpoint w _ fun _ => rfl
      · exact (keeps_metrics w _ _).trans (keeps_updateEndpoint (recordRecovery w _) _ fun _ => rfl)
    · rename_i ep _ _
      have hfail : w.Keeps (recordFailedProbe w result.1 ep timeoutMs) :=
        (keeps_metrics w _ _).trans (World.SameStore.keeps ⟨rfl, rfl, rfl⟩)
      split
      · refine hfail.trans ?_
        apply keeps_cooldownEndpoint
        intro e
        rfl
      · exact hfail.trans (keeps_updateEndpoint _ _ fun _ => rfl)

/-- Applying probe results is in the frame. -/
theorem keeps_applyProbes (base max_ timeoutMs : ℕ) (now : Instant) :
    ∀ (results : List (String × Bool)) (w : World M),
      w.Keeps (applyProbes base max_ timeoutMs now results w).1
  | [], w => .refl w
  | result :: rest, w => by
      rw [applyProbes]
      have hone := keeps_applyProbe base max_ timeoutMs now w result
      split
      · rename_i w' hw'
        rw [hw'] at hone
        exact hone
      · rename_i w' hw'
        rw [hw'] at hone
        exact hone.trans (keeps_applyProbes base max_ timeoutMs now rest w')

/-- The write section of a health round is in the frame.
Source: `utils/health.rs` `perform_health_checks` -/
theorem keeps_of_applyHealthResults {w w' : World M} {results : List (String × Bool)}
    {timeoutMs : ℕ} {now : Instant} {panicked : Bool}
    (h : applyHealthResults w results timeoutMs now = (w', panicked)) : w.Keeps w' := by
  have hk := keeps_applyProbes w.lb.baseCooldownSecs w.lb.maxCooldownSecs timeoutMs now results w
  unfold applyHealthResults at h
  rw [h] at hk
  exact hk

/-- A selection is in the frame.
Source: `balancer.rs` `get_next_endpoint` -/
theorem keeps_getNextEndpoint (w : World M) (n : ℕ) (clock : Clock) :
    w.Keeps (getNextEndpoint w n clock).2 := by
  rcases getNextEndpoint_spec w n clock with ⟨w', hw', hs⟩ | ⟨ep, w', hw', -, -, hlb, hres, hmet⟩
  · rw [hw']
    exact hs.keeps
  · rw [hw']
    refine ⟨by rw [hlb], by rw [hlb], fun r => ?_, params_of_reserved hres⟩
    rw [hmet]
    exact RefHeap.valid_modify

/-- **The frame of every operation.** -/
theorem keeps_exec (w : World M) (op : Operation) : w.Keeps (w.exec op).1 := by
  cases op with
  | getNextEndpoint n clock => exact keeps_getNextEndpoint w n clock
  | markUnhealthy url now => exact keeps_markUnhealthy w url now
  | markRateLimited url now => exact keeps_markRateLimited w url now
  | applyHealthResults results timeoutMs now => exact keeps_of_applyHealthResults rfl
  | updateHealthyCount now => exact World.SameStore.keeps ⟨rfl, rfl, rfl⟩
  | updateMetrics url result elapsedMs =>
      show w.Keeps (AzothBalancer.updateMetrics w url result elapsedMs)
      unfold AzothBalancer.updateMetrics
      split
      · exact .refl w
      · exact keeps_metrics w _ _

/-! ## Operations run the health machine -/

/-- The vitals of every endpoint. -/
def LoadBalancer.vitals (lb : LoadBalancer) : HealthTable := fun url =>
  (lb.endpoint? url).map RpcEndpoint.vitals

/-- The records after one of them has been rewritten. -/
theorem endpoint?_updateEndpoint {lb : LoadBalancer} {url : String} {ep : RpcEndpoint}
    (hep : lb.endpoint? url = some ep)
    {f : RpcEndpoint → RpcEndpoint} (hf : ∀ e, (f e).url = e.url) (u : String) :
    (lb.updateEndpoint url f).endpoint? u = if u = url then some (f ep) else lb.endpoint? u := by
  have hlook : (lb.updateEndpoint url f).endpoint? u =
      if u = url then (lb.endpoint? u).map f else lb.endpoint? u := KeyedList.lookup_update hf
  rw [hlook]
  by_cases hu : u = url
  · rw [if_pos hu, if_pos hu, hu, hep, Option.map_some]
  · rw [if_neg hu, if_neg hu]

/-- The records after a trigger. -/
theorem endpoint?_cooldownEndpoint {w : World M} {url : String} {ep : RpcEndpoint}
    (hep : w.lb.endpoint? url = some ep)
    {prepare : RpcEndpoint → RpcEndpoint} (hprep : ∀ e, (prepare e).url = e.url) (base max_ : ℕ)
    (now : Instant) (u : String) : (cooldownEndpoint w ep prepare base max_ now).1.lb.endpoint? u =
      if u = url then some (triggerCooldown (prepare ep) base max_ now).1 else w.lb.endpoint? u := by
  have hurl : ep.url = url := KeyedList.key_of_lookup hep
  have hf : ∀ e, (triggerCooldown (prepare e) base max_ now).1.url = e.url := by
    intro e
    rw [triggerCooldown_url, hprep]
  have hupdate := endpoint?_updateEndpoint hep hf u
  unfold cooldownEndpoint
  rw [hurl]
  dsimp only
  split <;> exact hupdate

/-- Rewriting a record moves the table at its URL. -/
theorem vitals_updateEndpoint {lb : LoadBalancer} {url : String} {ep : RpcEndpoint}
    {f : RpcEndpoint → RpcEndpoint} (hf : ∀ e, (f e).url = e.url)
    (hep : lb.endpoint? url = some ep) :
    (lb.updateEndpoint url f).vitals = Function.update lb.vitals url (some (f ep).vitals) := by
  funext u
  unfold LoadBalancer.vitals
  rw [endpoint?_updateEndpoint hep hf]
  by_cases h : u = url
  · subst h
    rw [if_pos rfl, Function.update_self]
    rfl
  · rw [if_neg h, Function.update_of_ne h]

/-- A trigger on a record is a trigger on its vitals.
Source: `utils/cooldown.rs` `trigger_cooldown` -/
theorem triggerCooldown_vitals (ep : RpcEndpoint) (base max_ : ℕ) (now : Instant) :
    (triggerCooldown ep base max_ now).1.vitals = (ep.vitals.trigger base max_ now).1 ∧
      (triggerCooldown ep base max_ now).2.isNone = (ep.vitals.trigger base max_ now).2 := by
  simp only [triggerCooldown, Vitals.trigger, RpcEndpoint.vitals]
  cases h : now.checkedAddSecs (cooldownDuration (saturatingAdd32 ep.cooldownAttempts 1) base max_) <;>
    exact ⟨rfl, rfl⟩

/-- Putting an endpoint into cooldown moves its vitals by a trigger. -/
theorem cooldownEndpoint_vitals {w : World M} {ep : RpcEndpoint}
    (prepare : RpcEndpoint → RpcEndpoint) (hprep : ∀ e, (prepare e).url = e.url)
    (hep : w.lb.endpoint? ep.url = some ep) (base max_ : ℕ) (now : Instant) :
    ((cooldownEndpoint w ep prepare base max_ now).1.lb.vitals,
        (cooldownEndpoint w ep prepare base max_ now).2) =
      (Function.update w.lb.vitals ep.url (some ((prepare ep).vitals.trigger base max_ now).1),
        ((prepare ep).vitals.trigger base max_ now).2) := by
  obtain ⟨hvit, hpan⟩ := triggerCooldown_vitals (prepare ep) base max_ now
  have hupd := vitals_updateEndpoint (f := fun e => (triggerCooldown (prepare e) base max_ now).1)
    (fun e => by simp [hprep]) hep
  rw [hvit] at hupd
  unfold cooldownEndpoint
  dsimp only
  split
  · rename_i duration hd
    rw [hd] at hpan
    rw [← hpan, ← hupd]
    rfl
  · rename_i hd
    rw [hd] at hpan
    rw [← hpan, ← hupd]
    rfl

/-- The table at a URL, when the record is known. -/
theorem vitals_of_endpoint? {lb : LoadBalancer} {url : String} {o : Option RpcEndpoint}
    (h : lb.endpoint? url = o) : lb.vitals url = o.map RpcEndpoint.vitals := by
  unfold LoadBalancer.vitals
  rw [h]

/-- The mark of a 429 is one event.
Source: `balancer.rs` `mark_rate_limited` -/
theorem markRateLimited_refines (w : World M) (url : String) (now : Instant) :
    ((markRateLimited w url now).1.lb.vitals, (markRateLimited w url now).2) =
      w.lb.vitals.step w.lb.baseCooldownSecs w.lb.maxCooldownSecs (url, .rateLimited now) := by
  unfold markRateLimited HealthTable.step
  cases hep : w.lb.endpoint? url with
  | none => simp [vitals_of_endpoint? hep]
  | some ep =>
      have hurl : ep.url = url := KeyedList.key_of_lookup hep
      subst hurl
      rw [vitals_of_endpoint? hep]
      exact cooldownEndpoint_vitals id (fun _ => rfl) hep _ _ _

/-- The mark of a failure is one event.
Source: `balancer.rs` `mark_unhealthy` -/
theorem markUnhealthy_refines (w : World M) (url : String) (now : Instant) :
    ((markUnhealthy w url now).1.lb.vitals, (markUnhealthy w url now).2) =
      w.lb.vitals.step w.lb.baseCooldownSecs w.lb.maxCooldownSecs (url, .unhealthy now) := by
  unfold markUnhealthy HealthTable.step
  cases hep : w.lb.endpoint? url with
  | none => simp [vitals_of_endpoint? hep]
  | some ep =>
      have hurl : ep.url = url := KeyedList.key_of_lookup hep
      subst hurl
      have ht : w.lb.vitals ep.url = some ep.vitals := vitals_of_endpoint? hep
      rw [ht]
      by_cases hh : ep.healthy
      · have hcool := cooldownEndpoint_vitals (fun e => { e with healthy := false })
          (fun _ => rfl) hep w.lb.baseCooldownSecs w.lb.maxCooldownSecs now
        simpa [hh, Vitals.step, RpcEndpoint.vitals] using hcool
      · have hself : Function.update w.lb.vitals ep.url (some ep.vitals) = w.lb.vitals := by
          rw [← ht, Function.update_eq_self]
        simpa [hh, Vitals.step, RpcEndpoint.vitals] using hself.symm

/-- Applying one probe result is one event.
Source: `utils/health.rs` `perform_health_checks` -/
theorem applyProbe_refines (base max_ timeoutMs : ℕ) (now : Instant) (w : World M)
    (result : String × Bool) :
    ((applyProbe base max_ timeoutMs now w result).1.lb.vitals,
        (applyProbe base max_ timeoutMs now w result).2) =
      w.lb.vitals.step base max_ (result.1, .probe result.2 now) := by
  obtain ⟨url, isHealthy⟩ := result
  unfold applyProbe HealthTable.step
  cases hep : w.lb.endpoint? url with
  | none => simp [hep, vitals_of_endpoint? hep]
  | some ep =>
      have hurl : ep.url = url := KeyedList.key_of_lookup hep
      subst hurl
      have ht : w.lb.vitals ep.url = some ep.vitals := vitals_of_endpoint? hep
      have hupd : ∀ f : RpcEndpoint → RpcEndpoint, (∀ e, (f e).url = e.url) →
          (w.lb.updateEndpoint ep.url f).vitals =
            Function.update w.lb.vitals ep.url (some (f ep).vitals) :=
        fun f hf => vitals_updateEndpoint hf hep
      simp only [hep, ht]
      cases isHealthy with
      | true =>
          by_cases hh : ep.healthy
          · simp [hh, Vitals.step, RpcEndpoint.vitals, hupd]
          · simp [hh, Vitals.step, RpcEndpoint.vitals, hupd, Vitals.initial]
      | false =>
          by_cases hh : ep.healthy
          · have hcool := cooldownEndpoint_vitals (w := recordFailedProbe w ep.url ep timeoutMs)
              (fun e => { e with healthy := false, lastCheck := now }) (fun _ => rfl) hep base max_ now
            rw [recordFailedProbe_lb] at hcool
            simpa [hh, Vitals.step, RpcEndpoint.vitals] using hcool
          · have hfalse : ep.healthy = false := by simpa using hh
            simp [hfalse, Vitals.step, RpcEndpoint.vitals, hupd]

/-- Applying probe results is the run of their events: both stop at the first panic. -/
theorem applyProbes_refines (base max_ timeoutMs : ℕ) (now : Instant) :
    ∀ (results : List (String × Bool)) (w : World M),
      ((applyProbes base max_ timeoutMs now results w).1.lb.vitals,
          (applyProbes base max_ timeoutMs now results w).2) =
        HealthTable.run base max_ (results.map fun r => (r.1, .probe r.2 now)) w.lb.vitals
  | [], _ => rfl
  | result :: rest, w => by
      have hone := applyProbe_refines base max_ timeoutMs now w result
      rw [List.map_cons, HealthTable.run, applyProbes, ← hone]
      cases hp : applyProbe base max_ timeoutMs now w result with
      | mk w' panicked =>
          cases panicked with
          | true => rfl
          | false => exact applyProbes_refines base max_ timeoutMs now rest w'

/-- The write section of a health round is the run of its results.
Source: `utils/health.rs` `perform_health_checks` -/
theorem applyHealthResults_refines {w w' : World M} {results : List (String × Bool)}
    {timeoutMs : ℕ} {now : Instant} {panicked : Bool}
    (h : applyHealthResults w results timeoutMs now = (w', panicked)) :
    (w'.lb.vitals, panicked) = HealthTable.run w.lb.baseCooldownSecs w.lb.maxCooldownSecs
      (results.map fun r => (r.1, .probe r.2 now)) w.lb.vitals := by
  have href := applyProbes_refines w.lb.baseCooldownSecs w.lb.maxCooldownSecs timeoutMs now results w
  unfold applyHealthResults at h
  rw [h] at href
  exact href

/-- One event is a run of one event. -/
theorem HealthTable.run_singleton (base max_ : ℕ) (t : HealthTable) (x : String × HealthEvent) :
    HealthTable.run base max_ [x] t = t.step base max_ x := by
  rw [run]
  cases h : t.step base max_ x with
  | mk t' panicked =>
      cases panicked <;> rfl

/-- **Every operation runs the health machine over its events**, under the cooldown bounds of the
state it starts in; it panics exactly if the machine does. -/
theorem exec_refines (w : World M) (op : Operation) :
    ((w.exec op).1.lb.vitals, (w.exec op).2) =
      HealthTable.run w.lb.baseCooldownSecs w.lb.maxCooldownSecs op.events w.lb.vitals := by
  cases op with
  | getNextEndpoint n clock =>
      rcases getNextEndpoint_spec w n clock with ⟨w', hw', hs⟩ | ⟨ep, w', hw', -, -, hlb, -⟩
      · simp [World.exec, hw', hs.lb, Operation.events, HealthTable.run]
      · simp [World.exec, hw', hlb, Operation.events, HealthTable.run]
  | markUnhealthy url now =>
      rw [Operation.events, HealthTable.run_singleton]
      exact markUnhealthy_refines w url now
  | markRateLimited url now =>
      rw [Operation.events, HealthTable.run_singleton]
      exact markRateLimited_refines w url now
  | applyHealthResults results timeoutMs now => exact applyHealthResults_refines rfl
  | updateHealthyCount now => rfl
  | updateMetrics url result elapsedMs =>
      show ((AzothBalancer.updateMetrics w url result elapsedMs).lb.vitals, false) =
        (w.lb.vitals, false)
      unfold AzothBalancer.updateMetrics
      split <;> rfl

end AzothBalancer
