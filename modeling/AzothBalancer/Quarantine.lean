import AzothBalancer.Backoff
import AzothBalancer.LostUpdates
import AzothBalancer.Recovery

/-!
# Quarantine

What a mark is for: an endpoint that is down gets no request until a health round finds it healthy again, and
an endpoint in cooldown gets none until the cooldown is over. Reloads run meanwhile, and copy its record.

* `HealthTable.Delivers` — the events of a run at one URL, each in the vitals it finds.
* `System.Rests` — the endpoint is listed with vitals of a kind, and so it is in every list that a reload in
  flight is about to publish; `System.Rests.step` is the step lemma.
* `quarantine` — a down endpoint; `cooldown_observed` — one that has answered a 429.
-/

namespace AzothBalancer

variable {M : Meter}

/-! ## Events at one URL -/

/-- The event does not take the endpoint back. -/
def Vitals.StaysDown (v : Vitals) (x : HealthEvent) : Prop := v.recovers x = false

/-- The event does not take the endpoint back, and what it triggers is not earlier than `now` and not past the
point where the backoff wraps around. -/
def Vitals.Prolongs (now : Instant) (v : Vitals) (x : HealthEvent) : Prop :=
  v.recovers x = false ∧ (v.triggers x = true → now ≤ x.now ∧ v.cooldownAttempts < 63)

instance (now : Instant) (v : Vitals) (x : HealthEvent) : Decidable (v.Prolongs now x) :=
  inferInstanceAs (Decidable (_ ∧ (_ → _ ∧ _)))

/-- At least `k` attempts have been counted, and the cooldown does not end before `until_`. -/
structure Vitals.CoolsUntil (k : ℕ) (until_ : Instant) (v : Vitals) : Prop where
  attempts : k ≤ v.cooldownAttempts
  ends : ∃ u, v.cooldownUntil = some u ∧ until_ ≤ u

section vitals

variable {base max_ base₀ max₀ k : ℕ} {now : Instant} {v : Vitals} {x : HealthEvent}

/-- A down endpoint that is not taken back stays down. -/
theorem Vitals.down_step (hx : v.StaysDown x) (hv : v.healthy = false) :
    (v.step base max_ x).1.healthy = false := by
  rcases step_cases base max_ v x with ⟨-, -, b, hb, hstep⟩ | ⟨-, hrec, -⟩ | ⟨-, -, hstep⟩
  · obtain ⟨-, hhealthy, -⟩ := trigger_spec base max_ x.now { v with healthy := b }
    rw [hstep, hhealthy]
    exact hb hv
  · rw [hx] at hrec
    cases hrec
  · rw [hstep]
    exact hv

/-- Up to the 63rd attempt, more attempts and larger bounds make no shorter cooldown.
Source: `utils/cooldown.rs` `trigger_cooldown` -/
theorem cooldownDuration_mono {j : ℕ} (hk : k ≤ j) (hj : j ≤ 63) (hbase : base₀ ≤ base) (hmax : max₀ ≤ max_) :
    cooldownDuration k base₀ max₀ ≤ cooldownDuration j base max_ := by
  rw [cooldownDuration_of_le (hk.trans hj), cooldownDuration_of_le hj]
  have hpow : 2 ^ k ≤ 2 ^ j := Nat.pow_le_pow_right (by decide) hk
  exact min_le_min (min_le_min_right _ (Nat.mul_le_mul hbase hpow)) hmax

/-- An event that prolongs keeps the cooldown running, under bounds no smaller than those it was started with.
Source: `utils/cooldown.rs` `trigger_cooldown` -/
theorem Vitals.CoolsUntil.step (hbase : base₀ ≤ base) (hmax : max₀ ≤ max_) (hx : v.Prolongs now x)
    (h : v.CoolsUntil k (now + nanosPerSec * cooldownDuration k base₀ max₀)) :
    (v.step base max_ x).1.CoolsUntil k (now + nanosPerSec * cooldownDuration k base₀ max₀) := by
  rcases step_cases base max_ v x with ⟨htrig, -, b, -, hstep⟩ | ⟨-, hrec, -⟩ | ⟨-, -, hstep⟩
  · obtain ⟨hnow, hfew⟩ := hx.2 htrig
    have hsat : saturatingAdd32 v.cooldownAttempts 1 = v.cooldownAttempts + 1 :=
      min_eq_left (by unfold u32Max; omega)
    have hmore : k ≤ v.cooldownAttempts + 1 := h.attempts.trans (Nat.le_succ _)
    have hlength := cooldownDuration_mono hmore hfew hbase hmax
    obtain ⟨hatt, -⟩ := trigger_spec base max_ x.now { v with healthy := b }
    rw [hstep]
    refine ⟨by rw [hatt, hsat]; exact hmore, ?_⟩
    unfold Vitals.trigger
    dsimp only
    split
    · rename_i until_ huntil
      rw [hsat] at huntil
      refine ⟨until_, rfl, ?_⟩
      rw [Instant.eq_of_checkedAddSecs huntil]
      exact Nat.add_le_add hnow (Nat.mul_le_mul_left _ hlength)
    · exact h.ends
  · rw [hx.1] at hrec
    cases hrec
  · rw [hstep]
    exact h

end vitals

namespace HealthTable

/-- Every event that the run delivers to the URL finds its vitals under `C`. -/
def Delivers (base max_ : ℕ) (C : Vitals → HealthEvent → Prop) (url : String) :
    List (String × HealthEvent) → HealthTable → Prop
  | [], _ => True
  | x :: xs, t => (x.1 = url → ∀ v ∈ t url, C v x.2) ∧
      ((t.step base max_ x).2 = false → Delivers base max_ C url xs (t.step base max_ x).1)

instance decidableDelivers (base max_ : ℕ) (C : Vitals → HealthEvent → Prop) [∀ v x, Decidable (C v x)]
    (url : String) : ∀ xs t, Decidable (Delivers base max_ C url xs t)
  | [], _ => inferInstanceAs (Decidable True)
  | x :: xs, t =>
      have := decidableDelivers base max_ C url xs (t.step base max_ x).1
      inferInstanceAs (Decidable ((x.1 = url → ∀ v ∈ t url, C v x.2) ∧
        ((t.step base max_ x).2 = false → Delivers base max_ C url xs (t.step base max_ x).1)))

variable {base max_ : ℕ} {C : Vitals → HealthEvent → Prop} {K : Vitals → Prop} {url : String}

/-- **What every event under `C` keeps, a run keeps**, also one that panics. -/
theorem keeps_run (hstep : ∀ v x, C v x → K v → K (v.step base max_ x).1) :
    ∀ {xs : List (String × HealthEvent)} {t : HealthTable}, Delivers base max_ C url xs t →
      (∃ v, t url = some v ∧ K v) → ∃ v, (run base max_ xs t).1 url = some v ∧ K v
  | [], _, _, h => h
  | x :: xs, t, hdel, ⟨v, hv, hK⟩ => by
      have hone : ∃ v', (t.step base max_ x).1 url = some v' ∧ K v' := by
        rw [step_apply, hv]
        split
        · rename_i hx
          exact ⟨_, rfl, hstep v x.2 (hdel.1 hx v hv) hK⟩
        · exact ⟨v, rfl, hK⟩
      rw [run]
      rcases hs : t.step base max_ x with ⟨t', _ | _⟩
      · rw [hs] at hone
        have hrest := hdel.2 (by rw [hs])
        rw [hs] at hrest
        exact keeps_run hstep hrest hone
      · rw [hs] at hone
        exact hone

end HealthTable

/-! ## Calls in flight -/

/-- One event, for a property of the world and one of each call in flight. -/
theorem System.step_calls {P : Platform} {W : World M → Prop} {G : ReloadCall → Prop} {s : System M}
    {e : SystemEvent} (hW : W s.world) (hG : ∀ call ∈ s.reloads, G call)
    (hoperation : ∀ op, e = .operation op → W (s.world.exec op).1)
    (hstart : ∀ read now c, e = .startReload read now → loadSettings P read s.world.lb.configPath = .ok c →
      G { settings := c, now := now })
    (hadvance : ∀ call ∈ s.reloads, W (call.advance P s.world).1 ∧ G (call.advance P s.world).2) :
    W (s.step P e).world ∧ ∀ call ∈ (s.step P e).reloads, G call := by
  rcases e with op | ⟨read, now⟩ | i
  · exact ⟨hoperation op rfl, hG⟩
  · unfold System.step
    dsimp only
    split
    · rename_i c hc
      refine ⟨hW, fun call hcall => ?_⟩
      rcases List.mem_append.mp hcall with hold | hnew
      · exact hG call hold
      · rw [List.mem_singleton] at hnew
        subst hnew
        exact hstart read now c rfl hc
    · exact ⟨hW, hG⟩
  · rcases hi : s.reloads[i]? with _ | call
    · rw [System.step_reloadSection_of_none P hi]
      exact ⟨hW, hG⟩
    · obtain ⟨hworld, hcall⟩ := hadvance call (List.mem_of_getElem? hi)
      rw [System.step_reloadSection P hi]
      refine ⟨hworld, fun call' hcall' => ?_⟩
      rcases List.mem_or_eq_of_mem_set hcall' with hold | rfl
      · exact hG call' hold
      · exact hcall

/-- The call has not panicked, and is in one of the phases. -/
structure ReloadCall.Phased (call : ReloadCall) : Prop where
  panicked : call.frame.panicked = false
  atPhase : ∃ phase, AtPhase phase call.rest

/-- A section of a reload leaves it in a phase. -/
theorem ReloadCall.Phased.advance {P : Platform} {w : World M} {call : ReloadCall} (h : call.Phased)
    (hc : call.settings.Valid) : (call.advance P w).2.Phased := by
  obtain ⟨hpan, phase, hat⟩ := h
  obtain ⟨phase', w', frame', rest', heq, hpan', hat', -, -⟩ := advance_spec P w hc hpan hat
  rw [heq]
  exact ⟨hpan', phase', hat'⟩

/-- **Every call in flight is in a phase**, in every interleaving.
Source: `config_reloader.rs` `reload` -/
theorem System.Reachable.phased {P : Platform} {s : System M} (h : s.Reachable P) :
    ∀ call ∈ s.reloads, call.Phased := by
  obtain ⟨config, path, now, w, events, hnew, rfl⟩ := h
  have hsound : System.Sound ⟨w, []⟩ := System.Reachable.sound ⟨config, path, now, w, [], hnew, rfl⟩
  have hinv : (System.run P ⟨w, []⟩ events).Sound ∧
      ∀ call ∈ (System.run P ⟨w, []⟩ events).reloads, call.Phased :=
    Runs.invariant (fun s : System M => s.Sound ∧ ∀ call ∈ s.reloads, call.Phased) (fun _ => True)
      (fun s e _ hs => ⟨sound_step P e hs.1, (System.step_calls (W := fun _ => True) trivial hs.2
        (fun _ _ => trivial) (fun _ _ _ _ _ => ⟨rfl, .reading, atPhase_start⟩)
        fun call hcall => ⟨trivial, (hs.2 call hcall).advance (hs.1.settings call hcall)⟩).2⟩)
      (fun _ _ => trivial) ⟨hsound, fun _ h => (by cases h)⟩
  exact hinv.2

/-! ## An endpoint that rests -/

section rests

variable (base₀ max₀ : ℕ) (K : Vitals → Prop) (url : String)

/-- The bounds on cooldowns are at least these, and the endpoint is listed with vitals in `K`. -/
structure World.Rests (w : World M) : Prop where
  base : base₀ ≤ w.lb.baseCooldownSecs
  max : max₀ ≤ w.lb.maxCooldownSecs
  listed : ∃ v, w.lb.vitals url = some v ∧ K v

/-- The settings list the endpoint, and their bounds on cooldowns are at least these. -/
structure Settings.Retains (c : Settings) : Prop where
  base : base₀ ≤ c.baseCooldownSecs
  max : max₀ ≤ c.maxCooldownSecs
  listed : url ∈ c.endpoints.map EndpointConfig.url

instance (c : Settings) : Decidable (c.Retains base₀ max₀ url) :=
  decidable_of_iff (base₀ ≤ c.baseCooldownSecs ∧ max₀ ≤ c.maxCooldownSecs ∧
    url ∈ c.endpoints.map EndpointConfig.url) ⟨fun h => ⟨h.1, h.2.1, h.2.2⟩, fun h => ⟨h.base, h.max, h.listed⟩⟩

/-- The call retains the endpoint, and the list it is about to publish, if it has one, has it with vitals in `K`. -/
structure ReloadCall.Retains (call : ReloadCall) : Prop where
  settings : call.settings.Retains base₀ max₀ url
  copy : call.BeforeSwap →
    ∃ v, (KeyedList.lookup RpcEndpoint.url url call.frame.newRpcEndpoints).map RpcEndpoint.vitals = some v ∧ K v

/-- So it is in the world, and so with every call in flight. -/
structure System.Rests (s : System M) : Prop where
  world : s.world.Rests base₀ max₀ K url
  calls : ∀ call ∈ s.reloads, call.Phased ∧ call.Retains base₀ max₀ K url

/-- The event delivers to the endpoint what it may, and a reload that it starts retains the endpoint. -/
def System.Spares (P : Platform) (C : Vitals → HealthEvent → Prop) (s : System M) : SystemEvent → Prop
  | .operation op => HealthTable.Delivers s.world.lb.baseCooldownSecs s.world.lb.maxCooldownSecs C url op.events
      s.world.lb.vitals
  | .startReload read _ => ∀ c, loadSettings P read s.world.lb.configPath = .ok c → c.Retains base₀ max₀ url
  | .reloadSection _ => True

end rests

section step

variable {P : Platform} {base₀ max₀ : ℕ} {C : Vitals → HealthEvent → Prop} {K : Vitals → Prop} {url : String}

/-- A call about to publish the list is in the merged phase. -/
theorem AtPhase.merged_of_head {phase : ReloadPhase} {rest : List ReloadSection} (h : AtPhase phase rest)
    (hhead : rest.head? = some .writeEndpoints) : phase = .merged := by
  have hquiet : ∀ r : List ReloadSection, (∀ sec ∈ r, sec.isQuiet) → r.head? ≠ some .writeEndpoints :=
    fun r hr hr' => absurd (hr _ (List.mem_of_head? hr')) (by decide)
  cases h with
  | reading r hr =>
      rcases r with _ | ⟨sec, r⟩
      · cases hhead
      · exact absurd hhead (hquiet (sec :: r) hr)
  | merged => rfl
  | swapped => cases hhead
  | settled _ hr => exact absurd hhead (hquiet rest hr)

/-- **A section of a reload that retains the endpoint**, phase by phase: the merge copies its vitals, the swap
publishes the copy, and the other sections leave both alone.
Source: `config_reloader.rs` `reload` -/
theorem ReloadCall.Retains.advance {w : World M} {call : ReloadCall} (hc : call.settings.Valid)
    (hphased : call.Phased) (hw : w.Rests base₀ max₀ K url) (h : call.Retains base₀ max₀ K url) :
    (call.advance P w).1.Rests base₀ max₀ K url ∧ (call.advance P w).2.Retains base₀ max₀ K url := by
  obtain ⟨hpan, phase, hat⟩ := hphased
  obtain ⟨phase', w', frame', rest', heq, -, hat', -, hadv⟩ := advance_spec P w hc hpan hat
  rw [heq]
  have hpast : phase' ≠ .merged →
      ReloadCall.Retains base₀ max₀ K url { call with frame := frame', rest := rest' } :=
    fun hne => ⟨h.settings, fun hb => absurd (hat'.merged_of_head hb) hne⟩
  cases hadv with
  | done => exact ⟨hw, hpast (by simp)⟩
  | quiet sec hq hm _ =>
      obtain ⟨hsame, -⟩ := execSection_quiet P call.settings call.now w call.frame hq
      obtain ⟨hbase, hmax⟩ := cooldownSecs_quiet P call.settings call.now w call.frame hq
      refine ⟨⟨?_, ?_, ?_⟩, hpast hm⟩
      · rcases hbase with hold | hnew
        · exact hw.base.trans_eq hold.symm
        · exact h.settings.base.trans_eq hnew.symm
      · rcases hmax with hold | hnew
        · exact hw.max.trans_eq hold.symm
        · exact h.settings.max.trans_eq hnew.symm
      · rw [vitals_of_endpoints_eq hsame.endpoints]
        exact hw.listed
  | merge hstep =>
      obtain ⟨v, hv, hK⟩ := hw.listed
      refine ⟨⟨hw.base, hw.max, v, hv, hK⟩, h.settings, fun _ => ⟨v, ?_, hK⟩⟩
      dsimp only
      rw [hstep.vitals, if_pos h.settings.listed, hv]
      rfl
  | swap => exact ⟨⟨hw.base, hw.max, h.copy (hat.head_of_merged rfl)⟩, hpast (by simp)⟩
  | settle => exact ⟨⟨hw.base, hw.max, hw.listed⟩, hpast (by simp)⟩

/-- An operation that delivers what it may keeps the endpoint at rest. -/
theorem World.Rests.exec {w : World M} {op : Operation}
    (hC : ∀ base max_ v x, base₀ ≤ base → max₀ ≤ max_ → C v x → K v → K (v.step base max_ x).1)
    (h : w.Rests base₀ max₀ K url)
    (hop : HealthTable.Delivers w.lb.baseCooldownSecs w.lb.maxCooldownSecs C url op.events w.lb.vitals) :
    (w.exec op).1.Rests base₀ max₀ K url := by
  have hbounds := (keeps_exec w op).bounds
  have hvitals : (w.exec op).1.lb.vitals =
      (HealthTable.run w.lb.baseCooldownSecs w.lb.maxCooldownSecs op.events w.lb.vitals).1 :=
    congrArg Prod.fst (exec_refines w op)
  refine ⟨h.base.trans_eq hbounds.1.symm, h.max.trans_eq hbounds.2.symm, ?_⟩
  rw [hvitals]
  exact HealthTable.keeps_run (fun v x => hC _ _ v x h.base h.max) hop h.listed

/-- **Every event that spares the endpoint keeps it at rest**, in the world and with every call in flight. -/
theorem System.Rests.step {s : System M} {e : SystemEvent}
    (hC : ∀ base max_ v x, base₀ ≤ base → max₀ ≤ max_ → C v x → K v → K (v.step base max_ x).1)
    (hsound : s.Sound) (h : s.Rests base₀ max₀ K url) (he : s.Spares base₀ max₀ url P C e) :
    (s.step P e).Rests base₀ max₀ K url := by
  obtain ⟨hworld, hcalls⟩ := System.step_calls (P := P) (W := World.Rests base₀ max₀ K url)
    (G := fun call => call.Phased ∧ call.Retains base₀ max₀ K url) (e := e) h.world h.calls
    (by
      rintro op rfl
      exact h.world.exec hC he)
    (by
      rintro read now c rfl hc
      exact ⟨⟨rfl, .reading, atPhase_start⟩, he c hc, fun hb => (by cases hb)⟩)
    (by
      intro call hcall
      obtain ⟨hphased, hretains⟩ := h.calls call hcall
      have hvalid := hsound.settings call hcall
      obtain ⟨hw, hr⟩ := hretains.advance (P := P) hvalid hphased h.world
      exact ⟨hw, hphased.advance hvalid, hr⟩)
  exact ⟨hworld, hcalls⟩

end step

/-! ## Selections -/

/-- What a selection answers is listed and available.
Source: `balancer.rs` `get_next_endpoint`; `strategy.rs` `select_best_endpoint` -/
theorem available_of_getNextEndpoint {w : World M} {n : ℕ} {clock : Clock} {url : String} (hw : w.WellFormed)
    (h : (getNextEndpoint w n clock).1 = some url) :
    ∃ ep : RpcEndpoint, w.lb.vitals url = some ep.vitals ∧ ep.isAvailable clock.now = true := by
  rcases getNextEndpoint_spec w n clock with ⟨w', hw', -⟩ | ⟨ep, w', hw', -, hep, -⟩
  · rw [hw'] at h
    cases h
  · rw [hw'] at h
    obtain rfl : ep.url = url := Option.some.inj h
    obtain ⟨hmem, hcond⟩ := List.mem_filter.mp hep
    rw [Bool.and_eq_true] at hcond
    exact ⟨ep, vitals_of_endpoint? (hw.endpoint?_of_mem hmem), hcond.1⟩

/-- The vitals of a listed endpoint. -/
theorem vitals_of_mem {w : World M} (hw : w.WellFormed) {ep : RpcEndpoint} (hep : ep ∈ w.lb.endpoints) :
    w.lb.vitals ep.url = some ep.vitals :=
  vitals_of_endpoint? (hw.endpoint?_of_mem hep)

/-- A record with these vitals. -/
theorem exists_mem_of_vitals {w : World M} {url : String} {v : Vitals} (h : w.lb.vitals url = some v) :
    ∃ ep : RpcEndpoint, ep.vitals = v ∧ ep ∈ w.lb.endpoints ∧ ep.url = url := by
  obtain ⟨ep, hep, rfl⟩ := Option.map_eq_some_iff.mp h
  exact ⟨ep, rfl, KeyedList.mem_of_lookup hep, KeyedList.key_of_lookup hep⟩

/-- An endpoint in cooldown is not available.
Source: `endpoint.rs` `is_available` -/
theorem RpcEndpoint.isAvailable_of_cools {ep : RpcEndpoint} {k : ℕ} {until_ clock : Instant}
    (h : ep.vitals.CoolsUntil k until_) (hclock : clock < until_) : ep.isAvailable clock = false := by
  obtain ⟨u, hu, hle⟩ := h.ends
  have hcool : ep.isInCooldown clock = true := by
    unfold RpcEndpoint.isInCooldown
    rw [show ep.cooldownUntil = some u from hu]
    exact decide_eq_true (hclock.trans_le hle)
  unfold RpcEndpoint.isAvailable
  rw [hcool, Bool.not_true, Bool.and_false]

/-- When the cooldown ends that the endpoint's next 429 starts, up to the 63rd attempt.
Source: `utils/cooldown.rs` `trigger_cooldown` -/
def World.cooldownEnd (w : World M) (ep : RpcEndpoint) (now : Instant) : Instant :=
  now + nanosPerSec * cooldownDuration (ep.cooldownAttempts + 1) w.lb.baseCooldownSecs w.lb.maxCooldownSecs

/-- The mark of a 429 that does not panic starts a cooldown of the length of one more attempt.
Source: `balancer.rs` `mark_rate_limited`; `utils/cooldown.rs` `trigger_cooldown` -/
theorem cools_of_markRateLimited {w w' : World M} {ep : RpcEndpoint} {now : Instant}
    (hvitals : w.lb.vitals ep.url = some ep.vitals) (hfew : ep.cooldownAttempts < 63)
    (hmark : markRateLimited w ep.url now = (w', false)) :
    ∃ v, w'.lb.vitals ep.url = some v ∧ v.CoolsUntil (ep.cooldownAttempts + 1) (w.cooldownEnd ep now) := by
  have href := markRateLimited_refines w ep.url now
  rw [hmark] at href
  unfold HealthTable.step at href
  rw [hvitals] at href
  obtain ⟨htable, hpan⟩ := Prod.mk.inj href
  have hquiet : (ep.vitals.trigger w.lb.baseCooldownSecs w.lb.maxCooldownSecs now).2 = false := hpan.symm
  obtain ⟨until_, htrigger⟩ := Vitals.trigger_of_not_panicked hquiet
  have hends := Vitals.trigger_ends_iff.mp ⟨hquiet, congrArg Vitals.cooldownUntil htrigger⟩
  have hsat : saturatingAdd32 ep.cooldownAttempts 1 = ep.cooldownAttempts + 1 :=
    min_eq_left (by unfold u32Max; omega)
  refine ⟨(ep.vitals.trigger w.lb.baseCooldownSecs w.lb.maxCooldownSecs now).1, ?_, ?_⟩
  · rw [htable]
    exact Function.update_self ..
  · have hend := Instant.eq_of_checkedAddSecs hends
    change until_ = now + nanosPerSec * cooldownDuration (saturatingAdd32 ep.cooldownAttempts 1) _ _ at hend
    rw [hsat] at hend
    rw [htrigger]
    refine ⟨?_, until_, rfl, hend.ge⟩
    show ep.cooldownAttempts + 1 ≤ saturatingAdd32 ep.cooldownAttempts 1
    rw [hsat]

/-! ## Quarantine -/

section quarantine

variable {P : Platform} {base₀ max₀ : ℕ} {C : Vitals → HealthEvent → Prop} {K : Vitals → Prop} {url : String}
  {s : System M} {events : List SystemEvent}

/-- **An endpoint at rest is not answered**, in any run that spares it, by a clock at which records with vitals in
`K` are not available; and it is at rest at the end of the run. -/
theorem System.Rests.run (Off : Instant → Prop)
    (hC : ∀ base max_ v x, base₀ ≤ base → max₀ ≤ max_ → C v x → K v → K (v.step base max_ x).1)
    (hK : ∀ ep : RpcEndpoint, K ep.vitals → ∀ now, Off now → ep.isAvailable now = false)
    (hsound : s.Sound) (h : s.Rests base₀ max₀ K url)
    (hevents : Runs.Along (System.step P) (System.Spares base₀ max₀ url P C) s events) :
    Runs.Along (System.step P) (fun v e => ∀ n clock, e = .operation (.getNextEndpoint n clock) →
        Off clock.now → (getNextEndpoint v.world n clock).1 ≠ some url) s events ∧
      (s.run P events).Sound ∧ (s.run P events).Rests base₀ max₀ K url := by
  constructor
  · refine Runs.along_of_along (fun v => v.Sound ∧ v.Rests base₀ max₀ K url) ?_ hevents ⟨hsound, h⟩
    rintro v e he ⟨hv, hrests⟩
    refine ⟨⟨sound_step P e hv, hrests.step hC hv he⟩, ?_⟩
    rintro n clock rfl hclock hanswer
    obtain ⟨ep, hvitals, havail⟩ := available_of_getNextEndpoint hv.world hanswer
    obtain ⟨v', hv', hKv⟩ := hrests.world.listed
    obtain rfl : ep.vitals = v' := Option.some.inj (hvitals.symm.trans hv')
    rw [hK ep hKv clock.now hclock] at havail
    cases havail
  · exact Runs.invariant_along (fun v => v.Sound ∧ v.Rests base₀ max₀ K url)
      (System.Spares base₀ max₀ url P C) (fun v e he hv => ⟨sound_step P e hv.1, hv.2.step hC hv.1 he⟩) hevents
      ⟨hsound, h⟩

/-- **Quarantine.** Take any reachable state and an endpoint that is down in it, and in every list that a reload in
flight is about to publish; these reloads have it in their configuration. Then no request is answered with it, in
any interleaving of selections, marks, health rounds and reloads, for as long as no health round finds it healthy
and no reload reads a configuration without it; and it stays listed, and down.
Source: `balancer.rs` `mark_unhealthy`, `get_next_endpoint`; `utils/health.rs` `perform_health_checks`;
`config_reloader.rs` `reload`; `strategy.rs` `select_best_endpoint` -/
theorem quarantine (hs : s.Reachable P) {ep : RpcEndpoint} (hep : ep ∈ s.world.lb.endpoints)
    (hdown : ep.healthy = false)
    (hcalls : ∀ call ∈ s.reloads, ep.url ∈ call.settings.endpoints.map EndpointConfig.url ∧
      (call.BeforeSwap → ∃ copy ∈ call.frame.newRpcEndpoints, copy.url = ep.url ∧ copy.healthy = false))
    (hevents : Runs.Along (System.step P) (System.Spares 0 0 ep.url P Vitals.StaysDown) s events) :
    Runs.Along (System.step P) (fun v e => ∀ n clock, e = .operation (.getNextEndpoint n clock) →
        (getNextEndpoint v.world n clock).1 ≠ some ep.url) s events ∧
      ∃ later ∈ (s.run P events).world.lb.endpoints, later.url = ep.url ∧ later.healthy = false := by
  have hsound := hs.sound
  have hrests : s.Rests 0 0 (fun v => v.healthy = false) ep.url := by
    refine ⟨⟨Nat.zero_le _, Nat.zero_le _, ep.vitals, vitals_of_mem hsound.world hep, hdown⟩, fun call hcall => ?_⟩
    obtain ⟨hlisted, hcopy⟩ := hcalls call hcall
    refine ⟨hs.phased call hcall, ⟨Nat.zero_le _, Nat.zero_le _, hlisted⟩, fun hb => ?_⟩
    obtain ⟨copy, hmem, hurl, hh⟩ := hcopy hb
    have hlookup := KeyedList.lookup_of_mem (hsound.frames call hcall).nodup hmem
    rw [hurl] at hlookup
    exact ⟨copy.vitals, by rw [hlookup]; rfl, hh⟩
  have hstays : ∀ base max_ v x, 0 ≤ base → 0 ≤ max_ → Vitals.StaysDown v x → v.healthy = false →
      (v.step base max_ x).1.healthy = false := fun _ _ _ _ _ _ hx hv => Vitals.down_step hx hv
  have hoff : ∀ e : RpcEndpoint, e.vitals.healthy = false → ∀ now, True → e.isAvailable now = false := by
    intro e he now _
    unfold RpcEndpoint.isAvailable
    rw [show e.healthy = false from he, Bool.false_and]
  obtain ⟨halong, -, hend⟩ := hrests.run (fun _ => True) hstays hoff hsound hevents
  obtain ⟨v, hv, hh⟩ := hend.world.listed
  obtain ⟨later, hlater, hmem, hurl⟩ := exists_mem_of_vitals hv
  refine ⟨?_, later, hmem, hurl, by rw [← hlater] at hh; exact hh⟩
  exact Runs.along_of_along (fun _ => True) (fun v e he _ => ⟨trivial, fun n clock h => he n clock h trivial⟩)
    halong trivial

/-- A failure, and after it a reload that has merged and not yet published. -/
def sampleMarked : List SystemEvent :=
  [.operation (.markUnhealthy "http://a" 1000), .startReload (fun _ => .content sampleFile) 2000] ++
    List.replicate 12 (.reloadSection 0)

/-- Then the list is published, another reload starts, and the endpoint fails a health round. -/
def sampleResting : List SystemEvent :=
  [.reloadSection 0, .operation (.getNextEndpoint 1 ⟨3000, 0⟩), .startReload (fun _ => .content sampleFile) 4000,
    .operation (.applyHealthResults [("http://a", false)] 5 5000),
    .operation (.getNextEndpoint 1 ⟨nanosPerSec * 100, 100⟩)]

/-- `quarantine` there. -/
theorem quarantine_sample :
    Runs.Along (System.step samplePlatform) (fun v e => ∀ n clock, e = .operation (.getNextEndpoint n clock) →
        (getNextEndpoint v.world n clock).1 ≠ some "http://a")
      (System.run samplePlatform ⟨sampleWorld, []⟩ sampleMarked) sampleResting := by
  have hs : System.Reachable samplePlatform (System.run samplePlatform ⟨sampleWorld, []⟩ sampleMarked) :=
    ⟨_, _, _, _, sampleMarked, new_sampleWorld, rfl⟩
  have hdown : ∃ ep ∈ (System.run samplePlatform ⟨sampleWorld, []⟩ sampleMarked).world.lb.endpoints,
      ep.url = "http://a" ∧ ep.healthy = false := by decide +kernel
  obtain ⟨ep, hep, hurl, hh⟩ := hdown
  have hcalls : ∀ call ∈ (System.run samplePlatform ⟨sampleWorld, []⟩ sampleMarked).reloads,
      "http://a" ∈ call.settings.endpoints.map EndpointConfig.url ∧
        (call.BeforeSwap → ∃ copy ∈ call.frame.newRpcEndpoints, copy.url = "http://a" ∧ copy.healthy = false) := by
    decide +kernel
  rw [← hurl] at hcalls ⊢
  have hevents : Runs.Along (System.step samplePlatform) (System.Spares 0 0 ep.url samplePlatform Vitals.StaysDown)
      (System.run samplePlatform ⟨sampleWorld, []⟩ sampleMarked) sampleResting := by
    refine ⟨trivial, trivial, fun c hc => ?_, ⟨fun _ _ _ => rfl, fun _ => trivial⟩, trivial, trivial⟩
    rw [loadSettings_sampleFile] at hc
    obtain rfl : Settings.ofEndpoints [sampleEndpoint] = c := Outcome.ok.inj hc
    refine ⟨Nat.zero_le _, Nat.zero_le _, ?_⟩
    rw [hurl]
    decide
  exact (quarantine hs hep hh hcalls hevents).1

/-- **A cooldown is observed.** Take any reachable state and let an endpoint of it answer a 429, not beyond the 63rd
attempt. Every reload in flight has the endpoint in its configuration, with bounds on cooldowns that are no smaller,
and is not about to publish a list copied before the mark. Then no request is answered with the endpoint until the
cooldown has ended, in any interleaving of selections, marks, health rounds and such reloads, as long as no health
round takes the endpoint back; further 429s and failures only prolong the cooldown, and a probe that finds an
endpoint healthy that is not down does not shorten it.
Source: `balancer.rs` `mark_rate_limited`, `get_next_endpoint`; `utils/cooldown.rs` `trigger_cooldown`;
`utils/health.rs` `perform_health_checks`; `config_reloader.rs` `reload`; `strategy.rs` `select_best_endpoint` -/
theorem cooldown_observed (hs : s.Reachable P) {ep : RpcEndpoint} (hep : ep ∈ s.world.lb.endpoints)
    (hfew : ep.cooldownAttempts < 63) {now : Instant} {w : World M}
    (hmark : markRateLimited s.world ep.url now = (w, false))
    (hcalls : ∀ call ∈ s.reloads, ¬ call.BeforeSwap ∧
      call.settings.Retains s.world.lb.baseCooldownSecs s.world.lb.maxCooldownSecs ep.url)
    (hevents : Runs.Along (System.step P) (System.Spares s.world.lb.baseCooldownSecs s.world.lb.maxCooldownSecs
      ep.url P (Vitals.Prolongs now)) ⟨w, s.reloads⟩ events) :
    Runs.Along (System.step P) (fun v e => ∀ n clock, e = .operation (.getNextEndpoint n clock) →
      clock.now < s.world.cooldownEnd ep now → (getNextEndpoint v.world n clock).1 ≠ some ep.url)
        ⟨w, s.reloads⟩ events := by
  have hsound := hs.sound
  have hstart : s.step P (.operation (.markRateLimited ep.url now)) = ⟨w, s.reloads⟩ := by
    show System.mk (markRateLimited s.world ep.url now).1 s.reloads = _
    rw [hmark]
  have hrests : System.Rests s.world.lb.baseCooldownSecs s.world.lb.maxCooldownSecs
      (Vitals.CoolsUntil (ep.cooldownAttempts + 1) (s.world.cooldownEnd ep now)) ep.url ⟨w, s.reloads⟩ := by
    refine ⟨?_, fun call hcall => ⟨hs.phased call hcall, (hcalls call hcall).2,
      fun hb => absurd hb (hcalls call hcall).1⟩⟩
    have hbounds := (keeps_markRateLimited s.world ep.url now).bounds
    rw [hmark] at hbounds
    exact ⟨hbounds.1.ge, hbounds.2.ge, cools_of_markRateLimited (vitals_of_mem hsound.world hep) hfew hmark⟩
  have hprolongs : ∀ base max_ v x, s.world.lb.baseCooldownSecs ≤ base → s.world.lb.maxCooldownSecs ≤ max_ →
      Vitals.Prolongs now v x → v.CoolsUntil (ep.cooldownAttempts + 1) (s.world.cooldownEnd ep now) →
        (v.step base max_ x).1.CoolsUntil (ep.cooldownAttempts + 1) (s.world.cooldownEnd ep now) :=
    fun _ _ _ _ hbase hmax hx hv => hv.step hbase hmax hx
  have hoff : ∀ e : RpcEndpoint, e.vitals.CoolsUntil (ep.cooldownAttempts + 1) (s.world.cooldownEnd ep now) →
      ∀ clock, clock < s.world.cooldownEnd ep now → e.isAvailable clock = false :=
    fun _ he _ hclock => RpcEndpoint.isAvailable_of_cools he hclock
  have hsound' : System.Sound ⟨w, s.reloads⟩ := hstart ▸ sound_step P _ hsound
  exact (hrests.run (· < s.world.cooldownEnd ep now) hprolongs hoff hsound' hevents).1

end quarantine

/-- A reload in flight that has not copied the list yet. -/
noncomputable def sampleReloading : System leakyBucket :=
  System.run samplePlatform ⟨sampleWorld, []⟩ [.startReload (fun _ => .content sampleFile) 2000]

/-- After a 429 at 3000: the reload goes on, a probe is answered, and there is another 429. -/
def sampleCooling : List SystemEvent :=
  [.reloadSection 0, .operation (.applyHealthResults [("http://a", true)] 5 4000),
    .operation (.markRateLimited "http://a" 5000), .operation (.getNextEndpoint 1 ⟨nanosPerSec * 5, 5⟩)]

/-- `cooldown_observed` there: six seconds for the first attempt. -/
theorem cooldown_observed_sample :
    Runs.Along (System.step samplePlatform) (fun v e => ∀ n clock, e = .operation (.getNextEndpoint n clock) →
        clock.now < 3000 + nanosPerSec * 6 → (getNextEndpoint v.world n clock).1 ≠ some "http://a")
      ⟨(markRateLimited sampleReloading.world "http://a" 3000).1, sampleReloading.reloads⟩ sampleCooling := by
  have hs : sampleReloading.Reachable samplePlatform := ⟨_, _, _, _, _, new_sampleWorld, rfl⟩
  have hfresh : ∃ ep ∈ sampleReloading.world.lb.endpoints, ep.url = "http://a" ∧ ep.cooldownAttempts = 0 := by
    decide +kernel
  obtain ⟨ep, hep, hurl, hnone⟩ := hfresh
  have hend : sampleReloading.world.cooldownEnd ep 3000 = 3000 + nanosPerSec * 6 := by
    unfold World.cooldownEnd
    rw [hnone]
    decide +kernel
  have hquiet : (markRateLimited sampleReloading.world "http://a" 3000).2 = false := by decide +kernel
  have hmark : markRateLimited sampleReloading.world ep.url 3000 =
      ((markRateLimited sampleReloading.world "http://a" 3000).1, false) := by
    rw [hurl, ← hquiet]
  have hcalls : ∀ call ∈ sampleReloading.reloads, ¬ call.BeforeSwap ∧
      call.settings.Retains sampleReloading.world.lb.baseCooldownSecs sampleReloading.world.lb.maxCooldownSecs
        ep.url := by
    rw [hurl]
    decide +kernel
  have hevents : Runs.Along (System.step samplePlatform)
      (System.Spares sampleReloading.world.lb.baseCooldownSecs sampleReloading.world.lb.maxCooldownSecs ep.url
        samplePlatform (Vitals.Prolongs 3000))
      ⟨(markRateLimited sampleReloading.world "http://a" 3000).1, sampleReloading.reloads⟩ sampleCooling := by
    rw [hurl]
    refine ⟨trivial, ?_, ?_, trivial, trivial⟩
    · show HealthTable.Delivers _ _ (Vitals.Prolongs 3000) "http://a" [("http://a", .probe true 4000)] _
      decide +kernel
    · show HealthTable.Delivers _ _ (Vitals.Prolongs 3000) "http://a" [("http://a", .rateLimited 5000)] _
      decide +kernel
  have halong := cooldown_observed hs hep (by omega) hmark hcalls hevents
  rw [hend, hurl] at halong
  exact halong

end AzothBalancer
