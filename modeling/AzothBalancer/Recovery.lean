import AzothBalancer.HealthInvariant
import AzothBalancer.SelectionOptimum

/-!
# Recovery

No state is a dead end. Let no mark and no health round read the clock after `T`, and let no configuration in
force allow cooldowns of more than `m` seconds. Then every cooldown has ended `m` seconds after `T`, whatever
reloads are in flight, and one health round in which every endpoint answers makes every endpoint available.

* `System.KeptBy` — properties of the world and of what reloads in flight publish, kept by events of a kind.
* `HealthTable.EndsBy` — the cooldowns of a table end by a time; `HealthTable.endsBy_run` is the run lemma.
* `recovery` — from every state of every such interleaving.
-/

namespace AzothBalancer

variable {M : Meter}

/-! ## Events of a kind -/

/-- `W` and `F` are kept by the operations of a kind, and by every section of a reload with settings of a kind. -/
structure System.KeptBy (P : Platform) (Op : Operation → Prop) (C : Settings → Prop) (W : World M → Prop)
    (F : ReloadFrame → Prop) : Prop where
  operation : ∀ w op, Op op → W w → W (w.exec op).1
  empty : F {}
  section_ : ∀ c now w frame sec, c.Valid → C c → W w → F frame →
    W (execSection P c now w frame sec).1 ∧ F (execSection P c now w frame sec).2

/-- The event is an operation of this kind, or a reload that reads settings of this kind. -/
def SystemEvent.IsKind (P : Platform) (Op : Operation → Prop) (C : Settings → Prop) : SystemEvent → Prop
  | .operation op => Op op
  | .startReload read _ => ∀ path c, loadSettings P read path = .ok c → C c
  | .reloadSection _ => True

section keptBy

variable {P : Platform} {Op : Operation → Prop} {C : Settings → Prop} {W : World M → Prop}
  {F : ReloadFrame → Prop}

/-- Every event of the kind keeps such properties. -/
theorem System.KeptBy.step (hk : System.KeptBy P Op C W F) {s : System M} {e : SystemEvent}
    (he : e.IsKind P Op C) (hsound : s.Sound) (hC : ∀ call ∈ s.reloads, C call.settings)
    (h : s.Holds W F) : (∀ call ∈ (s.step P e).reloads, C call.settings) ∧ (s.step P e).Holds W F := by
  cases e with
  | operation op => exact ⟨hC, hk.operation s.world op he h.world, h.frames⟩
  | startReload read now =>
      unfold System.step
      dsimp only
      split
      · rename_i c hc
        refine ⟨fun call hcall => ?_, h.world, fun call hcall => ?_⟩
        · rcases List.mem_append.mp hcall with hold | hnew
          · exact hC call hold
          · rw [List.mem_singleton] at hnew
            subst hnew
            exact he _ c hc
        · rcases List.mem_append.mp hcall with hold | hnew
          · exact h.frames call hold
          · rw [List.mem_singleton] at hnew
            subst hnew
            exact hk.empty
      · exact ⟨hC, h⟩
  | reloadSection i =>
      rcases hi : s.reloads[i]? with _ | call
      · rw [System.step_reloadSection_of_none P hi]
        exact ⟨hC, h⟩
      · have hcall : call ∈ s.reloads := List.mem_of_getElem? hi
        have hadv : W (call.advance P s.world).1 ∧ F (call.advance P s.world).2.frame := by
          unfold ReloadCall.advance
          split
          · exact ⟨h.world, h.frames call hcall⟩
          · exact hk.section_ _ call.now s.world call.frame _ (hsound.settings call hcall) (hC call hcall)
              h.world (h.frames call hcall)
        rw [System.step_reloadSection P hi]
        refine ⟨fun call' hcall' => ?_, hadv.1, fun call' hcall' => ?_⟩
        · rcases List.mem_or_eq_of_mem_set hcall' with hold | rfl
          · exact hC call' hold
          · rw [ReloadCall.advance_settings]
            exact hC call hcall
        · rcases List.mem_or_eq_of_mem_set hcall' with hold | rfl
          · exact h.frames call' hold
          · exact hadv.2

/-- **What holds at startup and is kept by the events of a kind holds after every run of such events.** -/
theorem System.KeptBy.run (hk : System.KeptBy P Op C W F) {w : World M} {events : List SystemEvent}
    (hevents : ∀ e ∈ events, e.IsKind P Op C) (hsound : System.Sound ⟨w, []⟩) (hw : W w) :
    (System.run P ⟨w, []⟩ events).Sound ∧ (System.run P ⟨w, []⟩ events).Holds W F := by
  have hinv : (System.run P ⟨w, []⟩ events).Sound ∧
      (∀ call ∈ (System.run P ⟨w, []⟩ events).reloads, C call.settings) ∧
        (System.run P ⟨w, []⟩ events).Holds W F :=
    Runs.invariant
      (fun s : System M => s.Sound ∧ (∀ call ∈ s.reloads, C call.settings) ∧ s.Holds W F)
      (fun e => e.IsKind P Op C)
      (fun _ e he h => ⟨sound_step P e h.1, hk.step he h.1 h.2.1 h.2.2⟩) hevents
      ⟨hsound, fun _ h => (by cases h), hw, fun _ h => (by cases h)⟩
  exact ⟨hinv.1, hinv.2.2⟩

end keptBy

/-! ## When cooldowns end -/

/-- The cooldown ends by this time. -/
def Vitals.EndsBy (v : Vitals) (bound : Instant) : Prop := ∀ u, v.cooldownUntil = some u → u ≤ bound

/-- Every cooldown of the table ends by this time. -/
def HealthTable.EndsBy (t : HealthTable) (bound : Instant) : Prop := ∀ url v, t url = some v → v.EndsBy bound

/-- The event reads the clock by `T`, or it is a probe that was answered. -/
def HealthEvent.ReadsBy (T : Instant) (x : HealthEvent) : Prop := x.now ≤ T ∨ ∃ now, x = .probe true now

section ends

variable {base max_ T m : ℕ} {v : Vitals} {t : HealthTable}

/-- A cooldown lasts `max_` seconds at most.
Source: `utils/cooldown.rs` `trigger_cooldown` -/
theorem Vitals.EndsBy.trigger {now : Instant} (h : v.EndsBy (T + nanosPerSec * m)) (hnow : now ≤ T)
    (hmax : max_ ≤ m) : (v.trigger base max_ now).1.EndsBy (T + nanosPerSec * m) := by
  intro u hu
  unfold Vitals.trigger at hu
  dsimp only at hu
  split at hu
  · rename_i until_ huntil
    obtain rfl : until_ = u := Option.some.inj hu
    have hduration : cooldownDuration (saturatingAdd32 v.cooldownAttempts 1) base max_ ≤ m :=
      (min_le_right _ _).trans hmax
    rw [Instant.eq_of_checkedAddSecs huntil]
    exact Nat.add_le_add hnow (Nat.mul_le_mul_left _ hduration)
  · exact h u hu

/-- An event keeps the bound. -/
theorem Vitals.EndsBy.step {x : HealthEvent} (h : v.EndsBy (T + nanosPerSec * m)) (hx : x.ReadsBy T)
    (hmax : max_ ≤ m) : (v.step base max_ x).1.EndsBy (T + nanosPerSec * m) := by
  rcases Vitals.step_cases base max_ v x with ⟨htrig, -, b, -, hstep⟩ | ⟨-, -, hstep⟩ | ⟨-, -, hstep⟩
  · rw [hstep]
    rcases hx with hnow | ⟨now, rfl⟩
    · exact Vitals.EndsBy.trigger (v := { v with healthy := b }) h hnow hmax
    · cases htrig
  · rw [hstep]
    exact fun u hu => (by cases hu)
  · rw [hstep]
    exact h

/-- **A run of events keeps the bound.** -/
theorem HealthTable.endsBy_run : ∀ {xs : List (String × HealthEvent)} {t : HealthTable},
    t.EndsBy (T + nanosPerSec * m) → (∀ x ∈ xs, x.2.ReadsBy T) → max_ ≤ m →
      (HealthTable.run base max_ xs t).1.EndsBy (T + nanosPerSec * m)
  | [], _, h, _, _ => h
  | x :: xs, t, h, hxs, hmax => by
      have hstep : (t.step base max_ x).1.EndsBy (T + nanosPerSec * m) := by
        intro url v hv
        rw [HealthTable.step_apply] at hv
        split at hv
        · obtain ⟨v₀, hv₀, rfl⟩ := Option.map_eq_some_iff.mp hv
          exact (h url v₀ hv₀).step (hxs x List.mem_cons_self) hmax
        · exact h url v hv
      rw [HealthTable.run]
      rcases hs : t.step base max_ x with ⟨t', _ | _⟩
      · rw [hs] at hstep
        exact HealthTable.endsBy_run hstep (fun y hy => hxs y (List.mem_cons_of_mem _ hy)) hmax
      · rw [hs] at hstep
        exact hstep

/-- Probes that are all answered do not panic, and leave the endpoints they concern healthy.
Source: `utils/health.rs` `perform_health_checks` -/
theorem HealthTable.run_answered {now : Instant} : ∀ {results : List (String × Bool)} {t : HealthTable},
    (∀ r ∈ results, r.2 = true) →
      (HealthTable.run base max_ (results.map fun r => (r.1, .probe r.2 now)) t).2 = false ∧
      ∀ url v, (HealthTable.run base max_ (results.map fun r => (r.1, .probe r.2 now)) t).1 url = some v →
        (url ∈ results.map Prod.fst ∨ ∃ v₀, t url = some v₀ ∧ v₀.healthy = true) → v.healthy = true
  | [], t, _ => by
      refine ⟨rfl, fun url v hv hor => ?_⟩
      obtain hnone | ⟨v₀, hv₀, hh⟩ := hor
      · cases hnone
      · obtain rfl : v₀ = v := Option.some.inj (hv₀.symm.trans hv)
        exact hh
  | (u, b) :: rest, t, hall => by
      obtain rfl : b = true := hall (u, b) List.mem_cons_self
      have hrest : (HealthTable.run base max_ (rest.map fun r => (r.1, .probe r.2 now))
            (t.step base max_ (u, .probe true now)).1).2 = false ∧
          ∀ url v, (HealthTable.run base max_ (rest.map fun r => (r.1, .probe r.2 now))
            (t.step base max_ (u, .probe true now)).1).1 url = some v →
              (url ∈ rest.map Prod.fst ∨
                ∃ v₀, (t.step base max_ (u, .probe true now)).1 url = some v₀ ∧ v₀.healthy = true) →
                  v.healthy = true :=
        HealthTable.run_answered fun r hr => hall r (List.mem_cons_of_mem _ hr)
      have hhealthy : ∀ v : Vitals, (v.step base max_ (.probe true now)).1.healthy = true ∧
          (v.step base max_ (.probe true now)).2 = false := by
        intro v
        by_cases hh : v.healthy
        · simp [Vitals.step, hh]
        · simp [Vitals.step, hh, Vitals.initial]
      have hquiet : (t.step base max_ (u, .probe true now)).2 = false := by
        unfold HealthTable.step
        split
        · rfl
        · exact (hhealthy _).2
      have hrun : HealthTable.run base max_ (((u, true) :: rest).map fun r => (r.1, .probe r.2 now)) t =
          HealthTable.run base max_ (rest.map fun r => (r.1, .probe r.2 now))
            (t.step base max_ (u, .probe true now)).1 := by
        rw [List.map_cons, HealthTable.run]
        rcases hs : t.step base max_ (u, .probe true now) with ⟨t', _ | _⟩
        · rfl
        · rw [hs] at hquiet
          cases hquiet
      rw [hrun]
      refine ⟨hrest.1, fun url v hv hor => hrest.2 url v hv ?_⟩
      by_cases hu : url ∈ rest.map Prod.fst
      · exact Or.inl hu
      · have hsome : ((HealthTable.run base max_ (rest.map fun r => (r.1, .probe r.2 now))
            (t.step base max_ (u, .probe true now)).1).1 url).isSome := by
          rw [hv]
          rfl
        rw [HealthTable.run_apply hrest.1, Option.isSome_map] at hsome
        obtain ⟨v₁, hv₁⟩ := Option.isSome_iff_exists.mp hsome
        refine Or.inr ⟨v₁, hv₁, ?_⟩
        rw [HealthTable.step_apply] at hv₁
        split at hv₁
        · obtain ⟨v₀, -, rfl⟩ := Option.map_eq_some_iff.mp hv₁
          exact (hhealthy v₀).1
        · rename_i hne
          obtain hmem | ⟨v₀, hv₀, hh⟩ := hor
          · rcases List.mem_cons.mp hmem with heq | hin
            · exact absurd heq.symm hne
            · exact absurd hin hu
          · obtain rfl : v₀ = v₁ := Option.some.inj (hv₀.symm.trans hv₁)
            exact hh

end ends

/-! ## The bound over interleavings -/

section bound

variable {T m : ℕ}

/-- The balancer allows cooldowns of at most `m` seconds, and none runs longer than that after `T`. -/
structure World.EndsBy (T m : ℕ) (w : World M) : Prop where
  allowed : w.lb.maxCooldownSecs ≤ m
  ends : w.lb.vitals.EndsBy (T + nanosPerSec * m)

/-- What the reload is about to publish is in no longer cooldown. -/
def ReloadFrame.EndsBy (T m : ℕ) (frame : ReloadFrame) : Prop :=
  HealthTable.EndsBy (fun url =>
    (KeyedList.lookup RpcEndpoint.url url frame.newRpcEndpoints).map RpcEndpoint.vitals) (T + nanosPerSec * m)

/-- An operation whose events read the clock by `T` keeps the bound. -/
theorem World.EndsBy.exec {w : World M} {op : Operation} (h : w.EndsBy T m)
    (hop : ∀ x ∈ op.events, x.2.ReadsBy T) : (w.exec op).1.EndsBy T m where
  allowed := (keeps_exec w op).bounds.2.trans_le h.allowed
  ends := by
    have hvitals : (w.exec op).1.lb.vitals =
        (HealthTable.run w.lb.baseCooldownSecs w.lb.maxCooldownSecs op.events w.lb.vitals).1 :=
      congrArg Prod.fst (exec_refines w op)
    rw [hvitals]
    exact HealthTable.endsBy_run h.ends hop h.allowed

/-- The bound depends on the list and on the maximum alone. -/
theorem World.EndsBy.of_eq {w w' : World M} (h : w.EndsBy T m) (heps : w'.lb.endpoints = w.lb.endpoints)
    (hmax : w'.lb.maxCooldownSecs ≤ m) : w'.EndsBy T m where
  allowed := hmax
  ends := by
    unfold LoadBalancer.vitals LoadBalancer.endpoint?
    rw [heps]
    exact h.ends

/-- A quiet section leaves the bounds on cooldowns, or publishes those of its settings. -/
theorem cooldownSecs_quiet (P : Platform) (c : Settings) (now : Instant) (w : World M) (frame : ReloadFrame)
    {sec : ReloadSection} (h : sec.isQuiet) :
    ((execSection P c now w frame sec).1.lb.baseCooldownSecs = w.lb.baseCooldownSecs ∨
      (execSection P c now w frame sec).1.lb.baseCooldownSecs = c.baseCooldownSecs) ∧
    ((execSection P c now w frame sec).1.lb.maxCooldownSecs = w.lb.maxCooldownSecs ∨
      (execSection P c now w frame sec).1.lb.maxCooldownSecs = c.maxCooldownSecs) := by
  have hleft : (w.lb.baseCooldownSecs = w.lb.baseCooldownSecs ∨ w.lb.baseCooldownSecs = c.baseCooldownSecs) ∧
      (w.lb.maxCooldownSecs = w.lb.maxCooldownSecs ∨ w.lb.maxCooldownSecs = c.maxCooldownSecs) :=
    ⟨Or.inl rfl, Or.inl rfl⟩
  unfold execSection
  split
  · exact hleft
  · cases sec with
    | publish p =>
        cases p <;> first | exact hleft | exact ⟨Or.inr rfl, Or.inl rfl⟩ | exact ⟨Or.inl rfl, Or.inr rfl⟩
    | writeClientField f =>
        dsimp only
        split
        · cases f <;> exact hleft
        · exact hleft
    | writeClient =>
        dsimp only
        split <;> exact hleft
    | merge => cases h
    | _ => exact hleft

/-- A section of a reload with such settings keeps the bound: a merge carries cooldowns over and starts none.
Source: `config_reloader.rs` `reload` -/
theorem endsBy_execSection (P : Platform) {c : Settings} (hc : c.Valid) (hmax : c.maxCooldownSecs ≤ m)
    (now : Instant) {w : World M} {frame : ReloadFrame} (hw : w.EndsBy T m) (hf : frame.EndsBy T m)
    (sec : ReloadSection) : (execSection P c now w frame sec).1.EndsBy T m ∧
      (execSection P c now w frame sec).2.EndsBy T m := by
  by_cases hq : sec.isQuiet
  · obtain ⟨hs, heps, -, -⟩ := execSection_quiet P c now w frame hq
    refine ⟨hw.of_eq hs.endpoints ?_, ?_⟩
    · rcases (cooldownSecs_quiet P c now w frame hq).2 with hold | hnew
      · exact hold.trans_le hw.allowed
      · exact hnew.trans_le hmax
    · unfold ReloadFrame.EndsBy
      rw [heps]
      exact hf
  · unfold execSection
    split
    · exact ⟨hw, hf⟩
    · cases sec with
      | merge =>
          obtain ⟨s, eps, hstep, heq⟩ := mergeSection_spec hc now w frame
          rw [heq]
          refine ⟨hw.of_eq rfl hw.allowed, fun url v hv => ?_⟩
          dsimp only at hv
          rw [hstep.vitals] at hv
          split at hv
          · obtain rfl := Option.some.inj hv
            rcases hold : w.lb.vitals url with _ | v₀
            · exact fun u hu => (by cases hu)
            · exact hw.ends url v₀ hold
          · cases hv
      | writeEndpoints => exact ⟨⟨hw.allowed, hf⟩, hf⟩
      | writeRateLimiters => exact ⟨⟨hw.allowed, hw.ends⟩, hf⟩
      | _ => exact absurd rfl hq

/-- The operation's events read the clock by `T`, or are probes that were answered. -/
def Operation.ReadsBy (T : Instant) (op : Operation) : Prop := ∀ x ∈ op.events, x.2.ReadsBy T

/-- The settings allow cooldowns of at most `m` seconds. -/
def Settings.CoolsWithin (m : ℕ) (c : Settings) : Prop := c.maxCooldownSecs ≤ m

/-- The bound is kept by the operations that read the clock by `T`, and by reloads that allow no longer cooldown. -/
theorem endsBy_kept (P : Platform) : System.KeptBy P (Operation.ReadsBy T) (Settings.CoolsWithin m)
    (World.EndsBy (M := M) T m) (ReloadFrame.EndsBy T m) where
  operation _ _ hop h := h.exec hop
  empty := fun _ _ hv => (by cases hv)
  section_ _ now _ _ sec hc hmax hw hf := endsBy_execSection P hc hmax now hw hf sec

/-- Startup begins without cooldowns. -/
theorem endsBy_of_new {lower : List Char → List Char} {config : Option Config} {path : String} {start : Instant}
    {w : World M} (hnew : LoadBalancer.new M lower config path start = some w) (hmax : w.lb.maxCooldownSecs ≤ m) :
    w.EndsBy T m where
  allowed := hmax
  ends url v hv := by
    rw [vitals_of_new hnew hv]
    exact fun u hu => (by cases hu)

end bound

/-! ## Recovery -/

section recovery

variable {T m : ℕ} {w : World M}

/-- A healthy endpoint is available once its cooldown must have ended. -/
theorem World.EndsBy.isAvailable (h : w.EndsBy T m) (hw : w.WellFormed) {ep : RpcEndpoint}
    (hep : ep ∈ w.lb.endpoints) (hh : ep.healthy = true) {now : Instant} (hnow : T + nanosPerSec * m ≤ now) :
    ep.isAvailable now = true := by
  have hv : w.lb.vitals ep.url = some ep.vitals := by
    unfold LoadBalancer.vitals
    rw [hw.endpoint?_of_mem hep]
    rfl
  have hcool : ep.isInCooldown now = false := by
    unfold RpcEndpoint.isInCooldown
    split
    · rename_i u hu
      have hend : u ≤ T + nanosPerSec * m := h.ends _ _ hv u hu
      exact decide_eq_false (not_lt.mpr (hend.trans hnow))
    · rfl
  unfold RpcEndpoint.isAvailable
  rw [hh, hcool]
  rfl

/-- A health round in which every probe is answered: it does not panic, keeps the bound, and leaves every endpoint
it concerns healthy.
Source: `utils/health.rs` `perform_health_checks` -/
theorem performHealthChecks_answered {results : List (String × Bool)} (hall : ∀ r ∈ results, r.2 = true)
    (hw : w.WellFormed) (h : w.EndsBy T m) (now : Instant) :
    (performHealthChecks w results now).2 = false ∧ (performHealthChecks w results now).1.EndsBy T m ∧
      ∀ ep ∈ (performHealthChecks w results now).1.lb.endpoints, ep.url ∈ results.map Prod.fst →
        ep.healthy = true := by
  have href := performHealthChecks_refines w results now
  have hvitals : (performHealthChecks w results now).1.lb.vitals =
      (HealthTable.run w.lb.baseCooldownSecs w.lb.maxCooldownSecs
        (results.map fun r => (r.1, .probe r.2 now)) w.lb.vitals).1 := congrArg Prod.fst href
  have hk := keeps_performHealthChecks w results now
  obtain ⟨hquiet, hhealthy⟩ : (HealthTable.run w.lb.baseCooldownSecs w.lb.maxCooldownSecs
        (results.map fun r => (r.1, .probe r.2 now)) w.lb.vitals).2 = false ∧
      ∀ url v, (HealthTable.run w.lb.baseCooldownSecs w.lb.maxCooldownSecs
        (results.map fun r => (r.1, .probe r.2 now)) w.lb.vitals).1 url = some v →
          (url ∈ results.map Prod.fst ∨ ∃ v₀, w.lb.vitals url = some v₀ ∧ v₀.healthy = true) →
            v.healthy = true := HealthTable.run_answered hall
  have hreads : ∀ x ∈ results.map fun r => (r.1, HealthEvent.probe r.2 now), x.2.ReadsBy T := by
    intro x hx
    obtain ⟨r, hr, rfl⟩ := List.mem_map.mp hx
    exact Or.inr ⟨now, by rw [hall r hr]⟩
  refine ⟨(congrArg Prod.snd href).trans hquiet, ⟨hk.bounds.2.trans_le h.allowed, ?_⟩, fun ep hep hmem => ?_⟩
  · rw [hvitals]
    exact HealthTable.endsBy_run h.ends hreads h.allowed
  · have hv : (performHealthChecks w results now).1.lb.vitals ep.url = some ep.vitals := by
      unfold LoadBalancer.vitals
      rw [(hk.wellFormed hw).endpoint?_of_mem hep]
      rfl
    rw [hvitals] at hv
    exact hhealthy _ _ hv (Or.inl hmem)

/-- A round that does not panic counts the available endpoints.
Source: `balancer.rs` `update_healthy_count` -/
theorem healthyEndpoints_performHealthChecks {results : List (String × Bool)} {now : Instant}
    (h : (performHealthChecks w results now).2 = false) :
    (performHealthChecks w results now).1.prom.value .healthyEndpoints [] =
      ((performHealthChecks w results now).1.lb.endpoints.filter fun ep => ep.isAvailable now).length := by
  unfold performHealthChecks at h ⊢
  dsimp only at h ⊢
  split
  · rename_i heq
    rw [heq] at h
    cases h
  · unfold updateHealthyCount updateHealthyCountAt
    simp

/-- Every endpoint is available from this time on, and the gauge of available endpoints shows them all. -/
structure World.Recovered (w : World M) (since : Instant) : Prop where
  available : ∀ ep ∈ w.lb.endpoints, ∀ now, since ≤ now → ep.isAvailable now = true
  gauge : w.prom.value .healthyEndpoints [] = w.lb.endpoints.length
  /-- A request is refused for want of cells only. -/
  served : ∀ n now, since ≤ now → ((selectBestEndpoint w n now).1.isSome ↔
    ∃ ep ∈ w.lb.endpoints, 0 < ep.weight ∧ w.Grants n now ep.url)

end recovery

/-- **Every state recovers.** Take any startup and any interleaving of selections, marks, health rounds and
reloads in flight. Let marks and failed probes read the clock by `T`, and let no configuration that came into
force allow cooldowns beyond `m` seconds. Then a healthy endpoint is available from `m` seconds after `T` on; and
one health round from then on in which every listed endpoint answers does not panic, keeps the list, and makes
every endpoint available for good: what then is not served lacks cells.
Source: `utils/health.rs` `perform_health_checks`; `utils/cooldown.rs` `trigger_cooldown`;
`config_reloader.rs` `reload`; `strategy.rs` `select_best_endpoint` -/
theorem recovery (P : Platform) {config : Option Config} {path : String} {start : Instant} {w₀ : World M} {T m : ℕ}
    (hnew : LoadBalancer.new M P.toLowercase config path start = some w₀) (hmax : w₀.lb.maxCooldownSecs ≤ m)
    {events : List SystemEvent}
    (hevents : ∀ e ∈ events, e.IsKind P (Operation.ReadsBy T) (Settings.CoolsWithin m)) {w : World M}
    (hrun : (System.run P ⟨w₀, []⟩ events).world = w) :
    (∀ ep ∈ w.lb.endpoints, ep.healthy = true →
      ∀ now, T + nanosPerSec * m ≤ now → ep.isAvailable now = true) ∧
    ∀ results now, T + nanosPerSec * m ≤ now → (∀ r ∈ results, r.2 = true) →
      (∀ url ∈ w.lb.endpoints.map RpcEndpoint.url, url ∈ results.map Prod.fst) →
        (performHealthChecks w results now).2 = false ∧
          (performHealthChecks w results now).1.lb.endpoints.map RpcEndpoint.profile =
            w.lb.endpoints.map RpcEndpoint.profile ∧
          (performHealthChecks w results now).1.Recovered (T + nanosPerSec * m) := by
  have hsound : System.Sound ⟨w₀, []⟩ :=
    System.Reachable.sound ⟨config, path, start, w₀, [], hnew, rfl⟩
  obtain ⟨hs, hholds⟩ := (endsBy_kept P).run hevents hsound (endsBy_of_new (T := T) hnew hmax)
  have hw : w.WellFormed := hrun ▸ hs.world
  have hends : w.EndsBy T m := hrun ▸ hholds.world
  refine ⟨fun ep hep hh now hnow => hends.isAvailable hw hep hh hnow,
    fun results now hnow hall hcovered => ?_⟩
  have hk := keeps_performHealthChecks w results now
  obtain ⟨hquiet, hends', hhealthy⟩ := performHealthChecks_answered hall hw hends now
  have havail : ∀ ep ∈ (performHealthChecks w results now).1.lb.endpoints, ∀ later, T + nanosPerSec * m ≤ later →
      ep.isAvailable later = true := by
    intro ep hep later hlater
    have hurl : ep.url ∈ w.lb.endpoints.map RpcEndpoint.url := hk.urls ▸ List.mem_map_of_mem hep
    exact hends'.isAvailable (hk.wellFormed hw) hep (hhealthy ep hep (hcovered _ hurl)) hlater
  refine ⟨hquiet, hk.profiles, havail, ?_, fun n later hlater => ?_⟩
  · rw [healthyEndpoints_performHealthChecks hquiet,
      List.filter_eq_self.mpr fun ep hep => havail ep hep now hnow]
  · rw [selectBestEndpoint_isSome_iff]
    refine exists_congr fun ep => and_congr_right fun hep => ?_
    have ha := havail ep hep later hlater
    unfold RpcEndpoint.isAvailable at ha
    rw [Bool.and_eq_true, Bool.not_eq_true'] at ha
    exact ⟨fun hsel => ⟨hsel.weight, hsel.granted⟩, fun ⟨hweight, hgrants⟩ => ⟨ha.1, ha.2, hweight, hgrants⟩⟩

/-- A failure, a 429 and a reload that is still in flight. -/
def sampleTrouble : List SystemEvent := [
  .operation (.markUnhealthy "http://a" 1000), .startReload (fun _ => .content sampleFile) 2000,
  .operation (.markRateLimited "http://a" 3000), .reloadSection 0, .reloadSection 0]

/-- `recovery` from there, with a round after the longest cooldown. -/
theorem recovery_sample :
    (performHealthChecks (System.run samplePlatform ⟨sampleWorld, []⟩ sampleTrouble).world [("http://a", true)]
      (3000 + nanosPerSec * 60)).1.Recovered (3000 + nanosPerSec * 60) := by
  have hmax : sampleWorld.lb.maxCooldownSecs ≤ 60 := by decide
  have hkind : ∀ e ∈ sampleTrouble,
      e.IsKind samplePlatform (Operation.ReadsBy 3000) (Settings.CoolsWithin 60) := by
    intro e he
    simp only [sampleTrouble, List.mem_cons, List.not_mem_nil, or_false] at he
    rcases he with rfl | rfl | rfl | rfl | rfl
    · exact fun x hx => Or.inl (by simp_all [Operation.events, HealthEvent.now])
    · intro path c hc
      rw [loadSettings_sampleFile] at hc
      obtain rfl : Settings.ofEndpoints [sampleEndpoint] = c := Outcome.ok.inj hc
      show defaultMaxCooldownSecs ≤ 60
      decide
    · exact fun x hx => Or.inl (by simp_all [Operation.events, HealthEvent.now])
    · trivial
    · trivial
  have hurls : ∀ url ∈ (System.run samplePlatform ⟨sampleWorld, []⟩ sampleTrouble).world.lb.endpoints.map
      RpcEndpoint.url, url ∈ [("http://a", true)].map Prod.fst := by decide +kernel
  exact ((recovery samplePlatform new_sampleWorld hmax hkind rfl).2 _ _ le_rfl (by decide) hurls).2.2

end AzothBalancer
