import AzothBalancer.HealthInvariant

/-!
# Marks during a reload

A reload copies the endpoint records in its merge section and publishes the copies in a later one. A
mark made in between is overwritten (`lost_mark`), although the merge is there to "preserve state of
existing endpoint".

What the interleaving should have done is given by its *shadow*: the same operations, in the same
order, on a world without the reload (`Shadowed`). `no_mark_lost_of_quiet` says when the two agree at
every endpoint that is in both lists: when no operation between the merge and the swap finds
something to change there. The invariant (`Follows`) carries the agreement of the vitals through the
four phases of the reload; in the merged phase it also says that the copies are up to date.

A health round stops at a panic, and then the results it still had are lost as well. Up to the swap it
does so in both worlds; after it, it may stop at an endpoint that only one of them has, which a
condition on the clock excludes (`Operation.FitsClock`).
-/

namespace AzothBalancer

variable {M : Meter}

/-! ## Events that change nothing -/

/-- The event finds nothing to change: the endpoint is down already, or a probe confirms what the
health flag says. A 429 always counts. -/
def Vitals.Ignores (v : Vitals) : HealthEvent → Prop
  | .rateLimited _ => False
  | .unhealthy _ => v.healthy = false
  | .probe isHealthy _ => v.healthy = isHealthy

/-- An ignored event changes nothing. -/
theorem Vitals.step_of_ignores {v : Vitals} {e : HealthEvent} (h : v.Ignores e) (base max_ : ℕ) :
    v.step base max_ e = (v, false) := by
  cases e with
  | rateLimited now => exact h.elim
  | unhealthy now =>
      have hh : v.healthy = false := h
      simp [Vitals.step, hh]
  | probe isHealthy now =>
      have hh : v.healthy = isHealthy := h
      cases isHealthy <;> simp [Vitals.step, hh]

namespace HealthTable

variable {base max_ : ℕ} {Common : String → Prop}

/-- At the URLs of `Common`, the table ignores the events. -/
def Ignores (Common : String → Prop) (t : HealthTable) (xs : List (String × HealthEvent)) : Prop :=
  ∀ x ∈ xs, Common x.1 → ∀ v, t x.1 = some v → v.Ignores x.2

/-- Events that are ignored at some URLs leave those URLs as they are. -/
theorem run_of_ignores : ∀ {xs : List (String × HealthEvent)} {t : HealthTable},
    t.Ignores Common xs → ∀ url, Common url → (run base max_ xs t).1 url = t url
  | [], _, _, _, _ => rfl
  | x :: xs, t, h, url, hurl => by
      have hone : ∀ u, Common u → (t.step base max_ x).1 u = t u := by
        intro u hu
        rw [step_apply]
        split
        · rename_i hx
          cases ht : t u with
          | none => rfl
          | some v =>
              have hig : v.Ignores x.2 := h x List.mem_cons_self (hx ▸ hu) v (hx ▸ ht)
              rw [Option.map_some, Vitals.step_of_ignores hig]
        · rfl
      have hrest : HealthTable.Ignores Common (t.step base max_ x).1 xs := by
        intro y hy hyc v hv
        rw [hone y.1 hyc] at hv
        exact h y (List.mem_cons_of_mem _ hy) hyc v hv
      rw [run]
      cases hs : t.step base max_ x with
      | mk t' panicked =>
          rw [hs] at hone hrest
          cases panicked with
          | true => exact hone url hurl
          | false => exact (run_of_ignores hrest url hurl).trans (hone url hurl)

/-- No event removes a URL. -/
theorem run_isSome : ∀ {xs : List (String × HealthEvent)} {t : HealthTable} {url : String},
    (t url).isSome → ((run base max_ xs t).1 url).isSome
  | [], _, _, h => h
  | x :: xs, t, url, h => by
      have hone : ((t.step base max_ x).1 url).isSome := by
        rw [step_apply]
        split
        · simpa using h
        · exact h
      rw [run]
      cases hs : t.step base max_ x with
      | mk t' panicked =>
          rw [hs] at hone
          cases panicked with
          | true => exact hone
          | false => exact run_isSome hone

/-- Two tables that agree at a URL agree there after one event. -/
theorem step_congr {t t' : HealthTable} {url : String} (h : t url = t' url)
    (x : String × HealthEvent) : (t.step base max_ x).1 url = (t'.step base max_ x).1 url := by
  rw [step_apply, step_apply, h]

end HealthTable

/-! ## Health rounds that fit the clock -/

/-- A health round's results are for distinct URLs, as those of a snapshot are. -/
def Operation.Distinct : Operation → Prop
  | .applyHealthResults results _ _ => (results.map Prod.fst).Nodup
  | _ => True

/-- The cooldowns a health round asks for fit the clock, but for those at the URLs of `Common`. -/
def Operation.FitsClock (Common : String → Prop) (lb : LoadBalancer) : Operation → Prop
  | .applyHealthResults results _ now =>
      ∀ url, ¬ Common url → (url, false) ∈ results → ∀ v, lb.vitals url = some v → v.healthy = true →
        (Instant.checkedAddSecs now (cooldownDuration (saturatingAdd32 v.cooldownAttempts 1)
          lb.baseCooldownSecs lb.maxCooldownSecs)).isSome
  | _ => True

/-- A result that asks for a cooldown does not overflow if it fits the clock. -/
theorem HealthTable.overflows_eq_false {base max_ : ℕ} {now : Instant} {t : HealthTable} {r : String × Bool}
    (h : r.2 = false → ∀ v, t r.1 = some v → v.healthy = true →
      (Instant.checkedAddSecs now (cooldownDuration (saturatingAdd32 v.cooldownAttempts 1)
        base max_)).isSome) : t.overflows base max_ now r = false := by
  rw [Bool.eq_false_iff]
  intro hover
  unfold overflows at hover
  split at hover
  · cases hover
  · rename_i v hv
    simp only [Bool.and_eq_true, Bool.not_eq_true', Option.isNone_iff_eq_none] at hover
    have hfits := h hover.1.1 v hv hover.1.2
    rw [hover.2] at hfits
    cases hfits

section congr

variable {w w' : World M} {op : Operation} (hbase : w.lb.baseCooldownSecs = w'.lb.baseCooldownSecs)
  (hmax : w.lb.maxCooldownSecs = w'.lb.maxCooldownSecs)
include hbase hmax

/-- Two worlds of equal vitals have equal vitals after an operation, whether it panics or not. -/
theorem vitals_exec_of_eq (h : w.lb.vitals = w'.lb.vitals) :
    (w.exec op).1.lb.vitals = (w'.exec op).1.lb.vitals := by
  have href := congrArg Prod.fst (exec_refines w op)
  have href' := congrArg Prod.fst (exec_refines w' op)
  dsimp only at href href'
  rw [href, href', ← hbase, ← hmax, h]

/-- **Two worlds that agree at some URLs agree there after an operation**, when the cooldowns of a health
round that are for other URLs fit the clock in both: then it stops in both at the same result, if it does.
A mark may panic: it concerns one URL only. -/
theorem vitals_exec_congr {Common : String → Prop}
    (h : ∀ url, Common url → w.lb.vitals url = w'.lb.vitals url) (hd : op.Distinct)
    (hf : op.FitsClock Common w.lb) (hf' : op.FitsClock Common w'.lb) {url : String} (hurl : Common url) :
    (w.exec op).1.lb.vitals url = (w'.exec op).1.lb.vitals url := by
  have href := congrArg Prod.fst (exec_refines w op)
  have href' := congrArg Prod.fst (exec_refines w' op)
  dsimp only at href href'
  rw [href, href', ← hbase, ← hmax]
  have hmark : ∀ x, (HealthTable.run w.lb.baseCooldownSecs w.lb.maxCooldownSecs [x] w.lb.vitals).1
      url = (HealthTable.run w.lb.baseCooldownSecs w.lb.maxCooldownSecs [x] w'.lb.vitals).1 url := by
    intro x
    rw [HealthTable.run_singleton, HealthTable.run_singleton]
    exact HealthTable.step_congr (h url hurl) x
  cases op with
  | markUnhealthy u now => exact hmark _
  | markRateLimited u now => exact hmark _
  | applyHealthResults results timeoutMs now =>
      have hover : ∀ r ∈ results,
          w.lb.vitals.overflows w.lb.baseCooldownSecs w.lb.maxCooldownSecs now r =
            w'.lb.vitals.overflows w.lb.baseCooldownSecs w.lb.maxCooldownSecs now r := by
        rintro ⟨u, isHealthy⟩ hr
        by_cases hu : Common u
        · exact HealthTable.overflows_congr (h u hu)
        · rw [HealthTable.overflows_eq_false, HealthTable.overflows_eq_false]
          · rintro rfl v hv hh
            rw [hbase, hmax]
            exact hf' u hu hr v hv hh
          · rintro rfl v hv hh
            exact hf u hu hr v hv hh
      show (HealthTable.run _ _ (results.map fun r => (r.1, .probe r.2 now)) _).1 url =
        (HealthTable.run _ _ (results.map fun r => (r.1, .probe r.2 now)) _).1 url
      rw [HealthTable.run_probes_apply hd, HealthTable.run_probes_apply hd,
        HealthTable.reached_congr hover, h url hurl]
  | getNextEndpoint n clock => exact h url hurl
  | updateHealthyCount now => exact h url hurl
  | updateMetrics u result elapsedMs => exact h url hurl

end congr

/-! ## A reload and its shadow -/

/-- A system, and a world in which the same operations happen without any reload. -/
structure Shadowed (M : Meter) where
  system : System M
  shadow : World M

/-- One step of both. -/
def Shadowed.step (P : Platform) (s : Shadowed M) (e : SystemEvent) : Shadowed M where
  system := s.system.step P e
  shadow :=
    match e with
    | .operation op => (s.shadow.exec op).1
    | _ => s.shadow

/-- An interleaving of a reload with its shadow. -/
def Shadowed.run (P : Platform) (s : Shadowed M) (events : List SystemEvent) : Shadowed M :=
  Runs.run (Shadowed.step P) s events

/-- A reload to `c` about to start in `w`, and its shadow. -/
def Shadowed.start (w : World M) (c : Settings) (now : Instant) : Shadowed M :=
  ⟨.solo w c now, w⟩

/-- The steps of one reload and of operations. -/
def SystemEvent.IsStep : SystemEvent → Prop
  | .operation op => op.Distinct
  | .startReload _ _ => False
  | .reloadSection _ => True

/-- The condition on a step: an operation between the merge and the swap finds nothing to change at
the URLs of `Common`. After the swap, a health round's cooldowns at other URLs, those of endpoints that are
only there with the reload or only without it, fit the clock. -/
def QuietStep (Common : String → Prop) (s : Shadowed M) : SystemEvent → Prop
  | .operation op =>
      ((∃ call ∈ s.system.reloads, call.BeforeSwap) →
        s.system.world.lb.vitals.Ignores Common op.events) ∧
      ((∀ call ∈ s.system.reloads, .writeEndpoints ∉ call.rest) →
        op.FitsClock Common s.system.world.lb ∧ op.FitsClock Common s.shadow.lb)
  | _ => True

/-- The URLs of both endpoint lists. -/
def CommonUrl (w : World M) (c : Settings) (url : String) : Prop :=
  url ∈ w.lb.endpoints.map RpcEndpoint.url ∧ url ∈ c.endpoints.map EndpointConfig.url

/-- The invariant of a reload and its shadow: the vitals agree at the common URLs, up to the swap at all, and
between the merge and the swap the copies are up to date at the common ones. -/
structure Follows (c : Settings) (Common : String → Prop) (phase : ReloadPhase) (call : ReloadCall)
    (s : Shadowed M) : Prop where
  solo : Solo c phase call s.system
  bounds : s.system.world.lb.baseCooldownSecs = c.baseCooldownSecs ∧
    s.system.world.lb.maxCooldownSecs = c.maxCooldownSecs
  shadowBounds : s.shadow.lb.baseCooldownSecs = c.baseCooldownSecs ∧
    s.shadow.lb.maxCooldownSecs = c.maxCooldownSecs
  agree : ∀ url, Common url → s.system.world.lb.vitals url = s.shadow.lb.vitals url
  before : phase = .reading ∨ phase = .merged → s.system.world.lb.vitals = s.shadow.lb.vitals
  present : ∀ url, Common url → (s.system.world.lb.vitals url).isSome
  copies : phase = .merged → ∀ url, Common url →
    (KeyedList.lookup RpcEndpoint.url url call.frame.newRpcEndpoints).map RpcEndpoint.vitals =
      s.system.world.lb.vitals url

/-- The bounds stay while they are those of the reload's settings. -/
theorem execSection_bounds (P : Platform) {c : Settings} (now : Instant) {w : World M}
    {frame : ReloadFrame} (h : w.lb.baseCooldownSecs = c.baseCooldownSecs ∧
      w.lb.maxCooldownSecs = c.maxCooldownSecs) (sec : ReloadSection) :
    (execSection P c now w frame sec).1.lb.baseCooldownSecs = c.baseCooldownSecs ∧
      (execSection P c now w frame sec).1.lb.maxCooldownSecs = c.maxCooldownSecs := by
  unfold execSection
  split
  · exact h
  · cases sec with
    | writeClient =>
        dsimp only
        split <;> exact h
    | writeClientField f =>
        dsimp only
        split
        · cases f <;> exact h
        · exact h
    | merge =>
        unfold mergeSection
        dsimp only
        split <;> exact h
    | publish p => cases p <;> first | exact h | exact ⟨rfl, h.2⟩ | exact ⟨h.1, rfl⟩
    | _ => exact h

/-- The table after a section that leaves the endpoint list. -/
theorem vitals_of_endpoints_eq {lb lb' : LoadBalancer} (h : lb'.endpoints = lb.endpoints) :
    lb'.vitals = lb.vitals := by
  funext url
  unfold LoadBalancer.vitals LoadBalancer.endpoint?
  rw [h]

section follows

variable {P : Platform} {c : Settings} {Common : String → Prop} {phase : ReloadPhase}
  {call : ReloadCall} {s : Shadowed M}

/-- A quiet operation keeps the invariant. -/
theorem Follows.operation (h : Follows c Common phase call s) {op : Operation} (hd : op.Distinct)
    (hq : QuietStep Common s (.operation op)) :
    Follows c Common phase call (s.step P (.operation op)) := by
  obtain ⟨hignored, hfits⟩ := hq
  have hbase := h.bounds.1.trans h.shadowBounds.1.symm
  have hmax := h.bounds.2.trans h.shadowBounds.2.symm
  have hk := (keeps_exec s.system.world op).bounds
  have hk' := (keeps_exec s.shadow op).bounds
  have href := congrArg Prod.fst (exec_refines s.system.world op)
  dsimp only at href
  refine ⟨h.solo.operation P op, ?_, ?_, ?_, ?_, ?_, ?_⟩
  · exact ⟨hk.1.trans h.bounds.1, hk.2.trans h.bounds.2⟩
  · exact ⟨hk'.1.trans h.shadowBounds.1, hk'.2.trans h.shadowBounds.2⟩
  · intro url hurl
    rcases h.solo.atPhase.before_or_after with hphase | hafter
    · exact congrFun (vitals_exec_of_eq hbase hmax (h.before hphase)) url
    · have hcalls : ∀ call' ∈ s.system.reloads, .writeEndpoints ∉ call'.rest := by
        rw [h.solo.reloads]
        exact List.forall_mem_singleton.mpr hafter
      exact vitals_exec_congr hbase hmax h.agree hd (hfits hcalls).1 (hfits hcalls).2 hurl
  · exact fun hphase => vitals_exec_of_eq hbase hmax (h.before hphase)
  · intro url hurl
    show ((s.system.world.exec op).1.lb.vitals url).isSome
    rw [href]
    exact HealthTable.run_isSome (h.present url hurl)
  · intro hphase url hurl
    have hswap : call.BeforeSwap := h.solo.atPhase.head_of_merged hphase
    have hmem : call ∈ s.system.reloads := by
      rw [h.solo.reloads]
      exact List.mem_cons_self
    rw [h.copies hphase url hurl]
    show s.system.world.lb.vitals url = (s.system.world.exec op).1.lb.vitals url
    rw [href]
    exact (HealthTable.run_of_ignores (hignored ⟨call, hmem, hswap⟩) url hurl).symm

/-- **Every section of the reload keeps the invariant.** The merge makes the copies, and finds every
common URL; the swap publishes them.
Source: `config_reloader.rs` `reload` -/
theorem Follows.reloadSection (hc : c.Valid) (hcommon : ∀ url, Common url →
      url ∈ c.endpoints.map EndpointConfig.url) (h : Follows c Common phase call s) (i : ℕ) :
    ∃ phase' call', Follows c Common phase' call' (s.step P (.reloadSection i)) := by
  rcases h.solo.reloadSection P hc i with hsame | ⟨phase', call', hsolo, hadv⟩
  · refine ⟨phase, call, ?_⟩
    have hstep : s.step P (.reloadSection i) = s := by
      unfold Shadowed.step
      rw [hsame]
    rw [hstep]
    exact h
  · refine ⟨phase', call', ?_⟩
    -- all but the vitals is in the bounds
    have hbuild : ∀ w', (s.step P (.reloadSection i)).system.world = w' →
        (w'.lb.baseCooldownSecs = c.baseCooldownSecs ∧ w'.lb.maxCooldownSecs = c.maxCooldownSecs) →
        (∀ url, Common url → w'.lb.vitals url = s.system.world.lb.vitals url) →
        (phase' = .reading ∨ phase' = .merged → w'.lb.vitals = s.shadow.lb.vitals) →
        (phase' = .merged → ∀ url, Common url →
          (KeyedList.lookup RpcEndpoint.url url call'.frame.newRpcEndpoints).map
            RpcEndpoint.vitals = w'.lb.vitals url) →
        Follows c Common phase' call' (s.step P (.reloadSection i)) := by
      rintro w' rfl hb hv hbefore hcopies
      refine ⟨hsolo, hb, h.shadowBounds, fun url hurl => ?_, hbefore, fun url hurl => ?_, hcopies⟩
      · exact (hv url hurl).trans (h.agree url hurl)
      · rw [hv url hurl]
        exact h.present url hurl
    generalize hframe : call'.frame = frame' at hadv hbuild
    generalize hworld : (s.system.step P (.reloadSection i)).world = w' at hadv
    cases hadv with
    | done =>
        exact hbuild _ hworld h.bounds (fun _ _ => rfl) (fun hm => by rcases hm with hm | hm <;> cases hm)
          fun hm => by cases hm
    | quiet sec hq hm hs =>
        obtain ⟨hsame, -, -, -⟩ := execSection_quiet P c call.now s.system.world call.frame hq
        have hvitals := vitals_of_endpoints_eq hsame.endpoints
        exact hbuild _ hworld (execSection_bounds P call.now h.bounds sec)
          (fun url _ => congrFun hvitals url) (fun hphase => hvitals.trans (h.before hphase))
          (absurd · hm)
    | @merge m eps hstep =>
        refine hbuild _ hworld h.bounds (fun _ _ => rfl) (fun _ => h.before (.inl rfl)) fun _ url hurl => ?_
        obtain ⟨v, hv⟩ := Option.isSome_iff_exists.mp (h.present url hurl)
        show (KeyedList.lookup RpcEndpoint.url url eps).map RpcEndpoint.vitals =
          s.system.world.lb.vitals url
        rw [hstep.vitals url, if_pos (hcommon url hurl), hv]
        rfl
    | swap =>
        exact hbuild _ hworld h.bounds (h.copies rfl) (fun hm => by rcases hm with hm | hm <;> cases hm)
          fun hm => by cases hm
    | settle =>
        exact hbuild _ hworld h.bounds (fun _ _ => rfl) (fun hm => by rcases hm with hm | hm <;> cases hm)
          fun hm => by cases hm

/-- A quiet step of any kind keeps the invariant. -/
theorem Follows.step (hc : c.Valid) (hcommon : ∀ url, Common url →
      url ∈ c.endpoints.map EndpointConfig.url) (h : Follows c Common phase call s)
    {e : SystemEvent} (he : e.IsStep) (hq : QuietStep Common s e) :
    ∃ phase' call', Follows c Common phase' call' (s.step P e) := by
  cases e with
  | operation op => exact ⟨phase, call, h.operation he hq⟩
  | startReload read now => exact he.elim
  | reloadSection i => exact h.reloadSection hc hcommon i

end follows

/-- The invariant holds at the start. -/
theorem follows_start {w : World M} {c : Settings} (now : Instant)
    (hbase : c.baseCooldownSecs = w.lb.baseCooldownSecs)
    (hmax : c.maxCooldownSecs = w.lb.maxCooldownSecs) :
    Follows c (CommonUrl w c) .reading { settings := c, now := now } (Shadowed.start w c now) where
  solo := solo_start w c now
  bounds := ⟨hbase.symm, hmax.symm⟩
  shadowBounds := ⟨hbase.symm, hmax.symm⟩
  agree _ _ := rfl
  before _ := rfl
  present url hurl := by
    obtain ⟨ep, hep⟩ := KeyedList.exists_lookup hurl.1
    have hvit : w.lb.vitals url = some ep.vitals := vitals_of_endpoint? hep
    show (w.lb.vitals url).isSome
    rw [hvit]
    rfl
  copies h := by cases h

/-- No mark made during the reload is lost: at every URL of both endpoint lists, the vitals are those
of the same operations without the reload. -/
def NoMarkLost (P : Platform) (w : World M) (c : Settings) (now : Instant)
    (events : List SystemEvent) : Prop :=
  ∀ url, CommonUrl w c url →
    ((Shadowed.start w c now).run P events).system.world.lb.vitals url =
      ((Shadowed.start w c now).run P events).shadow.lb.vitals url

/-- The reload has run to its end. -/
def Completes (P : Platform) (w : World M) (c : Settings) (now : Instant)
    (events : List SystemEvent) : Prop :=
  ∀ call ∈ (System.run P (.solo w c now) events).reloads, call.rest = []

instance (P : Platform) (w : World M) (c : Settings) (now : Instant) (events : List SystemEvent) :
    Decidable (Completes P w c now events) :=
  List.decidableBAll _ _

/-- **A mark is lost.** The sample world reloads its own file; `mark_unhealthy` runs between the
merge section and the publication of the merged list, which still holds the endpoint as healthy.
Source: `config_reloader.rs` `reload` -/
theorem lost_mark : ¬ ∀ (w : World leakyBucket) (read : String → ReadResult) (c : Settings)
    (now : Instant) (events : List SystemEvent), w.Reachable samplePlatform →
    loadSettings samplePlatform read w.lb.configPath = .ok c →
    c.baseCooldownSecs = w.lb.baseCooldownSecs → c.maxCooldownSecs = w.lb.maxCooldownSecs →
    (∀ e ∈ events, e.IsStep) → Completes samplePlatform w c now events →
    NoMarkLost samplePlatform w c now events := by
  intro h
  have hlost := h sampleWorld (fun _ => .content sampleFile) (.ofEndpoints [sampleEndpoint]) 1
    (List.replicate 12 (.reloadSection 0) ++ [.operation (.markUnhealthy "http://a" 5)] ++
      List.replicate 10 (.reloadSection 0))
    (World.reachable_of_new new_sampleWorld) (loadSettings_sampleFile _) (by decide) (by decide)
    (by simp [SystemEvent.IsStep, Operation.Distinct]) (by decide) "http://a"
    ⟨by decide, by decide⟩
  revert hlost
  decide

/-- **When no mark is lost.** In every interleaving of one reload, which keeps the cooldown bounds,
with operations, panicking ones included, if every step is quiet, the vitals of every endpoint in both
lists are, in every state reached, those of the same operations without the reload.
Source: `config_reloader.rs` `reload`; `balancer.rs` `mark_rate_limited`, `mark_unhealthy`;
`utils/health.rs` `perform_health_checks` -/
theorem no_mark_lost_of_quiet {P : Platform} {read : String → ReadResult} {w : World M} {c : Settings}
    (now : Instant) (hload : loadSettings P read w.lb.configPath = .ok c)
    (hbase : c.baseCooldownSecs = w.lb.baseCooldownSecs)
    (hmax : c.maxCooldownSecs = w.lb.maxCooldownSecs) {events : List SystemEvent}
    (hevents : ∀ e ∈ events, e.IsStep)
    (hquiet : Runs.Along (Shadowed.step P) (QuietStep (CommonUrl w c)) (Shadowed.start w c now)
      events) : NoMarkLost P w c now events := by
  obtain ⟨-, -, -, -, -, -, -, hvalid⟩ := loadSettings_eq_ok hload
  have hboth : Runs.Along (Shadowed.step P) (fun s e => e.IsStep ∧ QuietStep (CommonUrl w c) s e)
      (Shadowed.start w c now) events := Runs.along_and_of_forall hevents hquiet
  obtain ⟨phase, call, hfollows⟩ := Runs.invariant_along
    (fun s => ∃ phase call, Follows c (CommonUrl w c) phase call s) _
    (fun s e hs ⟨phase, call, h⟩ => h.step hvalid (fun _ hurl => hurl.2) hs.1 hs.2) hboth
    ⟨.reading, _, follows_start now hbase hmax⟩
  exact hfollows.agree

/-- `no_mark_lost_of_quiet` for the interleaving of `lost_mark` with the mark after the swap. -/
theorem no_mark_lost_of_quiet_sample :
    NoMarkLost samplePlatform sampleWorld (.ofEndpoints [sampleEndpoint]) 1
      (List.replicate 13 (.reloadSection 0) ++ [.operation (.markUnhealthy "http://a" 5)] ++
        List.replicate 9 (.reloadSection 0)) := by
  refine no_mark_lost_of_quiet 1 (loadSettings_sampleFile sampleWorld.lb.configPath) (by decide)
    (by decide) ?_ ?_
  · simp [SystemEvent.IsStep, Operation.Distinct]
  · refine ⟨trivial, trivial, trivial, trivial, trivial, trivial, trivial, trivial, trivial, trivial,
      trivial, trivial, trivial, ⟨?_, fun _ => ⟨trivial, trivial⟩⟩, trivial, trivial, trivial, trivial, trivial,
      trivial, trivial, trivial, trivial, trivial⟩
    intro hswap
    exact absurd hswap (by decide)

end AzothBalancer
