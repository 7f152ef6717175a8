import AzothBalancer.HealthInvariant
import AzothBalancer.RegistryFrame

/-!
# The gauge of available endpoints

`HEALTHY_ENDPOINTS` is set at startup, at the end of a health round, at the end of a reload and by the
updater of the cooldown gauges. Marks write the records and leave it alone, and so does time. `CountAge`
follows a sequential run: when the gauge was last set, and how many events have reached the records since.
`HealthRun.gaugeShows` is what it shows by then, to which `status_consistent` compares the count of the
status: each event accounts for one endpoint at most, and with none the gauge is the count of its moment.

The records are compared by their vitals: an event at one URL leaves those of the others alone
(`HealthTable.countP_run`).
-/

namespace AzothBalancer

variable {M : Meter}

/-! ## What a later reading can say -/

namespace RpcEndpoint

variable {ep : RpcEndpoint} {now later : Instant}

/-- No cooldown begins while the record stays as it is. -/
theorem isInCooldown_of_le (hle : now ≤ later) (h : ep.isInCooldown later) : ep.isInCooldown now := by
  unfold isInCooldown at h ⊢
  split at h
  · simp only [decide_eq_true_eq] at h ⊢
    exact lt_of_le_of_lt hle h
  · exact h

/-- An available endpoint stays available. -/
theorem isAvailable_of_le (hle : now ≤ later) (h : ep.isAvailable now) : ep.isAvailable later := by
  simp only [isAvailable, Bool.and_eq_true, Bool.not_eq_true', ← Bool.not_eq_true] at h ⊢
  exact ⟨h.1, fun hcool => h.2 (isInCooldown_of_le hle hcool)⟩

end RpcEndpoint

/-- Later readings count no fewer. -/
theorem countAvailable_mono {readings later : ℕ → Instant} {eps : List RpcEndpoint}
    (h : ∀ i < eps.length, readings i ≤ later i) : countAvailable readings eps ≤ countAvailable later eps := by
  unfold countAvailable
  rw [← List.countP_eq_length_filter, ← List.countP_eq_length_filter]
  refine List.countP_mono_left fun x hx hav => ?_
  exact RpcEndpoint.isAvailable_of_le (h x.2 (List.snd_lt_of_mem_zipIdx hx)) hav

/-! ## Counting by the vitals -/

/-- Whether the table has the URL's endpoint available. -/
def HealthTable.available (t : HealthTable) (now : Instant) (url : String) : Bool :=
  (t url).any fun v => v.healthy && v.cooldownUntil.all fun until_ => until_ ≤ now

/-- A record is available if its vitals say so. -/
theorem World.WellFormed.available {w : World M} (h : w.WellFormed) {ep : RpcEndpoint}
    (hep : ep ∈ w.lb.endpoints) (now : Instant) :
    w.lb.vitals.available now ep.url = ep.isAvailable now := by
  unfold HealthTable.available
  rw [vitals_of_endpoint? (h.endpoint?_of_mem hep)]
  unfold RpcEndpoint.isAvailable RpcEndpoint.isInCooldown
  rcases hcool : ep.cooldownUntil with _ | until_
  · simp [RpcEndpoint.vitals, hcool]
  · have hdec : decide (until_ ≤ now) = !decide (now < until_) := by
      rw [← decide_not, decide_eq_decide, not_lt]
    simp [RpcEndpoint.vitals, hcool, hdec]

/-- The count is one over the URLs. -/
theorem World.WellFormed.countAvailable_eq {w : World M} (h : w.WellFormed) (now : Instant) :
    countAvailable (fun _ => now) w.lb.endpoints = w.urls.countP (w.lb.vitals.available now) := by
  rw [countAvailable_const, ← List.countP_eq_length_filter]
  unfold World.urls
  rw [List.countP_map]
  apply List.countP_congr
  intro ep hep
  rw [Function.comp_apply, h.available hep]

/-- Where two predicates differ at one element only, so do the counts. -/
theorem countP_le_succ {α : Type} {l : List α} {p q : α → Bool} (hl : l.Nodup) (a : α)
    (h : ∀ b, b ≠ a → p b → q b) : l.countP p ≤ l.countP q + 1 := by
  rw [List.countP_eq_length_filter, List.countP_eq_length_filter, ← List.length_cons (a := a)]
  apply List.Subperm.length_le
  apply List.subperm_of_subset (hl.filter p)
  intro b hb
  obtain ⟨hmem, hp⟩ := List.mem_filter.mp hb
  by_cases hba : b = a
  · exact hba ▸ List.mem_cons_self
  · exact List.mem_cons_of_mem a (List.mem_filter.mpr ⟨hmem, h b hba hp⟩)

/-- **An event makes one endpoint unavailable at most**, whatever it is and even if it panics. -/
theorem HealthTable.countP_run (base max_ : ℕ) {urls : List String} (hurls : urls.Nodup) (now : Instant) :
    ∀ (xs : List (String × HealthEvent)) (t : HealthTable),
      urls.countP (t.available now) ≤ urls.countP ((run base max_ xs t).1.available now) + xs.length
  | [], _ => le_rfl
  | x :: xs, t => by
      have hstep : urls.countP (t.available now) ≤
          urls.countP ((t.step base max_ x).1.available now) + 1 := by
        refine countP_le_succ hurls x.1 fun url hurl hav => ?_
        unfold HealthTable.available at hav ⊢
        rwa [step_apply, if_neg (Ne.symm hurl)]
      rw [run]
      rcases ht : t.step base max_ x with ⟨t', _ | _⟩
      · rw [ht] at hstep
        have hrest := countP_run base max_ hurls now xs t'
        dsimp only at hstep ⊢
        rw [List.length_cons]
        omega
      · rw [ht] at hstep
        dsimp only at hstep ⊢
        rw [List.length_cons]
        omega

/-! ## How old the gauge is -/

/-- When the gauge was last set, and how many events have reached the records since. -/
structure CountAge where
  countedAt : Instant
  events : ℕ

/-- The age after a command; `path` is the path of the configuration. A refused reload counts nothing. -/
def CountAge.after (P : Platform) (path : String) (age : CountAge) : Command → CountAge
  | .operation (.updateHealthyCount now) => ⟨now, 0⟩
  | .operation op => ⟨age.countedAt, age.events + op.events.length⟩
  | .healthRound _ now => ⟨now, 0⟩
  | .reload read now =>
      match loadSettings P read path with
      | .ok _ => ⟨now, 0⟩
      | _ => age

/-- The age after a run. At startup every endpoint is available, at any time. -/
def countAge (P : Platform) (path : String) (cmds : List Command) : CountAge :=
  cmds.foldl (CountAge.after P path) ⟨0, 0⟩

/-- What a gauge of that age shows. -/
structure World.GaugeShows (w : World M) (age : CountAge) (shown : ℕ) : Prop where
  series : w.prom.series .healthyEndpoints [] = some (shown : ℤ)
  /-- Without an event it is the count of its moment. -/
  exact : age.events = 0 → shown = countAvailable (fun _ => age.countedAt) w.lb.endpoints
  /-- Each event accounts for one endpoint at most. -/
  le : ∀ t, age.countedAt ≤ t → shown ≤ countAvailable (fun _ => t) w.lb.endpoints + age.events

namespace World.GaugeShows

variable {w : World M} {age : CountAge} {shown : ℕ}

/-- A gauge that was just set. -/
theorem of_series {now : Instant} (h : w.prom.series .healthyEndpoints [] =
    some (countAvailable (fun _ => now) w.lb.endpoints : ℤ)) :
    w.GaugeShows ⟨now, 0⟩ (countAvailable (fun _ => now) w.lb.endpoints) where
  series := h
  exact _ := rfl
  le _ ht := countAvailable_mono fun _ _ => ht

/-- **Any other operation** leaves the gauge alone and ages it by its events. -/
theorem exec (h : w.GaugeShows age shown) (hw : w.WellFormed) {op : Operation}
    (hop : ∀ now, op ≠ .updateHealthyCount now) :
    (w.exec op).1.GaugeShows ⟨age.countedAt, age.events + op.events.length⟩ shown := by
  have hkeeps := keeps_exec w op
  have hw' := hkeeps.wellFormed hw
  have hvitals : (w.exec op).1.lb.vitals = _ := congrArg Prod.fst (exec_refines w op)
  have hurls : (w.exec op).1.urls = w.urls := hkeeps.urls
  refine ⟨?_, fun hnone => ?_, fun t ht => ?_⟩
  · rw [(writes_exec w op).frame _ _, h.series]
    intro hwrites
    unfold OperationWrites at hwrites
    split at hwrites
    · exact hwrites.elim id nofun
    · exact hop _ rfl
    · exact hwrites
  · obtain ⟨hevents, hops⟩ := Nat.add_eq_zero_iff.mp hnone
    rw [List.length_eq_zero_iff.mp hops] at hvitals
    rw [h.exact hevents, hw.countAvailable_eq, hw'.countAvailable_eq, hurls, hvitals]
    rfl
  · have hold := h.le t ht
    have hdrop := HealthTable.countP_run w.lb.baseCooldownSecs w.lb.maxCooldownSecs hw.nodup t
      op.events w.lb.vitals
    rw [hw.countAvailable_eq] at hold
    rw [hw'.countAvailable_eq, hurls, hvitals]
    exact hold.trans (by unfold urls at *; dsimp only; omega)

end World.GaugeShows

/-- A round that does not panic has set the gauge.
Source: `utils/health.rs` `perform_health_checks`, `balancer.update_healthy_count()` -/
theorem gaugeShows_performHealthChecks {w w' : World M} {results : List (String × Bool)} {now : Instant}
    (h : performHealthChecks w results now = (w', false)) :
    w'.GaugeShows ⟨now, 0⟩ (countAvailable (fun _ => now) w'.lb.endpoints) := by
  apply World.GaugeShows.of_series
  unfold performHealthChecks at h
  dsimp only at h
  split at h
  · cases h
  · cases h
    simp [updateHealthyCount, updateHealthyCountAt, Registry.set, Registry.put]

/-- The configuration file stays where it is. -/
theorem configPath_perform (P : Platform) (w : World M) (cmd : Command) :
    (w.perform P cmd).1.lb.configPath = w.lb.configPath := by
  rcases cmd with op | ⟨results, now⟩ | ⟨read, now⟩
  · show (w.exec op).1.lb.configPath = _
    rw [(keeps_exec w op).lb]
  · show (performHealthChecks w results now).1.lb.configPath = _
    rw [(keeps_performHealthChecks w results now).lb]
  · show (reload P read w now).2.lb.configPath = _
    rcases reload_cases P read w now with ⟨o, hreload, -⟩ | ⟨c, -, hc, hreload⟩
    · rw [hreload]
    · obtain ⟨-, s, eps, -, -, -, -, -, hexec⟩ := execSections_reloadProgram P now w hc
      rw [hreload, hexec]
      unfold LoadBalancer.published LoadBalancer.withClient
      split <;> rfl

/-- **Every command ages the gauge as `CountAge.after` says.** -/
theorem World.GaugeShows.perform {P : Platform} {w w' : World M} {age : CountAge} {shown : ℕ}
    {cmd : Command} (h : w.GaugeShows age shown) (hw : w.WellFormed)
    (hperf : w.perform P cmd = (w', false)) :
    ∃ shown', w'.GaugeShows (age.after P w.lb.configPath cmd) shown' := by
  rcases cmd with op | ⟨results, now⟩ | ⟨read, now⟩
  · have hexec : (w.exec op).1 = w' := congrArg Prod.fst hperf
    subst hexec
    by_cases hop : ∃ now, op = .updateHealthyCount now
    · obtain ⟨now, rfl⟩ := hop
      refine ⟨_, GaugeShows.of_series ?_⟩
      simp [World.exec, updateHealthyCount, updateHealthyCountAt, Registry.set, Registry.put]
    · have hother := h.exec hw fun now heq => hop ⟨now, heq⟩
      refine ⟨shown, ?_⟩
      unfold CountAge.after
      split
      · rename_i now heq
        exact absurd ⟨now, Command.operation.inj heq⟩ hop
      · rename_i op' _ heq
        cases heq
        exact hother
      · rename_i heq
        cases heq
      · rename_i heq
        cases heq
  · exact ⟨_, gaugeShows_performHealthChecks hperf⟩
  · have hreload : (AzothBalancer.reload P read w now).2 = w' := congrArg Prod.fst hperf
    subst hreload
    unfold CountAge.after
    dsimp only
    rcases reload_cases P read w now with ⟨o, hreload, hno⟩ | ⟨c, hload, hc, hreload⟩
    · rw [hreload]
      cases hload : loadSettings P read w.lb.configPath with
      | ok c => exact absurd (congrArg Prod.fst ((reload_eq_ok now hload).symm.trans hreload)) (hno _).symm
      | err e => exact ⟨shown, h⟩
      | panic => exact ⟨shown, h⟩
    · obtain ⟨-, s, eps, -, -, -, -, -, hexec⟩ := execSections_reloadProgram P now w hc
      rw [hload, hreload, hexec]
      refine ⟨_, GaugeShows.of_series ?_⟩
      simp [reloadedRegistry, LoadBalancer.published, Registry.set, Registry.put]

/-- New series are none of this family. -/
theorem healthyEndpoints_initializeAll (eps : List RpcEndpoint) (m : Registry) :
    (eps.foldl (fun m ep => initializeEndpointMetrics ep.url m) m).series .healthyEndpoints [] =
      m.series .healthyEndpoints [] := by
  induction eps generalizing m with
  | nil => rfl
  | cons ep eps ih =>
      rw [List.foldl_cons, ih]
      simp [initializeEndpointMetrics, Registry.set, Registry.incBy, Registry.put]

/-- At startup every endpoint is counted, and available at any time.
Source: `balancer.rs` `LoadBalancer::new` -/
theorem gaugeShows_of_new {lower : List Char → List Char} {config : Option Config} {path : String}
    {now : Instant} {w : World M} (h : LoadBalancer.new M lower config path now = some w) (hw : w.WellFormed) :
    w.GaugeShows ⟨0, 0⟩ w.lb.endpoints.length := by
  have hall : ∀ t, countAvailable (fun _ => t) w.lb.endpoints = w.lb.endpoints.length := by
    intro t
    rw [countAvailable_const, List.length_filter_eq_length_iff]
    intro ep hep
    have hinit := vitals_of_new h (vitals_of_endpoint? (hw.endpoint?_of_mem hep))
    rw [← hw.available hep]
    unfold HealthTable.available
    rw [vitals_of_endpoint? (hw.endpoint?_of_mem hep), Option.map_some, hinit]
    rfl
  refine ⟨?_, fun _ => (hall 0).symm, fun t _ => (hall t).ge⟩
  rw [prom_of_new h, healthyEndpoints_initializeAll]
  simp [Registry.set, Registry.put]

/-- **What the gauge shows in every state of a sequential run.**
Source: `balancer.rs` `update_healthy_count` -/
theorem HealthRun.gaugeShows {P : Platform} {cmds : List Command} {w : World M} {r : String → ℕ}
    (h : HealthRun P cmds w r) : ∃ shown, w.GaugeShows (countAge P w.lb.configPath cmds) shown := by
  induction h with
  | start hnew =>
      obtain ⟨-, -, c, -, -, -, hstart⟩ := started_of_new hnew
      exact ⟨_, gaugeShows_of_new hnew hstart.wellFormed⟩
  | @step cmds w w' r cmd hrun hperf ih =>
      obtain ⟨shown, hshown⟩ := ih
      have hpath := configPath_perform P w cmd
      rw [hperf] at hpath
      unfold countAge
      rw [List.foldl_append, hpath]
      exact hshown.perform hrun.invariant.1 hperf

end AzothBalancer
