import AzothBalancer.System

/-!
# The health invariant over runs

The counting invariant of the health machine, carried through runs of the balancer.

* `HealthTable.tally` counts the 429s of every URL beside the machine's steps, and
  `HealthTable.counted_run` is the run lemma of the table.
* `vitals_execSections` is a reload as the table sees it: known URLs keep their vitals, new URLs get
  initial ones, dropped URLs disappear.
* `HealthRun` are the sequential runs in which no addition to the clock overflows, with the count
  each URL has reached; `health_invariant` is the invariant in each of their states.
-/

namespace AzothBalancer

variable {M : Meter}

namespace HealthTable

variable {base max_ : ℕ}

/-- The counts after one event, in the table `t` it happens in. -/
def tally (t : HealthTable) (r : String → ℕ) (x : String × HealthEvent) : String → ℕ :=
  match t x.1 with
  | none => r
  | some v => Function.update r x.1 (v.count (r x.1) x.2)

/-- The counts after a list of events. -/
def tallyRun (base max_ : ℕ) : List (String × HealthEvent) → HealthTable → (String → ℕ) → String → ℕ
  | [], _, r => r
  | x :: xs, t, r => tallyRun base max_ xs (t.step base max_ x).1 (t.tally r x)

/-- Every machine of the table has counted what `r` says. -/
def Counted (t : HealthTable) (r : String → ℕ) : Prop := ∀ url v, t url = some v → v.Counted (r url)

/-- One event that does not panic keeps the counts of all machines. -/
theorem counted_step {t : HealthTable} {r : String → ℕ} {x : String × HealthEvent}
    (h : t.Counted r) (hp : (t.step base max_ x).2 = false) :
    (t.step base max_ x).1.Counted (t.tally r x) := by
  intro url v hv
  unfold step at hv hp
  unfold tally
  cases ht : t x.1 with
  | none =>
      rw [ht] at hv
      exact h url v hv
  | some v₀ =>
      rw [ht] at hv hp
      by_cases hu : url = x.1
      · subst hu
        dsimp only at hv ⊢
        rw [Function.update_self] at hv ⊢
        cases hv
        exact (h x.1 v₀ ht).step x.2 hp
      · dsimp only at hv ⊢
        rw [Function.update_of_ne hu] at hv ⊢
        exact h url v hv

/-- **Events that do not panic keep the counts of all machines.** -/
theorem counted_run : ∀ {xs : List (String × HealthEvent)} {t : HealthTable} {r : String → ℕ},
    t.Counted r → (run base max_ xs t).2 = false →
      (run base max_ xs t).1.Counted (tallyRun base max_ xs t r)
  | [], _, _, h, _ => h
  | x :: xs, t, r, h, hp => by
      obtain ⟨hone, heq⟩ := run_cons_of_not_panicked hp
      rw [heq] at hp ⊢
      exact counted_run (counted_step h hone) hp

/-- Events other than 429s leave no count above the one they found. -/
theorem tallyRun_eq_zero : ∀ {xs : List (String × HealthEvent)} {t : HealthTable} {r : String → ℕ},
    (∀ x ∈ xs, ∀ now, x.2 ≠ .rateLimited now) → (∀ u, r u = 0) →
      ∀ u, tallyRun base max_ xs t r u = 0
  | [], _, _, _, h => h
  | x :: xs, t, r, hx, h => by
      show ∀ u, tallyRun base max_ xs (t.step base max_ x).1 (t.tally r x) u = 0
      refine tallyRun_eq_zero (fun y hy => hx y (List.mem_cons_of_mem _ hy)) fun u => ?_
      unfold tally
      cases ht : t x.1 with
      | none => exact h u
      | some v =>
          by_cases hu : u = x.1
          · subst hu
            dsimp only
            rw [Function.update_self]
            have hne := hx x List.mem_cons_self
            cases he : x.2 with
            | rateLimited now => exact absurd he (hne now)
            | unhealthy now => exact h x.1
            | probe isHealthy now =>
                cases isHealthy with
                | true =>
                    show (if v.healthy then r x.1 else 0) = 0
                    rw [h x.1, ite_self]
                | false => exact h x.1
          · dsimp only
            rw [Function.update_of_ne hu]
            exact h u

end HealthTable

/-! ## A reload, as the table sees it -/

/-- A merged record has the vitals of the known endpoint, or initial ones. -/
theorem MergedRecord.vitals {lb : LoadBalancer} {now : Instant} {old cur : RefHeap EndpointMetrics}
    {new : EndpointConfig} {ep : RpcEndpoint} (h : MergedRecord lb now old cur new ep) :
    ep.vitals = (lb.vitals new.url).getD .initial := by
  cases h with
  | existing ep weight hep _ =>
      rw [vitals_of_endpoint? hep]
      rfl
  | fresh weight r hep _ _ _ =>
      rw [vitals_of_endpoint? hep]
      rfl

/-- The vitals of a merged list.
Source: `config_reloader.rs` `reload`, the second read section -/
theorem MergeStep.vitals {lb : LoadBalancer} {now : Instant} {new : List EndpointConfig}
    {start s : MergeState M} {eps : List RpcEndpoint} (h : MergeStep lb now new start s eps)
    (url : String) :
    (KeyedList.lookup RpcEndpoint.url url eps).map RpcEndpoint.vitals =
      if url ∈ new.map EndpointConfig.url then some ((lb.vitals url).getD .initial) else none := by
  split
  · rename_i hmem
    obtain ⟨e, he⟩ := KeyedList.exists_lookup hmem
    obtain ⟨ep, hep, hrec⟩ := KeyedList.lookup_forall₂ (fun _ _ hr => hr.config.1.symm) h.records he
    have hurl : e.url = url := KeyedList.key_of_lookup he
    rw [hep, Option.map_some, hrec.vitals, hurl]
  · rename_i hmem
    rw [← h.urls, ← KeyedList.lookup_eq_none_iff] at hmem
    rw [hmem]
    rfl

/-- **A reload run alone, as the table sees it.**
Source: `config_reloader.rs` `reload` -/
theorem vitals_execSections (P : Platform) {c : Settings} (hc : c.Valid) (now : Instant) (w : World M)
    (url : String) :
    (execSections P c now w {} reloadProgram).1.lb.vitals url =
      if url ∈ c.endpoints.map EndpointConfig.url then some ((w.lb.vitals url).getD .initial)
      else none := by
  obtain ⟨start, s, eps, -, -, -, -, hstep, hexec⟩ := execSections_reloadProgram P now w hc
  rw [hexec]
  have hvit : (w.lb.withClient c.client).vitals url = w.lb.vitals url := by
    unfold LoadBalancer.vitals
    rw [LoadBalancer.withClient_endpoint?]
  rw [← hvit]
  exact hstep.vitals url

/-! ## Runs -/

/-- A health round run alone is a run of the machine over its results.
Source: `utils/health.rs` `perform_health_checks` -/
theorem performHealthChecks_refines (w : World M) (results : List (String × Bool)) (now : Instant) :
    ((performHealthChecks w results now).1.lb.vitals, (performHealthChecks w results now).2) =
      HealthTable.run w.lb.baseCooldownSecs w.lb.maxCooldownSecs
        (results.map fun r => (r.1, .probe r.2 now)) w.lb.vitals := by
  unfold performHealthChecks
  dsimp only
  split
  · rename_i w' hw'
    have href := applyHealthResults_refines hw'
    exact href
  · rename_i w' hw'
    have href := applyHealthResults_refines hw'
    exact href

/-- The counts after a command. A reload starts the count of every URL that had no endpoint. -/
def World.tally (w : World M) (r : String → ℕ) : Command → String → ℕ
  | .operation op =>
      HealthTable.tallyRun w.lb.baseCooldownSecs w.lb.maxCooldownSecs op.events w.lb.vitals r
  | .healthRound results now =>
      HealthTable.tallyRun w.lb.baseCooldownSecs w.lb.maxCooldownSecs
        (results.map fun x => (x.1, .probe x.2 now)) w.lb.vitals r
  | .reload _ _ => fun url => if w.lb.vitals url = none then 0 else r url

/-- The sequential runs from a startup in which no addition to the clock overflows: the commands, the
world they lead to, and for each URL the number of 429s since its endpoint was created or last
recovered in a health round. -/
inductive HealthRun (P : Platform) : List Command → World M → (String → ℕ) → Prop where
  | start {config : Option Config} {path : String} {now : Instant} {w : World M} :
      LoadBalancer.new M P.toLowercase config path now = some w → HealthRun P [] w fun _ => 0
  | step {cmds : List Command} {w w' : World M} {r : String → ℕ} (cmd : Command) :
      HealthRun P cmds w r → w.perform P cmd = (w', false) →
      HealthRun P (cmds ++ [cmd]) w' (w.tally r cmd)

/-- Startup has counted nothing. -/
theorem counted_of_new {lower : List Char → List Char} {config : Option Config} {path : String}
    {now : Instant} {w : World M} (h : LoadBalancer.new M lower config path now = some w) :
    w.lb.vitals.Counted fun _ => 0 := by
  intro url v hv
  rw [vitals_of_new h hv]
  exact Vitals.counted_initial

/-- **Every command keeps the counts.** An endpoint that a reload creates has counted nothing, one
that it keeps has counted what it had. -/
theorem counted_perform {P : Platform} {w w' : World M} {r : String → ℕ} {cmd : Command}
    (hr : w.lb.vitals.Counted r) (h : w.perform P cmd = (w', false)) :
    w'.lb.vitals.Counted (w.tally r cmd) := by
  cases cmd with
  | operation op =>
      have href := exec_refines w op
      have hexec : w.exec op = (w', false) := h
      rw [hexec] at href
      have hpan := congrArg Prod.snd href
      have hcount := HealthTable.counted_run hr hpan.symm
      rw [← href] at hcount
      exact hcount
  | healthRound results now =>
      have href := performHealthChecks_refines w results now
      have hexec : performHealthChecks w results now = (w', false) := h
      rw [hexec] at href
      have hpan := congrArg Prod.snd href
      have hcount := HealthTable.counted_run hr hpan.symm
      rw [← href] at hcount
      exact hcount
  | reload read now =>
      have hw' : (reload P read w now).2 = w' := congrArg Prod.fst h
      intro url v hv
      show v.Counted (if w.lb.vitals url = none then 0 else r url)
      rcases reload_cases P read w now with ⟨o, ho, -⟩ | ⟨c, -, hc, heq⟩
      · rw [ho] at hw'
        subst hw'
        rw [if_neg (by rw [hv]; exact Option.some_ne_none v)]
        exact hr url v hv
      · rw [heq] at hw'
        subst hw'
        rw [vitals_execSections P hc] at hv
        split at hv
        · cases hold : w.lb.vitals url with
          | none =>
              rw [hold] at hv
              cases hv
              exact Vitals.counted_initial
          | some v₀ =>
              rw [hold] at hv
              cases hv
              exact hr url _ hold
        · cases hv

/-- Every run keeps the counts. -/
theorem HealthRun.counted {P : Platform} {cmds : List Command} {w : World M} {r : String → ℕ}
    (h : HealthRun P cmds w r) : w.lb.vitals.Counted r := by
  induction h with
  | start hnew => exact counted_of_new hnew
  | step cmd _ hperf ih => exact counted_perform ih hperf

/-- The store's invariant holds in every state of these runs. -/
theorem HealthRun.invariant {P : Platform} {cmds : List Command} {w : World M} {r : String → ℕ}
    (h : HealthRun P cmds w r) : w.WellFormed ∧ w.Matched := by
  induction h with
  | start hnew =>
      obtain ⟨-, -, c, -, -, -, hstart⟩ := started_of_new hnew
      exact ⟨hstart.wellFormed, hstart.matched⟩
  | step cmd _ hperf ih =>
      have hinv := invariant_perform P cmd ih.1 ih.2
      rw [hperf] at hinv
      exact hinv

/-- The events a command delivers to the health machine. -/
def Command.events : Command → List (String × HealthEvent)
  | .operation op => op.events
  | .healthRound results now => results.map fun x => (x.1, .probe x.2 now)
  | .reload _ _ => []

/-- Without 429s, nothing is ever counted. -/
theorem HealthRun.count_eq_zero {P : Platform} {cmds : List Command} {w : World M} {r : String → ℕ}
    (h : HealthRun P cmds w r)
    (hno : ∀ cmd ∈ cmds, ∀ x ∈ cmd.events, ∀ now, x.2 ≠ .rateLimited now) : ∀ url, r url = 0 := by
  induction h with
  | start => exact fun _ => rfl
  | @step cmds w w' r cmd _ _ ih =>
      have hold := ih fun cmd' hcmd' => hno cmd' (List.mem_append_left _ hcmd')
      have hlast := hno cmd (List.mem_append_right _ List.mem_cons_self)
      cases cmd with
      | operation op => exact HealthTable.tallyRun_eq_zero hlast hold
      | healthRound results now => exact HealthTable.tallyRun_eq_zero hlast hold
      | reload read now =>
          intro url
          show (if w.lb.vitals url = none then 0 else r url) = 0
          rw [hold url, ite_self]

/-- **The health invariant.** In every state of every sequential run in which no addition to the
clock overflows, for every endpoint: no attempts are counted exactly if no cooldown is set; a down
endpoint has a cooldown set; and the attempts are, up to saturation, the 429s since the endpoint was
created or last recovered, plus one while it is down. Without 429s there is at most one attempt.
Source: `balancer.rs` `mark_rate_limited`, `mark_unhealthy`; `utils/health.rs`
`perform_health_checks`; `config_reloader.rs` `reload` -/
theorem health_invariant {P : Platform} {cmds : List Command} {w : World M} {r : String → ℕ}
    (h : HealthRun P cmds w r) : ∀ ep ∈ w.lb.endpoints,
      (ep.cooldownAttempts = 0 ↔ ep.cooldownUntil = none) ∧
      (ep.healthy = false → ep.cooldownUntil.isSome) ∧
      ep.cooldownAttempts = min u32Max (r ep.url + if ep.healthy then 0 else 1) ∧
      ((∀ cmd ∈ cmds, ∀ x ∈ cmd.events, ∀ now, x.2 ≠ .rateLimited now) →
        ep.cooldownAttempts ≤ 1) := by
  intro ep hep
  have hcounted : ep.vitals.Counted (r ep.url) :=
    h.counted ep.url ep.vitals (vitals_of_endpoint? (h.invariant.1.endpoint?_of_mem hep))
  refine ⟨hcounted.cooldown, hcounted.down, hcounted.attempts, fun hno => ?_⟩
  have hatt : ep.cooldownAttempts = min u32Max (r ep.url + if ep.healthy then 0 else 1) :=
    hcounted.attempts
  rw [hatt, h.count_eq_zero hno]
  split <;> omega

/-- `health_invariant` after a 429 and a health round in which the endpoint fails. -/
theorem health_invariant_sample :
    let w := sampleWorld.runCommands samplePlatform [.operation (.markRateLimited "http://a" 5),
      .healthRound [("http://a", false)] 9]
    ∀ ep ∈ w.lb.endpoints,
      (ep.cooldownAttempts = 0 ↔ ep.cooldownUntil = none) ∧
      (ep.healthy = false → ep.cooldownUntil.isSome) ∧
      ∃ r, ep.cooldownAttempts = min u32Max (r + if ep.healthy then 0 else 1) := by
  intro w ep hep
  have hmark := (HealthRun.start new_sampleWorld).step
    (.operation (.markRateLimited "http://a" 5)) (Prod.ext rfl (by decide))
  have hround := hmark.step (.healthRound [("http://a", false)] 9) (Prod.ext rfl (by decide))
  obtain ⟨hcool, hdown, hatt, -⟩ := health_invariant hround ep hep
  exact ⟨hcool, hdown, _, hatt⟩

end AzothBalancer
