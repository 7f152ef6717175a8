import AzothBalancer.ConfigSafety
import AzothBalancer.HealthRounds
import AzothBalancer.Shutdown

/-!
# The background tasks and their shutdown

`run_background_tasks` spawns the health loop and the updater of the cooldown gauge; each waits in a biased
`select!` for the shutdown signal or its next tick. At the end `main` either aborts both or drops the sender of the
signal and joins them under a timeout.

A `Process` is the balancer with the two tasks and `main`. An event is one poll, so a task runs from one await to
the next, with two exceptions where its section is split further: the write section of a health round and the count
after it, and the endpoints of a gauge tick, one by one. An aborted task is dropped at its next await. The
environment (requests, reloads) may change the world in any way between the polls.

* `Process.step_control` — what an event can do to the tasks (the step lemma).
* `Process.remaining` — the polls that are still to come once the signal has been given.
* `shutdown_protocol` — over every interleaving: after the signal nothing begins, the tasks come to their end, and
  the result says how.
-/

namespace AzothBalancer

variable {M : Meter}

/-! ## The tasks -/

/-- The health loop.
Source: `utils/health.rs` `health_check_loop` -/
inductive HealthLoop where
  /-- It has not been polled. -/
  | spawned
  /-- It waits in the `select!`, or is in a round; its ticker has this period. -/
  | running (currentInterval : ℕ)
  | returned
  | panicked
  | aborted
  deriving DecidableEq, Repr

/-- The updater of the cooldown gauge.
Source: `utils/cooldown.rs` `cooldown_gauge_updater` -/
inductive GaugeUpdater where
  /-- It waits in the `select!`. -/
  | selecting
  /-- In a tick; the gauges of these endpoints are still to be set. -/
  | updating (rest : List RpcEndpoint)
  | returned
  | aborted
  deriving DecidableEq, Repr

/-- How far `main` is.
Source: `main.rs` `main`; `shutdown.rs` `graceful_shutdown` -/
inductive MainPhase where
  | serving
  /-- The sender has been dropped; the tasks are joined until the deadline. -/
  | joining (deadline : Instant)
  /-- The result of `graceful_shutdown`, `none` after a forced shutdown. The set of tasks has been dropped. -/
  | ended (result : Option (Except ShutdownError Unit))
  deriving DecidableEq

/-- The balancer, its clock and health round, the tasks, and `main`. -/
structure Process (M : Meter) where
  rounds : RoundSystem M
  health : HealthLoop
  gauge : GaugeUpdater
  main : MainPhase

/-- The seconds `main` gives a graceful shutdown.
Source: `main.rs` `main` -/
def shutdownTimeoutSecs : ℕ := 30

/-- Both tasks are spawned.
Source: `balancer.rs` `run_background_tasks` -/
def runBackgroundTasks (w : World M) (clock : Instant) : Process M :=
  ⟨⟨w, clock, .idle⟩, .spawned, .selecting, .serving⟩

/-- What happens to the process. -/
inductive ProcessEvent (M : Meter) where
  /-- The health loop is polled; `ready` says whether the ticker is. -/
  | pollHealth (ready : Bool)
  | completeProbe (url : String) (isHealthy : Bool)
  | pollGauge (ready : Bool)
  /-- The server has ended; `force` is the answer of `shutdown_signal`. -/
  | stop (force : Bool)
  | pollMain
  | environment (w : World M)
  | advanceClock (nanos : ℕ)

/-- The event is a poll, or a probe completes. -/
def ProcessEvent.IsPoll : ProcessEvent M → Prop
  | .stop _ | .environment _ | .advanceClock _ => False
  | _ => True

/-! ## Joining -/

/-- A task that has ended, as the join loop sees it; `JoinError` also stands for a cancelled task. -/
def HealthLoop.managed : HealthLoop → ManagedTask
  | .returned => ⟨some 0, false⟩
  | .panicked | .aborted => ⟨some 0, true⟩
  | _ => ⟨none, false⟩

/-- A task that has ended, as the join loop sees it. -/
def GaugeUpdater.managed : GaugeUpdater → ManagedTask
  | .returned => ⟨some 0, false⟩
  | .aborted => ⟨some 0, true⟩
  | _ => ⟨none, false⟩

/-- One poll of the joining under its timeout: the join loop runs over the tasks that have ended, and the timer is
looked at if it has to wait.
Source: `shutdown.rs` `graceful_shutdown` -/
def joinPoll (health : HealthLoop) (gauge : GaugeUpdater) (clock deadline : Instant) : MainPhase :=
  match joinAllLogic 0 0 (JoinOrder.ofTasks [health.managed, gauge.managed]).order with
  | .ready _ result _ => .ended (some result)
  | .pending _ =>
      if deadline ≤ clock then .ended (some (.error (.timeout shutdownTimeoutSecs))) else .joining deadline

/-! ## The polls -/

namespace Process

variable (s : Process M)

/-- The health loop at the `select!`, whose first branch is the signal. With a changed interval a new ticker is made
and reset before the round begins.
Source: `utils/health.rs` `health_check_loop` -/
def selectHealth (ready : Bool) (currentInterval : ℕ) : Process M :=
  match s.main with
  | .ended _ => { s with health := .aborted }
  | .joining _ => { s with health := .returned }
  | .serving =>
      if ready then
        match renewTicker currentInterval s.rounds.world.lb.healthCheckIntervalSecs s.rounds.clock with
        | none => { s with health := .panicked }
        | some period => { s with health := .running period, rounds := s.rounds.step .startRound }
      else s

/-- The health loop in a round. It waits for its probes, and has no await after the last of them.
Source: `utils/health.rs` `perform_health_checks` -/
def resumeRound : Process M :=
  match s.rounds.phase with
  | .probing .. =>
      match s.main with
      | .ended _ => { s with health := .aborted, rounds := { s.rounds with phase := .idle } }
      | _ =>
          let rounds := s.rounds.step .applyResults
          { s with rounds := rounds, health := if rounds.phase = .stopped then .panicked else s.health }
  | .counting => { s with rounds := s.rounds.step .finishRound }
  | _ => s

/-- A poll of the health loop.
Source: `utils/health.rs` `health_check_loop` -/
def pollHealth (ready : Bool) : Process M :=
  match s.health with
  | .spawned =>
      match s.main with
      | .ended _ => { s with health := .aborted }
      | _ =>
          match interval s.rounds.world.lb.healthCheckIntervalSecs with
          | none => { s with health := .panicked }
          | some period => { s with health := .running period }
  | .running currentInterval =>
      if s.rounds.phase = .idle then s.selectHealth ready currentInterval else s.resumeRound
  | _ => s

/-- A poll of the updater of the cooldown gauge.
Source: `utils/cooldown.rs` `cooldown_gauge_updater` -/
def pollGauge (ready : Bool) : Process M :=
  match s.gauge with
  | .selecting =>
      match s.main with
      | .ended _ => { s with gauge := .aborted }
      | .joining _ => { s with gauge := .returned }
      | .serving => if ready then { s with gauge := .updating s.rounds.world.lb.endpoints } else s
  | .updating (ep :: rest) =>
      let remaining := ep.cooldownRemainingSecs s.rounds.clock
      let w := { s.rounds.world with
        prom := s.rounds.world.prom.set .cooldownSecondsGauge [ep.url] remaining }
      { s with gauge := .updating rest, rounds := { s.rounds with world := w } }
  | .updating [] =>
      { s with
        gauge := .selecting
        rounds := { s.rounds with world := updateHealthyCount s.rounds.world s.rounds.clock } }
  | _ => s

/-- One event.
Source: `main.rs` `main`; `balancer.rs` `run_background_tasks`; `shutdown.rs` `graceful_shutdown` -/
def step : ProcessEvent M → Process M
  | .pollHealth ready => s.pollHealth ready
  | .completeProbe url isHealthy => { s with rounds := s.rounds.step (.completeProbe url isHealthy) }
  | .pollGauge ready => s.pollGauge ready
  | .stop force =>
      match s.main with
      | .serving =>
          if force then { s with main := .ended none }
          else { s with main := .joining (s.rounds.clock + nanosPerSec * shutdownTimeoutSecs) }
      | _ => s
  | .pollMain =>
      match s.main with
      | .joining deadline => { s with main := joinPoll s.health s.gauge s.rounds.clock deadline }
      | _ => s
  | .environment w => { s with rounds := { s.rounds with world := w } }
  | .advanceClock nanos => { s with rounds := s.rounds.step (.advanceClock nanos) }

/-- The state after a list of events. -/
def run (events : List (ProcessEvent M)) : Process M := Runs.run step s events

end Process

/-! ## A tick alone -/

/-- Probes complete in the health round. -/
theorem run_completeProbe : ∀ (results : List (String × Bool)) (s : Process M),
    s.run (results.map fun r => .completeProbe r.1 r.2) =
      { s with rounds := s.rounds.run (results.map fun r => .completeProbe r.1 r.2) }
  | [], _ => rfl
  | r :: results, s => run_completeProbe results
      { s with rounds := s.rounds.step (.completeProbe r.1 r.2) }

/-- Only a poll of the health loop moves it. -/
theorem health_step (s : Process M) {e : ProcessEvent M} (he : ∀ ready, e ≠ .pollHealth ready) :
    (s.step e).health = s.health := by
  obtain ⟨rounds, health, gauge, main⟩ := s
  cases e with
  | pollHealth ready => exact absurd rfl (he ready)
  | pollGauge ready =>
      simp only [Process.step, Process.pollGauge]
      split
      · split
        · rfl
        · rfl
        · split <;> rfl
      · rfl
      · rfl
      · rfl
  | stop force => rcases main with _ | _ | _ <;> rcases force with _ | _ <;> rfl
  | pollMain => rcases main with _ | _ | _ <;> rfl
  | _ => rfl

/-- A loop that has panicked stays so. -/
theorem health_run_of_panicked {s : Process M} (h : s.health = .panicked) (events : List (ProcessEvent M)) :
    (s.run events).health = .panicked := by
  refine Runs.invariant (fun s : Process M => s.health = .panicked) (fun _ => True) ?_ (fun _ _ => trivial) h
  intro s e _ hp
  by_cases he : ∃ ready, e = .pollHealth ready
  · obtain ⟨ready, rfl⟩ := he
    simp only [Process.step, Process.pollHealth, hp]
  · exact (health_step s fun ready h => he ⟨ready, h⟩).trans hp

/-- A tick, by its ticker and its round. -/
theorem healthCheckTick_eq (w : World M) (currentInterval : ℕ) (results : List (String × Bool))
    (now : Instant) : healthCheckTick w currentInterval results now =
      match renewTicker currentInterval w.lb.healthCheckIntervalSecs now with
      | none => none
      | some period =>
          if (performHealthChecks w results now).2 then none
          else some ((performHealthChecks w results now).1, period) := by
  unfold healthCheckTick
  rcases renewTicker currentInterval w.lb.healthCheckIntervalSecs now with _ | _ <;> rfl

/-- **A tick of the health loop that nothing interrupts** is `healthCheckTick`.
Source: `utils/health.rs` `health_check_loop` -/
theorem run_healthCheckTick (w : World M) (clock : Instant) (currentInterval : ℕ) (gauge : GaugeUpdater)
    {results : List (String × Bool)} (h : (results.map Prod.fst).Perm w.urls) :
    let s : Process M := ⟨⟨w, clock, .idle⟩, .running currentInterval, gauge, .serving⟩
    let s' := s.run ([.pollHealth true] ++ results.map (fun r => .completeProbe r.1 r.2) ++
      [.pollHealth false, .pollHealth false])
    match healthCheckTick w currentInterval results clock with
    | some (w', period) => s' = ⟨⟨w', clock, .idle⟩, .running period, gauge, .serving⟩
    | none => s'.health = .panicked := by
  intro s s'
  have hprobes := run_completeProbes clock (timeoutMillis w.lb.healthCheckTimeoutSecs) h w []
  have hparts : s' = ((s.step (.pollHealth true)).run (results.map fun r => .completeProbe r.1 r.2)).run
      [.pollHealth false, .pollHealth false] := by
    simp only [s', Process.run, Runs.run_append, Runs.run_cons, Runs.run_nil]
  have hfirst : s.step (.pollHealth true) = s.selectHealth true currentInterval := rfl
  rw [hparts, hfirst]
  rw [healthCheckTick_eq]
  unfold Process.selectHealth
  simp only [s, if_true]
  rcases hticker : renewTicker currentInterval w.lb.healthCheckIntervalSecs clock with _ | period
  · refine health_run_of_panicked (health_run_of_panicked ?_ _) _
    rfl
  · have hstart : RoundSystem.step ⟨w, clock, .idle⟩ .startRound =
        ⟨w, clock, .probing (timeoutMillis w.lb.healthCheckTimeoutSecs) w.urls []⟩ := rfl
    rw [run_completeProbe, hstart, hprobes]
    unfold performHealthChecks
    generalize results.foldl (fun m r => m.observe .healthCheckLatency [r.1]) w.prom = observed
    rcases happly : applyHealthResults { w with prom := observed } results
        (timeoutMillis w.lb.healthCheckTimeoutSecs) clock with ⟨w', _ | _⟩
    · simp [Process.run, Process.step, Process.pollHealth, Process.resumeRound, RoundSystem.step, happly]
    · simp [Process.run, Process.step, Process.pollHealth, Process.resumeRound, RoundSystem.step, happly]

/-! ## Where the tasks are -/

/-- The polls that a health loop has still to come to its end, once it is to end. -/
def HealthLoop.remaining (health : HealthLoop) (phase : RoundPhase) : ℕ :=
  match health, phase with
  | .spawned, _ => 2
  | .running _, .idle => 1
  | .running _, .counting => 2
  | .running _, .probing _ pending _ => pending.length + 3
  | _, _ => 0

/-- The polls that a gauge updater has still to come to its end. -/
def GaugeUpdater.remaining : GaugeUpdater → ℕ
  | .selecting => 1
  | .updating rest => rest.length + 2
  | _ => 0

/-- A loop that is not running is in no round, unless it panicked in one. -/
def HealthLoop.Fits (health : HealthLoop) (phase : RoundPhase) : Prop :=
  match health with
  | .running _ => phase ≠ .stopped
  | .panicked => phase = .idle ∨ phase = .stopped
  | _ => phase = .idle

/-- What the result says of the tasks. -/
def ResultFits (result : Except ShutdownError Unit) (health : HealthLoop) (gauge : GaugeUpdater) : Prop :=
  match result with
  | .ok () => health = .returned ∧ gauge = .returned
  | .error .panic => health = .panicked
  | .error (.timeout secs) => secs = shutdownTimeoutSecs ∧ health ≠ .panicked ∧
      ¬ (health = .returned ∧ gauge = .returned)

/-- Tasks are aborted at the end only, and return after the signal only; the result fits them. -/
def MainFits (main : MainPhase) (health : HealthLoop) (gauge : GaugeUpdater) : Prop :=
  match main with
  | .serving => health ≠ .aborted ∧ gauge ≠ .aborted ∧ health ≠ .returned ∧ gauge ≠ .returned
  | .joining _ => health ≠ .aborted ∧ gauge ≠ .aborted
  | .ended (some result) => ResultFits result health gauge
  | .ended none => True

/-! ## How the tasks move -/

/-- The moves of the health loop, by where `main` is. -/
inductive HealthMoves (main : MainPhase) : HealthLoop → RoundPhase → HealthLoop → RoundPhase → Prop where
  | stay {health : HealthLoop} {phase : RoundPhase} : HealthMoves main health phase health phase
  | start {period : ℕ} {phase : RoundPhase} : (∀ result, main ≠ .ended result) →
      HealthMoves main .spawned phase (.running period) phase
  | startPanics {phase : RoundPhase} : (∀ result, main ≠ .ended result) →
      HealthMoves main .spawned phase .panicked phase
  | startAborted {result : Option (Except ShutdownError Unit)} {phase : RoundPhase} : main = .ended result →
      HealthMoves main .spawned phase .aborted phase
  | signalled {period : ℕ} {deadline : Instant} : main = .joining deadline →
      HealthMoves main (.running period) .idle .returned .idle
  | begin {period period' timeoutMs : ℕ} {urls : List String} : main = .serving →
      HealthMoves main (.running period) .idle (.running period') (.probing timeoutMs urls [])
  | beginPanics {period : ℕ} : main = .serving → HealthMoves main (.running period) .idle .panicked .idle
  | probe {period timeoutMs : ℕ} {pending : List String} {updates updates' : List (String × Bool)} {url : String} :
      url ∈ pending → HealthMoves main (.running period) (.probing timeoutMs pending updates) (.running period)
        (.probing timeoutMs (pending.erase url) updates')
  | apply {period timeoutMs : ℕ} {updates : List (String × Bool)} : (∀ result, main ≠ .ended result) →
      HealthMoves main (.running period) (.probing timeoutMs [] updates) (.running period) .counting
  | applyPanics {period timeoutMs : ℕ} {updates : List (String × Bool)} : (∀ result, main ≠ .ended result) →
      HealthMoves main (.running period) (.probing timeoutMs [] updates) .panicked .stopped
  | finish {period : ℕ} : HealthMoves main (.running period) .counting (.running period) .idle
  | aborted {period : ℕ} {phase : RoundPhase} {result : Option (Except ShutdownError Unit)} :
      main = .ended result → phase ≠ .counting → phase ≠ .stopped →
      HealthMoves main (.running period) phase .aborted .idle

/-- The moves of the gauge updater, by where `main` is. -/
inductive GaugeMoves (main : MainPhase) : GaugeUpdater → GaugeUpdater → Prop where
  | stay {gauge : GaugeUpdater} : GaugeMoves main gauge gauge
  | signalled {deadline : Instant} : main = .joining deadline → GaugeMoves main .selecting .returned
  | begin {rest : List RpcEndpoint} : main = .serving → GaugeMoves main .selecting (.updating rest)
  | set {ep : RpcEndpoint} {rest : List RpcEndpoint} : GaugeMoves main (.updating (ep :: rest)) (.updating rest)
  | finish : GaugeMoves main (.updating []) .selecting
  | aborted {result : Option (Except ShutdownError Unit)} : main = .ended result →
      GaugeMoves main .selecting .aborted

section moves

variable {main : MainPhase} {health health' : HealthLoop} {phase phase' : RoundPhase}
  {gauge gauge' : GaugeUpdater}

/-- A move of the health loop keeps it in step with its round. -/
theorem HealthMoves.fits (h : HealthMoves main health phase health' phase') (hfits : health.Fits phase) :
    health'.Fits phase' := by
  rcases h with _ | _ | _ | _ | _ | _ | _ | _ | _ | _ | _ | ⟨_, _, hstopped⟩
  case stay => exact hfits
  case start =>
    obtain rfl : phase = .idle := hfits
    exact nofun
  case startPanics => exact Or.inl hfits
  case startAborted => exact hfits
  case beginPanics => exact Or.inl rfl
  case applyPanics => exact Or.inr rfl
  all_goals first | rfl | exact nofun

/-- A loop that has ended stays so. -/
theorem HealthMoves.of_ended (h : HealthMoves main health phase health' phase')
    (hended : health = .returned ∨ health = .panicked) : health' = health := by
  rcases hended with rfl | rfl <;> rcases h <;> rfl

/-- How a loop comes to its end: it returns on the signal, panics before the end of `main`, is aborted after it. -/
theorem HealthMoves.ends (h : HealthMoves main health phase health' phase') :
    (health' = .returned → health = .returned ∨ ∃ deadline, main = .joining deadline) ∧
      (health' = .panicked → health = .panicked ∨ ∀ result, main ≠ .ended result) ∧
      (health' = .aborted → health = .aborted ∨ ∃ result, main = .ended result) := by
  rcases h <;> simp_all

/-- An updater that has ended stays so. -/
theorem GaugeMoves.of_ended (h : GaugeMoves main gauge gauge') (hended : gauge = .returned) : gauge' = gauge := by
  subst hended
  rcases h
  rfl

/-- How an updater comes to its end. -/
theorem GaugeMoves.ends (h : GaugeMoves main gauge gauge') :
    (gauge' = .returned → gauge = .returned ∨ ∃ deadline, main = .joining deadline) ∧
      (gauge' = .aborted → gauge = .aborted ∨ ∃ result, main = .ended result) := by
  rcases h <;> simp_all

/-- What the result says of the tasks stays true. -/
theorem ResultFits.tasks {result : Except ShutdownError Unit} (h : ResultFits result health gauge)
    (hmain : main = .ended (some result)) (hh : HealthMoves main health phase health' phase')
    (hg : GaugeMoves main gauge gauge') : ResultFits result health' gauge' := by
  obtain ⟨hreturned, hpanicked, -⟩ := hh.ends
  obtain ⟨hgreturned, -⟩ := hg.ends
  rcases result with (_ | secs) | _
  · exact (hh.of_ended (Or.inr h)).trans h
  · obtain ⟨hsecs, hquiet, hleft⟩ := h
    refine ⟨hsecs, fun hp => ?_, fun hboth => hleft ⟨?_, ?_⟩⟩
    · rcases hpanicked hp with hold | hrunning
      · exact hquiet hold
      · exact hrunning _ hmain
    · rcases hreturned hboth.1 with hold | ⟨deadline, hjoining⟩
      · exact hold
      · rw [hmain] at hjoining
        cases hjoining
    · rcases hgreturned hboth.2 with hold | ⟨deadline, hjoining⟩
      · exact hold
      · rw [hmain] at hjoining
        cases hjoining
  · exact ⟨(hh.of_ended (Or.inl h.1)).trans h.1, (hg.of_ended h.2).trans h.2⟩

/-- The moves of the tasks fit where `main` is. -/
theorem MainFits.tasks (h : MainFits main health gauge) (hh : HealthMoves main health phase health' phase')
    (hg : GaugeMoves main gauge gauge') : MainFits main health' gauge' := by
  obtain ⟨hreturned, -, haborted⟩ := hh.ends
  obtain ⟨hgreturned, hgaborted⟩ := hg.ends
  rcases main with _ | deadline | (_ | result)
  · obtain ⟨ha, hga, hr, hgr⟩ := h
    simp only [reduceCtorEq, exists_false, or_false] at hreturned haborted hgreturned hgaborted
    exact ⟨fun h' => ha (haborted h'), fun h' => hga (hgaborted h'), fun h' => hr (hreturned h'),
      fun h' => hgr (hgreturned h')⟩
  · simp only [reduceCtorEq, exists_false, or_false] at haborted hgaborted
    exact ⟨fun h' => h.1 (haborted h'), fun h' => h.2 (hgaborted h')⟩
  · trivial
  · exact ResultFits.tasks h rfl hh hg

/-- A poll of the joining, task by task.
Source: `shutdown.rs` `graceful_shutdown` -/
theorem joinPoll_eq (hh : health ≠ .aborted) (hg : gauge ≠ .aborted)
    (clock deadline : Instant) : joinPoll health gauge clock deadline =
      if health = .panicked then .ended (some (.error .panic))
      else if health = .returned ∧ gauge = .returned then .ended (some (.ok ()))
      else if deadline ≤ clock then .ended (some (.error (.timeout shutdownTimeoutSecs)))
      else .joining deadline := by
  rcases health with _ | _ | _ | _ | _ <;> rcases gauge with _ | _ | _ | _ <;> first | rfl | simp at hh hg

/-- The result of a poll fits the tasks.
Source: `shutdown.rs` `graceful_shutdown` -/
theorem mainFits_joinPoll (hh : health ≠ .aborted) (hg : gauge ≠ .aborted) (clock deadline : Instant) :
    MainFits (joinPoll health gauge clock deadline) health gauge := by
  rw [joinPoll_eq hh hg]
  split
  · rename_i hp
    exact hp
  · rename_i hp
    split
    · rename_i hboth
      exact hboth
    · rename_i hleft
      split
      · exact ⟨rfl, hp, hleft⟩
      · exact ⟨hh, hg⟩

/-- A move of the health loop after the signal: no round begins, and it comes nearer to its end. -/
theorem HealthMoves.after (h : HealthMoves main health phase health' phase') (hfits : health.Fits phase)
    (hsignal : main ≠ .serving) : (phase = .idle → phase' = .idle) ∧
      ((health' = health ∧ phase' = phase) ∨ health'.remaining phase' < health.remaining phase) := by
  rcases h with _ | _ | _ | _ | _ | hserving | hserving | @⟨_, _, pending, _, _, url, hmem⟩ | _ | _ | _ |
    @⟨period, phase, _, _, hcounting, hstopped⟩
  case stay => exact ⟨id, Or.inl ⟨rfl, rfl⟩⟩
  case start =>
    obtain rfl : phase = .idle := hfits
    exact ⟨id, Or.inr Nat.one_lt_two⟩
  case begin => exact absurd hserving hsignal
  case beginPanics => exact absurd hserving hsignal
  case probe =>
    refine ⟨nofun, Or.inr ?_⟩
    have hlength := List.length_erase_of_mem hmem
    have hpos := List.length_pos_of_mem hmem
    simp only [HealthLoop.remaining]
    omega
  case aborted =>
    refine ⟨fun _ => rfl, Or.inr ?_⟩
    rcases phase with _ | _ | _ | _
    · exact Nat.one_pos
    · exact Nat.succ_pos _
    · exact absurd rfl hcounting
    · exact absurd rfl hstopped
  all_goals exact ⟨by simp, Or.inr (by simp [HealthLoop.remaining])⟩

/-- A move of the gauge updater after the signal. -/
theorem GaugeMoves.after (h : GaugeMoves main gauge gauge') (hsignal : main ≠ .serving) :
    (gauge = .selecting → ∀ rest, gauge' ≠ .updating rest) ∧
      (gauge' = gauge ∨ gauge'.remaining < gauge.remaining) := by
  rcases h with _ | _ | hserving | _ | _ | _
  case begin => exact absurd hserving hsignal
  case stay => exact ⟨fun hs rest hu => (by rw [hs] at hu; cases hu), Or.inl rfl⟩
  all_goals exact ⟨by simp, Or.inr (by simp [GaugeUpdater.remaining])⟩

end moves

namespace Process

/-- The invariant of the process. -/
structure Sound (s : Process M) : Prop where
  round : s.health.Fits s.rounds.phase
  main : MainFits s.main s.health s.gauge

/-- The polls the tasks have still to come to their end. -/
def remaining (s : Process M) : ℕ := s.health.remaining s.rounds.phase + s.gauge.remaining

/-- Where the tasks are. -/
def control (s : Process M) : HealthLoop × RoundPhase × GaugeUpdater := (s.health, s.rounds.phase, s.gauge)

/-- Whether a step moves a task. -/
def moves (s : Process M) (e : ProcessEvent M) : ℕ := if (s.step e).control = s.control then 0 else 1

/-- From `s` to `s'` a health round or a gauge tick begins. -/
def Begins (s s' : Process M) : Prop :=
  (s.rounds.phase = .idle ∧ s'.rounds.phase ≠ .idle) ∨
    (s.gauge = .selecting ∧ ∃ rest, s'.gauge = .updating rest)

/-- The events that make the health loop panic: it makes its first ticker, or a new one for a changed interval, of
a period of zero or past the end of the clock; or a cooldown that its round gives does not fit the clock.
Source: `utils/health.rs` `health_check_loop`, `perform_health_checks` -/
def PanicsAt (s : Process M) (e : ProcessEvent M) : Prop :=
  let lb := s.rounds.world.lb
  match e, s.health, s.rounds.phase with
  | .pollHealth _, .spawned, _ => (∀ result, s.main ≠ .ended result) ∧ lb.healthCheckIntervalSecs = 0
  | .pollHealth ready, .running currentInterval, .idle =>
      s.main = .serving ∧ ready = true ∧ lb.healthCheckIntervalSecs ≠ currentInterval ∧
        (lb.healthCheckIntervalSecs = 0 ∨
          (s.rounds.clock.checkedAddSecs lb.healthCheckIntervalSecs).isNone)
  | .pollHealth _, .running _, .probing timeoutMs [] updates =>
      (∀ result, s.main ≠ .ended result) ∧
        (applyHealthResults s.rounds.world updates timeoutMs s.rounds.clock).2 = true
  | _, _, _ => False

section step

variable {s : Process M} {e : ProcessEvent M}

/-- Both tasks have been spawned. -/
theorem sound_start (w : World M) (clock : Instant) : (runBackgroundTasks w clock).Sound where
  round := rfl
  main := ⟨nofun, nofun, nofun, nofun⟩

end step

/-! ## What an event can do -/

/-- What an event does: the tasks move, or `main` does. -/
inductive Moved (s s' : Process M) : Prop where
  | tasks : s'.main = s.main →
      HealthMoves s.main s.health s.rounds.phase s'.health s'.rounds.phase →
      GaugeMoves s.main s.gauge s'.gauge → Moved s s'
  | stop (main : MainPhase) : s.main = .serving → main ≠ .serving → (∀ result, main ≠ .ended (some result)) →
      s' = { s with main := main } → Moved s s'
  | join {deadline : Instant} : s.main = .joining deadline →
      s' = { s with main := joinPoll s.health s.gauge s.rounds.clock deadline } → Moved s s'

section moved

variable {s : Process M} {e : ProcessEvent M}

/-- Only the world moves. -/
theorem moved_of_world {s' : Process M} (hmain : s'.main = s.main) (hhealth : s'.health = s.health)
    (hphase : s'.rounds.phase = s.rounds.phase) (hgauge : s'.gauge = s.gauge) : s.Moved s' := by
  refine .tasks hmain ?_ ?_
  · rw [hhealth, hphase]
    exact .stay
  · rw [hgauge]
    exact .stay

/-- A poll of the health loop.
Source: `utils/health.rs` `health_check_loop`, `perform_health_checks` -/
theorem moved_pollHealth (h : s.Sound) (ready : Bool) : s.Moved (s.pollHealth ready) := by
  obtain ⟨⟨w, clock, phase⟩, health, gauge, main⟩ := s
  have hround : health.Fits phase := h.round
  unfold pollHealth
  dsimp only
  split
  · split
    · exact .tasks rfl (.startAborted rfl) .stay
    · rename_i hmain
      split
      · exact .tasks rfl (.startPanics fun result => hmain result) .stay
      · exact .tasks rfl (.start fun result => hmain result) .stay
  · rename_i currentInterval
    split
    · rename_i hidle
      subst hidle
      unfold selectHealth
      dsimp only
      split
      · exact .tasks rfl (.aborted rfl nofun nofun) .stay
      · exact .tasks rfl (.signalled rfl) .stay
      · split
        · split
          · exact .tasks rfl (.beginPanics rfl) .stay
          · exact .tasks rfl (.begin rfl) .stay
        · exact .tasks rfl .stay .stay
    · rename_i hbusy
      unfold resumeRound
      dsimp only
      split
      · rename_i timeoutMs pending updates
        split
        · exact .tasks rfl (.aborted rfl nofun nofun) .stay
        · rename_i hmain
          rcases pending with _ | ⟨url, pending⟩
          · rcases happly : applyHealthResults w updates timeoutMs clock with ⟨w', _ | _⟩
            · simp only [RoundSystem.step, happly]
              exact .tasks rfl (.apply fun result => hmain result) .stay
            · simp only [RoundSystem.step, happly]
              exact .tasks rfl (.applyPanics fun result => hmain result) .stay
          · exact .tasks rfl .stay .stay
      · exact .tasks rfl .finish .stay
      · exact .tasks rfl .stay .stay
  · exact .tasks rfl .stay .stay

/-- A poll of the gauge updater.
Source: `utils/cooldown.rs` `cooldown_gauge_updater` -/
theorem moved_pollGauge (s : Process M) (ready : Bool) : s.Moved (s.pollGauge ready) := by
  obtain ⟨rounds, health, gauge, main⟩ := s
  unfold pollGauge
  dsimp only
  split
  · split
    · exact .tasks rfl .stay (.aborted rfl)
    · exact .tasks rfl .stay (.signalled rfl)
    · split
      · exact .tasks rfl .stay (.begin rfl)
      · exact .tasks rfl .stay .stay
  · exact .tasks rfl .stay .set
  · exact .tasks rfl .stay .finish
  · exact .tasks rfl .stay .stay

/-- **What an event can do.** -/
theorem moved_step (h : s.Sound) (e : ProcessEvent M) : s.Moved (s.step e) := by
  cases e with
  | pollHealth ready => exact moved_pollHealth h ready
  | completeProbe url isHealthy =>
      obtain ⟨⟨w, clock, phase⟩, health, gauge, main⟩ := s
      rcases phase with _ | ⟨timeoutMs, pending, updates⟩ | _ | _
      · exact moved_of_world rfl rfl rfl rfl
      · simp only [step, RoundSystem.step]
        split
        · rename_i hmem
          obtain ⟨period, rfl⟩ : ∃ period, health = .running period := by
            have hround : health.Fits (.probing timeoutMs pending updates) := h.round
            rcases health with _ | period | _ | _ | _
            · cases hround
            · exact ⟨period, rfl⟩
            · cases hround
            · rcases hround with hround | hround <;> cases hround
            · cases hround
          exact .tasks rfl (.probe hmem) .stay
        · exact moved_of_world rfl rfl rfl rfl
      · exact moved_of_world rfl rfl rfl rfl
      · exact moved_of_world rfl rfl rfl rfl
  | pollGauge ready => exact moved_pollGauge s ready
  | stop force =>
      simp only [step]
      split
      · rename_i hmain
        split
        · exact .stop (.ended none) hmain (by simp) (by simp) rfl
        · exact .stop (.joining _) hmain (by simp) (by simp) rfl
      · exact moved_of_world rfl rfl rfl rfl
  | pollMain =>
      simp only [step]
      split
      · rename_i hmain
        exact .join hmain rfl
      · exact moved_of_world rfl rfl rfl rfl
  | environment w => exact moved_of_world rfl rfl rfl rfl
  | advanceClock nanos => exact moved_of_world rfl rfl rfl rfl

/-! ## The step lemma -/

/-- **Every event keeps the process sound.** -/
theorem sound_step (h : s.Sound) (e : ProcessEvent M) : (s.step e).Sound := by
  rcases moved_step h e with ⟨hmain, hh, hg⟩ | ⟨main, hserving, hne, hnone, heq⟩ | ⟨hjoining, heq⟩
  · refine ⟨hh.fits h.round, ?_⟩
    rw [hmain]
    exact h.main.tasks hh hg
  · rw [heq]
    refine ⟨h.round, ?_⟩
    have hfits := h.main
    rw [hserving] at hfits
    rcases main with _ | deadline | (_ | result)
    · exact absurd rfl hne
    · exact ⟨hfits.1, hfits.2.1⟩
    · trivial
    · exact absurd rfl (hnone result)
  · rw [heq]
    have hfits := h.main
    rw [hjoining] at hfits
    exact ⟨h.round, mainFits_joinPoll hfits.1 hfits.2 _ _⟩

/-- Every run keeps it sound. -/
theorem sound_run (h : s.Sound) (events : List (ProcessEvent M)) : (s.run events).Sound :=
  Runs.invariant Sound (fun _ => True) (fun _ e _ h => sound_step h e) (fun _ _ => trivial) h

/-! ## After the signal -/

/-- **An event after the signal**: nothing begins, and what moves comes nearer to its end. -/
theorem after_step (h : s.Sound) (hsignal : s.main ≠ .serving) (e : ProcessEvent M) :
    (s.step e).main ≠ .serving ∧ ¬ s.Begins (s.step e) ∧ (s.step e).remaining + s.moves e ≤ s.remaining := by
  unfold moves
  rcases moved_step h e with ⟨hmain, hh, hg⟩ | ⟨main, hserving, -⟩ | ⟨hjoining, heq⟩
  · obtain ⟨hidle, hhealth⟩ := hh.after h.round hsignal
    obtain ⟨hselecting, hgauge⟩ := hg.after hsignal
    refine ⟨hmain ▸ hsignal, ?_, ?_⟩
    · rintro (⟨hphase, hbegun⟩ | ⟨hphase, rest, hbegun⟩)
      · exact hbegun (hidle hphase)
      · exact hselecting hphase rest hbegun
    · unfold remaining control
      rcases hhealth with ⟨hh', hp'⟩ | hless
      · rcases hgauge with hg' | hless
        · rw [hh', hp', hg', if_pos rfl]
          exact le_rfl
        · rw [hh', hp']
          split <;> omega
      · rcases hgauge with hg' | hless'
        · rw [hg']
          split <;> omega
        · split <;> omega
  · exact absurd hserving hsignal
  · rw [heq]
    refine ⟨?_, ?_, ?_⟩
    · have hfits := h.main
      rw [hjoining] at hfits
      show joinPoll _ _ _ _ ≠ .serving
      rw [joinPoll_eq hfits.1 hfits.2]
      split <;> (try split) <;> (try split) <;> nofun
    · rintro (⟨hphase, hbegun⟩ | ⟨hphase, rest, hbegun⟩)
      · exact hbegun hphase
      · rw [hphase] at hbegun
        cases hbegun
    · have hsame : ∀ main, control { s with main := main } = s.control := fun _ => rfl
      rw [if_pos (hsame _)]
      exact le_rfl

/-- After the end of `main` no poll changes the balancer. -/
theorem lb_step_of_ended {result : Option (Except ShutdownError Unit)} (hmain : s.main = .ended result)
    (he : e.IsPoll) : (s.step e).rounds.world.lb = s.rounds.world.lb := by
  obtain ⟨⟨w, clock, phase⟩, health, gauge, main⟩ := s
  obtain rfl : main = .ended result := hmain
  cases e with
  | pollHealth ready =>
      simp only [step, pollHealth]
      split
      · rfl
      · split
        · rfl
        · unfold resumeRound
          dsimp only
          split <;> rfl
      · rfl
  | completeProbe url isHealthy =>
      simp only [step, RoundSystem.step]
      split
      · split <;> rfl
      · rfl
  | pollGauge ready =>
      simp only [step, pollGauge]
      split <;> rfl
  | pollMain => rfl
  | stop force => cases he
  | environment w => cases he
  | advanceClock nanos => cases he

/-- On the way to their end, some task can be polled.
Source: `utils/health.rs` `health_check_loop`; `utils/cooldown.rs` `cooldown_gauge_updater` -/
theorem exists_poll (h : s.Sound) {deadline : Instant} (hjoining : s.main = .joining deadline)
    (hpos : 0 < s.remaining) : ∃ e : ProcessEvent M, e.IsPoll ∧ (s.step e).main = .joining deadline ∧
      (s.step e).remaining < s.remaining := by
  have hsignal : s.main ≠ .serving := by rw [hjoining]; exact nofun
  -- a poll that moves a task will do
  have hmove : ∀ e : ProcessEvent M, (s.step e).main = s.main → (s.step e).control ≠ s.control →
      (s.step e).main = .joining deadline ∧ (s.step e).remaining < s.remaining := by
    intro e hmain hcontrol
    have hafter := (after_step h hsignal e).2.2
    rw [moves, if_neg hcontrol] at hafter
    exact ⟨hmain.trans hjoining, hafter⟩
  obtain ⟨⟨w, clock, phase⟩, health, gauge, main⟩ := s
  obtain rfl : main = .joining deadline := hjoining
  have hround : health.Fits phase := h.round
  have hmain : MainFits (.joining deadline) health gauge := h.main
  have hgauge : 0 < gauge.remaining → ∃ e : ProcessEvent M, e.IsPoll ∧
      (step ⟨⟨w, clock, phase⟩, health, gauge, .joining deadline⟩ e).main = .joining deadline ∧
        (step ⟨⟨w, clock, phase⟩, health, gauge, .joining deadline⟩ e).remaining <
          remaining ⟨⟨w, clock, phase⟩, health, gauge, .joining deadline⟩ := by
    intro hleft
    refine ⟨.pollGauge false, trivial, hmove _ ?_ ?_⟩
    · rcases gauge with _ | ⟨_ | ⟨ep, rest⟩⟩ | _ | _ <;> rfl
    · rcases gauge with _ | ⟨_ | ⟨ep, rest⟩⟩ | _ | _
      case updating.cons => simp [step, pollGauge, control]
      all_goals first | exact absurd rfl hleft.ne' | simp [step, pollGauge, control]
  rcases health with _ | period | _ | _ | _
  · refine ⟨.pollHealth false, trivial, hmove _ ?_ ?_⟩
    · simp only [step, pollHealth]
      split <;> rfl
    · simp only [step, pollHealth]
      split <;> simp [control]
  · rcases phase with _ | ⟨timeoutMs, _ | ⟨url, pending⟩, updates⟩ | _ | _
    · exact ⟨.pollHealth false, trivial, hmove _ rfl (by simp [step, pollHealth, selectHealth, control])⟩
    · refine ⟨.pollHealth false, trivial, hmove _ rfl ?_⟩
      rcases happly : applyHealthResults w updates timeoutMs clock with ⟨w', _ | _⟩ <;>
        simp [step, pollHealth, resumeRound, RoundSystem.step, happly, control]
    · exact ⟨.completeProbe url true, trivial, hmove _ rfl (by simp [step, RoundSystem.step, control])⟩
    · refine ⟨.pollHealth false, trivial, hmove _ rfl ?_⟩
      simp [step, pollHealth, resumeRound, RoundSystem.step, control]
    · exact absurd rfl hround
  · exact hgauge (by simpa [remaining, HealthLoop.remaining] using hpos)
  · exact hgauge (by simpa [remaining, HealthLoop.remaining] using hpos)
  · exact absurd rfl hmain.1

/-- **Exactly when the health loop panics.**
Source: `utils/health.rs` `health_check_loop`, `perform_health_checks` -/
theorem health_step_panicked_iff (h : s.Sound) (hquiet : s.health ≠ .panicked) (e : ProcessEvent M) :
    (s.step e).health = .panicked ↔ s.PanicsAt e := by
  by_cases he : ∃ ready, e = .pollHealth ready
  · obtain ⟨ready, rfl⟩ := he
    obtain ⟨⟨w, clock, phase⟩, health, gauge, main⟩ := s
    have hround : health.Fits phase := h.round
    rcases health with _ | period | _ | _ | _
    · simp only [step, pollHealth, PanicsAt, interval]
      by_cases hzero : w.lb.healthCheckIntervalSecs = 0
      · rcases main with _ | _ | _ <;> simp [hzero]
      · rcases main with _ | _ | _ <;> simp [hzero]
    · rcases phase with _ | ⟨timeoutMs, _ | ⟨url, pending⟩, updates⟩ | _ | _
      · simp only [step, pollHealth, selectHealth, PanicsAt, if_true]
        rcases main with _ | _ | _
        · rw [← renewTicker_eq_none_iff]
          rcases ready with _ | _
          · simp
          · rcases renewTicker period w.lb.healthCheckIntervalSecs clock with _ | _ <;> simp
        · simp
        · simp
      · simp only [step, pollHealth, resumeRound, PanicsAt, reduceCtorEq, if_false]
        rcases happly : applyHealthResults w updates timeoutMs clock with ⟨w', _ | _⟩
        · rcases main with _ | _ | _ <;> simp [RoundSystem.step, happly]
        · rcases main with _ | _ | _ <;> simp [RoundSystem.step, happly]
      · -- a probe is pending
        refine iff_of_false ?_ id
        rcases main with _ | _ | _ <;> simp [step, pollHealth, resumeRound, RoundSystem.step]
      · exact iff_of_false (fun h => by cases h) id
      · exact absurd rfl hround
    · exact iff_of_false (fun h => by cases h) id
    · exact absurd rfl hquiet
    · exact iff_of_false (fun h => by cases h) id
  · have hother : ¬ s.PanicsAt e := by
      intro hp
      unfold PanicsAt at hp
      split at hp
      · exact he ⟨_, rfl⟩
      · exact he ⟨_, rfl⟩
      · exact he ⟨_, rfl⟩
      · exact hp
    rw [health_step s fun ready h => he ⟨ready, h⟩]
    exact iff_of_false hquiet hother

/-- When both tasks have come to their end, a poll of `main` ends the joining.
Source: `shutdown.rs` `graceful_shutdown` -/
theorem pollMain_of_remaining (h : s.Sound) {deadline : Instant} (hjoining : s.main = .joining deadline)
    (hzero : s.remaining = 0) : ∃ result, (s.step .pollMain).main = .ended (some result) ∧
      ∀ secs, result ≠ .error (.timeout secs) := by
  obtain ⟨⟨w, clock, phase⟩, health, gauge, main⟩ := s
  obtain rfl : main = .joining deadline := hjoining
  have hround : health.Fits phase := h.round
  obtain ⟨hh, hg⟩ : MainFits (.joining deadline) health gauge := h.main
  obtain ⟨hhealth, hgauge⟩ := Nat.add_eq_zero_iff.mp hzero
  have hgauge' : gauge = .returned := by
    rcases gauge with _ | _ | _ | _
    · cases hgauge
    · cases hgauge
    · rfl
    · exact absurd rfl hg
  have hhealth' : health = .panicked ∨ health = .returned := by
    rcases health with _ | period | _ | _ | _
    · cases hhealth
    · rcases phase with _ | _ | _ | _
      · cases hhealth
      · cases hhealth
      · cases hhealth
      · exact absurd rfl hround
    · exact Or.inr rfl
    · exact Or.inl rfl
    · exact absurd rfl hh
  show ∃ result, joinPoll health gauge clock deadline = _ ∧ _
  rw [joinPoll_eq hh hg]
  rcases hhealth' with rfl | rfl
  · exact ⟨_, rfl, nofun⟩
  · refine ⟨.ok (), ?_, nofun⟩
    rw [if_neg nofun, if_pos ⟨rfl, hgauge'⟩]

/-- **A shutdown can be completed**: by polls alone, no more of them than are to come and one of `main`. -/
theorem exists_completion : ∀ (n : ℕ) {s : Process M}, s.Sound → ∀ {deadline : Instant},
    s.main = .joining deadline → s.remaining ≤ n → ∃ more : List (ProcessEvent M), more.length ≤ n + 1 ∧
      (∀ e ∈ more, e.IsPoll) ∧ ∃ result, (s.run more).main = .ended (some result) ∧
        ∀ secs, result ≠ .error (.timeout secs) := by
  intro n
  induction n with
  | zero =>
      intro s h deadline hjoining hle
      obtain ⟨result, hresult⟩ := pollMain_of_remaining h hjoining (Nat.le_zero.mp hle)
      exact ⟨[.pollMain], le_rfl, by simp [ProcessEvent.IsPoll], result, hresult⟩
  | succ n ih =>
      intro s h deadline hjoining hle
      rcases Nat.eq_zero_or_pos s.remaining with hzero | hpos
      · obtain ⟨result, hresult⟩ := pollMain_of_remaining h hjoining hzero
        exact ⟨[.pollMain], Nat.succ_le_succ (Nat.zero_le _), by simp [ProcessEvent.IsPoll], result, hresult⟩
      · obtain ⟨e, he, hmain, hless⟩ := exists_poll h hjoining hpos
        obtain ⟨more, hlength, hpolls, hend⟩ := ih (sound_step h e) hmain (by omega)
        exact ⟨e :: more, Nat.succ_le_succ hlength, List.forall_mem_cons.mpr ⟨he, hpolls⟩, hend⟩

end moved

end Process

/-- **The shutdown protocol.** Over every interleaving of the two tasks, their probes, `main` and an environment
that changes the balancer at will:

* from the signal on no health round and no gauge tick begins, and the tasks move at most as often as they have
  polls to come to their end;
* the health loop panics exactly at the events of `Process.PanicsAt`: over an interval of zero or one whose ticker
  cannot be reset, and over a cooldown past the end of the clock;
* a graceful shutdown that answers `Ok` has seen both tasks return; it answers with a panic exactly if the health
  loop has panicked, be it long before the signal; and a timeout means that neither is so;
* once `main` has ended no poll changes the balancer: a health round is applied whole or not at all;
* while `main` waits, as many polls as are to come, and one of `main`, can end the shutdown without a timeout.

Source: `main.rs` `main`; `shutdown.rs` `graceful_shutdown`; `utils/health.rs` `health_check_loop`;
`utils/cooldown.rs` `cooldown_gauge_updater` -/
theorem shutdown_protocol (w : World M) (clock : Instant) (events : List (ProcessEvent M)) :
    let s := (runBackgroundTasks w clock).run events
    (s.main ≠ .serving → ∀ more, Runs.Along Process.step (fun s e => ¬ s.Begins (s.step e)) s more ∧
        Runs.charged Process.step Process.moves s more ≤ s.remaining) ∧
      (s.health ≠ .panicked → ∀ e : ProcessEvent M, (s.step e).health = .panicked ↔ s.PanicsAt e) ∧
      (∀ result, s.main = .ended (some result) →
        (result = .ok () ↔ s.health = .returned ∧ s.gauge = .returned) ∧
        (result = .error .panic ↔ s.health = .panicked) ∧
        ∀ secs, result = .error (.timeout secs) → secs = shutdownTimeoutSecs) ∧
      (∀ result, s.main = .ended result → ∀ e : ProcessEvent M, e.IsPoll →
        (s.step e).rounds.world.lb = s.rounds.world.lb) ∧
      ∀ deadline, s.main = .joining deadline → ∃ more : List (ProcessEvent M), more.length ≤ s.remaining + 1 ∧
        (∀ e ∈ more, e.IsPoll) ∧ ∃ result, (s.run more).main = .ended (some result) ∧
          ∀ secs, result ≠ .error (.timeout secs) := by
  intro s
  have hsound : s.Sound := Process.sound_run (Process.sound_start w clock) events
  refine ⟨fun hsignal more => ⟨?_, ?_⟩, Process.health_step_panicked_iff hsound, fun result hmain => ?_,
    fun result hmain e he => ?_, fun deadline hjoining => ?_⟩
  · exact Runs.along_of_invariant (fun s : Process M => s.Sound ∧ s.main ≠ .serving)
      (fun s e h => ⟨⟨Process.sound_step h.1 e, (Process.after_step h.1 h.2 e).1⟩,
        (Process.after_step h.1 h.2 e).2.1⟩) ⟨hsound, hsignal⟩
  · exact Runs.charged_le (fun s : Process M => s.Sound ∧ s.main ≠ .serving) Process.remaining
      (fun s e h => ⟨⟨Process.sound_step h.1 e, (Process.after_step h.1 h.2 e).1⟩,
        (Process.after_step h.1 h.2 e).2.2⟩) ⟨hsound, hsignal⟩
  · have hfits := hsound.main
    rw [hmain] at hfits
    rcases result with (_ | secs) | _
    · have hpanicked : s.health = .panicked := hfits
      simp [hpanicked]
    · obtain ⟨hsecs, hquiet, hleft⟩ := hfits
      simp [hsecs, hquiet, hleft]
    · obtain ⟨hh, hg⟩ := hfits
      simp [hh, hg]
  · exact Process.lb_step_of_ended hmain he
  · exact Process.exists_completion _ hsound hjoining le_rfl

end AzothBalancer
