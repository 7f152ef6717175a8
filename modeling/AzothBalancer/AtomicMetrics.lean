import AzothBalancer.Balancer
import AzothBalancer.Lib.Interleave
import Mathlib.Data.List.Permutation

/-!
# The metrics object, access by access

An endpoint's metrics object is four atomics behind one `Arc`. `EndpointMetrics::update` touches up to three of
them, one after another, and any number of calls do so at the same time: they hold the endpoint list for
reading only. Elsewhere in the model an update is one step. Here every access is one (`MetricsAccess`), and a
writer of the object is the program of its accesses (`MetricsWriter.accesses`).

* `foldl_accesses` — a writer that nothing interrupts does what the one-step function does.
* `routing_serialisable` — whatever the interleaving, what the strategy reads of the object is what the
  writers leave behind one after another, in some order.
* `failures_not_serialisable` — the failure count is outside this.
-/

namespace AzothBalancer

open EndpointMetrics (updateEma calculatePenalty)

/-! ## Accesses -/

/-- An access to one of the atomics of a metrics object. -/
inductive MetricsAccess where
  /-- `fetch_update` on `ema_latency_ms`. -/
  | averageLatency (latencyMs : ℕ) (alpha : F64)
  /-- `fetch_update` on `ema_error_penalty_ms`. -/
  | averagePenalty (penaltyMs : ℕ) (alpha : F64)
  /-- `store(0)` on `consecutive_failures`. -/
  | resetFailures
  /-- `fetch_add(1)` on `consecutive_failures`. -/
  | countFailure
  /-- `store` on `last_selected`. -/
  | stampSelected (unixSecs : ℕ)
  deriving DecidableEq

/-- The object after an access.
Source: `endpoint.rs` `EndpointMetrics::update`, `update_ema` -/
def MetricsAccess.apply (m : EndpointMetrics) : MetricsAccess → EndpointMetrics
  | .averageLatency latencyMs alpha => { m with emaLatencyMs := updateEma m.emaLatencyMs latencyMs alpha }
  | .averagePenalty penaltyMs alpha =>
      { m with emaErrorPenaltyMs := updateEma m.emaErrorPenaltyMs penaltyMs alpha }
  | .resetFailures => { m with consecutiveFailures := 0 }
  | .countFailure => { m with consecutiveFailures := (m.consecutiveFailures + 1) % 2 ^ 32 }
  | .stampSelected unixSecs => { m with lastSelected := unixSecs }

/-- What writes a metrics object: the outcome of a request or a failed probe, the recovery of an endpoint, a
selection. -/
inductive MetricsWriter where
  | update (outcome : RequestOutcome) (latencySmoothingFactor : F64)
  | recover
  | select (unixSecs : ℕ)
  deriving DecidableEq

/-- The fast decay of the penalty. -/
def decayPenalty : MetricsAccess := .averagePenalty 0 (.finite (1 / 2))

/-- The accesses of a writer, in program order.
Source: `endpoint.rs` `EndpointMetrics::update`; `utils/health.rs` `perform_health_checks`; `balancer.rs`
`get_next_endpoint` -/
def MetricsWriter.accesses : MetricsWriter → List MetricsAccess
  | .update (.success latencyMs) latencySmoothingFactor =>
      [.averageLatency latencyMs latencySmoothingFactor, .resetFailures, decayPenalty]
  | .update (.failure errorKind latencyMs) _ =>
      [.averagePenalty (calculatePenalty errorKind latencyMs) (.finite (4 / 5)), .countFailure]
  | .recover => [.resetFailures, decayPenalty]
  | .select unixSecs => [.stampSelected unixSecs]

/-- What a writer does in one step. -/
def MetricsWriter.run (m : EndpointMetrics) : MetricsWriter → EndpointMetrics
  | .update outcome latencySmoothingFactor => m.update outcome latencySmoothingFactor
  | .recover =>
      { m with
        consecutiveFailures := 0
        emaErrorPenaltyMs := updateEma m.emaErrorPenaltyMs 0 (.finite (1 / 2)) }
  | .select unixSecs => { m with lastSelected := unixSecs }

/-- A writer that nothing interrupts.
Source: `endpoint.rs` `EndpointMetrics::update` -/
theorem foldl_accesses (m : EndpointMetrics) (writer : MetricsWriter) :
    writer.accesses.foldl MetricsAccess.apply m = writer.run m := by
  rcases writer with ⟨_ | _, _⟩ | _ | _ <;> rfl

/-- Writers one after another take their accesses one after another. -/
theorem foldl_run (order : List MetricsWriter) (m : EndpointMetrics) :
    order.foldl MetricsWriter.run m =
      (order.flatMap MetricsWriter.accesses).foldl MetricsAccess.apply m := by
  induction order generalizing m with
  | nil => rfl
  | cons writer order ih =>
      rw [List.foldl_cons, ih, List.flatMap_cons, List.foldl_append, foldl_accesses]

/-- The writers of one object at work at the same time. -/
abbrev MetricsRace := Interleave.State EndpointMetrics MetricsWriter.accesses

/-! ## Registers -/

/-- The accesses to the latency. -/
def MetricsAccess.onLatency : MetricsAccess → Option MetricsAccess
  | .averageLatency latencyMs alpha => some (.averageLatency latencyMs alpha)
  | _ => none

/-- The accesses to the penalty and to the time of the last selection. -/
def MetricsAccess.onPenalty : MetricsAccess → Option MetricsAccess
  | .averagePenalty penaltyMs alpha => some (.averagePenalty penaltyMs alpha)
  | .stampSelected unixSecs => some (.stampSelected unixSecs)
  | _ => none

/-- The accesses to the failure count. -/
def MetricsAccess.onFailures : MetricsAccess → Option MetricsAccess
  | .resetFailures => some .resetFailures
  | .countFailure => some .countFailure
  | _ => none

/-- The one access of a writer to such a register, if it has one. -/
def MetricsWriter.once (on : MetricsAccess → Option MetricsAccess) (writer : MetricsWriter) :
    Option MetricsAccess :=
  (writer.accesses.filterMap on).head?

section registers

variable {on : MetricsAccess → Option MetricsAccess}

/-- No writer accesses one of these registers twice. -/
theorem filterMap_accesses
    (h : on = MetricsAccess.onLatency ∨ on = MetricsAccess.onPenalty ∨ on = MetricsAccess.onFailures)
    (writer : MetricsWriter) : writer.accesses.filterMap on = (writer.once on).toList := by
  rcases h with rfl | rfl | rfl <;> rcases writer with ⟨_ | _, _⟩ | _ | _ <;> rfl

/-- A writer that enters a latency is a success, and decays the penalty. -/
theorem once_onPenalty_of_latency (writer : MetricsWriter)
    (h : (writer.once MetricsAccess.onLatency).isSome) :
    writer.once MetricsAccess.onPenalty = some decayPenalty := by
  rcases writer with ⟨_ | _, _⟩ | _ | _
  · rfl
  all_goals cases h

/-- The object at a register: the accesses to it move it, and no other does. -/
theorem proj_foldl_apply {β : Type} (on : MetricsAccess → Option MetricsAccess) (proj : EndpointMetrics → β)
    (write : β → MetricsAccess → β)
    (h : ∀ m a, proj (a.apply m) = ((on a).map (write (proj m))).getD (proj m))
    (actions : List MetricsAccess) (m : EndpointMetrics) :
    proj (actions.foldl MetricsAccess.apply m) = (actions.filterMap on).foldl write (proj m) :=
  Interleave.foldl_eq_of_acts h actions m

/-- Two lists of accesses that agree at the latency lead to one latency. -/
theorem latency_congr {actions actions' : List MetricsAccess} (m : EndpointMetrics)
    (h : actions.filterMap MetricsAccess.onLatency = actions'.filterMap MetricsAccess.onLatency) :
    (actions.foldl MetricsAccess.apply m).emaLatencyMs =
      (actions'.foldl MetricsAccess.apply m).emaLatencyMs := by
  have hproj := proj_foldl_apply MetricsAccess.onLatency EndpointMetrics.emaLatencyMs
    (fun v a => match a with
      | .averageLatency latencyMs alpha => updateEma v latencyMs alpha
      | _ => v)
    (fun m a => by cases a <;> rfl)
  rw [hproj, hproj, h]

/-- Two lists of accesses that agree at the penalty and the selections lead to one penalty and one time of the
last selection. -/
theorem penalty_congr {actions actions' : List MetricsAccess} (m : EndpointMetrics)
    (h : actions.filterMap MetricsAccess.onPenalty = actions'.filterMap MetricsAccess.onPenalty) :
    (actions.foldl MetricsAccess.apply m).emaErrorPenaltyMs =
        (actions'.foldl MetricsAccess.apply m).emaErrorPenaltyMs ∧
      (actions.foldl MetricsAccess.apply m).lastSelected =
        (actions'.foldl MetricsAccess.apply m).lastSelected := by
  have hproj := proj_foldl_apply MetricsAccess.onPenalty
    (fun m => (m.emaErrorPenaltyMs, m.lastSelected))
    (fun v a => match a with
      | .averagePenalty penaltyMs alpha => (updateEma v.1 penaltyMs alpha, v.2)
      | .stampSelected unixSecs => (v.1, unixSecs)
      | _ => v)
    (fun m a => by cases a <;> rfl)
  have heq := (hproj actions m).trans ((congrArg _ h).trans (hproj actions' m).symm)
  exact Prod.mk.inj heq

/-- Two lists of accesses that agree at the failure count lead to one failure count. -/
theorem failures_congr {actions actions' : List MetricsAccess} (m : EndpointMetrics)
    (h : actions.filterMap MetricsAccess.onFailures = actions'.filterMap MetricsAccess.onFailures) :
    (actions.foldl MetricsAccess.apply m).consecutiveFailures =
      (actions'.foldl MetricsAccess.apply m).consecutiveFailures := by
  have hproj := proj_foldl_apply MetricsAccess.onFailures EndpointMetrics.consecutiveFailures
    (fun v a => match a with
      | .resetFailures => 0
      | .countFailure => (v + 1) % 2 ^ 32
      | _ => v)
    (fun m a => by cases a <;> rfl)
  rw [hproj, hproj, h]

end registers

/-! ## The result -/

/-- The two objects rank the endpoint alike: the strategy reads nothing else. -/
structure EndpointMetrics.SameRouting (m m' : EndpointMetrics) : Prop where
  latency : m.emaLatencyMs = m'.emaLatencyMs
  penalty : m.emaErrorPenaltyMs = m'.emaErrorPenaltyMs
  selected : m.lastSelected = m'.lastSelected

/-- With the same routing data, a candidate compares with any other as before.
Source: `strategy.rs` `select_best_endpoint`, the `sort_by` closure -/
theorem EndpointMetrics.SameRouting.compareCandidates {metricsOf metricsOf' : RpcEndpoint → EndpointMetrics}
    {a b : RpcEndpoint} (ha : (metricsOf a).SameRouting (metricsOf' a))
    (hb : (metricsOf b).SameRouting (metricsOf' b)) (useCost : Bool) :
    AzothBalancer.compareCandidates metricsOf useCost a b =
      AzothBalancer.compareCandidates metricsOf' useCost a b := by
  simp only [AzothBalancer.compareCandidates, EndpointMetrics.getTotalCost, ha.latency, ha.penalty,
    ha.selected, hb.latency, hb.penalty, hb.selected]

/-- **Concurrent updates are serialisable as far as routing goes.** For any number of writers on one metrics
object and every interleaving of their atomic accesses, in each state in which no writer stands between its
first access and its last:

* latency, penalty and time of the last selection, which is all the strategy reads, are together what the
  writers leave that run one after another in some order;
* so is the failure count, for some order, which need not be the same.

Source: `endpoint.rs` `EndpointMetrics::update`, `update_ema`; `utils/health.rs` `perform_health_checks`;
`balancer.rs` `get_next_endpoint`; `forwarder.rs` `forward_request`, "Metrics Update Logic" -/
theorem routing_serialisable (m : EndpointMetrics) (writers : List MetricsWriter) (schedule : List ℕ)
    (hquiet : ((Interleave.State.start m writers : MetricsRace).run MetricsAccess.apply schedule).Quiescent) :
    let s := (Interleave.State.start m writers : MetricsRace).run MetricsAccess.apply schedule
    s.begun.Sublist writers ∧
      (∃ order : List MetricsWriter, order.Perm s.begun ∧
        s.shared.SameRouting (order.foldl MetricsWriter.run m)) ∧
      ∃ order : List MetricsWriter, order.Perm s.begun ∧
        s.shared.consecutiveFailures = (order.foldl MetricsWriter.run m).consecutiveFailures := by
  intro s
  obtain ⟨trace, hshared, htrace⟩ := Interleave.exists_trace MetricsAccess.apply m writers schedule hquiet
  have hlat := filterMap_accesses (.inl rfl)
  have hpen := filterMap_accesses (.inr (.inl rfl))
  have hfail := filterMap_accesses (.inr (.inr rfl))
  -- the accesses to a register, as contributions of the writers
  have hregister : ∀ on : MetricsAccess → Option MetricsAccess,
      (∀ writer : MetricsWriter, writer.accesses.filterMap on = (writer.once on).toList) →
      (trace.filterMap on).Perm (s.begun.filterMap (MetricsWriter.once on)) := by
    intro on hon
    rw [← Interleave.filterMap_flatMap_program hon]
    exact htrace.filterMap on
  refine ⟨Interleave.begun_sublist MetricsAccess.apply m writers schedule, ?_, ?_⟩
  · obtain ⟨order, hperm, hlatency, hpenalty⟩ := Interleave.exists_order
      (fun writer _ => once_onPenalty_of_latency writer)
      (hregister MetricsAccess.onLatency hlat) (hregister MetricsAccess.onPenalty hpen)
    refine ⟨order, hperm, ?_⟩
    rw [← Interleave.filterMap_flatMap_program hlat] at hlatency
    rw [← Interleave.filterMap_flatMap_program hpen] at hpenalty
    obtain ⟨hp, hs⟩ := penalty_congr m hpenalty.symm
    rw [← foldl_run, ← hshared] at hp hs
    refine ⟨?_, hp, hs⟩
    rw [hshared, foldl_run]
    exact latency_congr m hlatency.symm
  · -- a register by itself is in the order of its accesses
    obtain ⟨order, hperm, hfailures⟩ :=
      Interleave.exists_order_of_perm (hregister MetricsAccess.onFailures hfail)
    refine ⟨order, hperm, ?_⟩
    rw [← Interleave.filterMap_flatMap_program hfail] at hfailures
    rw [hshared, foldl_run]
    exact failures_congr m hfailures.symm

/-- A success and a failure at the same time. -/
def racingWriters : List MetricsWriter :=
  [.update (.success 10) (.finite (1 / 10)), .update (.failure .timeout 0) (.finite (1 / 10))]

/-- The success resets the count, the failure runs, the success decays the penalty. -/
def racingSchedule : List ℕ := [0, 0, 1, 1, 0]

/-- `routing_serialisable` for the two. -/
theorem routing_serialisable_racing :
    let s := (Interleave.State.start {} racingWriters : MetricsRace).run MetricsAccess.apply racingSchedule
    s.begun.Sublist racingWriters ∧
      (∃ order : List MetricsWriter, order.Perm s.begun ∧
        s.shared.SameRouting (order.foldl MetricsWriter.run {})) ∧
      ∃ order : List MetricsWriter, order.Perm s.begun ∧
        s.shared.consecutiveFailures = (order.foldl MetricsWriter.run {}).consecutiveFailures :=
  routing_serialisable {} racingWriters racingSchedule (by decide)

/-- The whole object is not serialisable: the race leaves one failure and a decayed penalty, which neither
order of the two writers does. -/
theorem failures_not_serialisable :
    let s := (Interleave.State.start {} racingWriters : MetricsRace).run MetricsAccess.apply racingSchedule
    s.Quiescent ∧ ∀ order : List MetricsWriter, order.Perm racingWriters →
      s.shared ≠ order.foldl MetricsWriter.run {} := by
  refine ⟨by decide, fun order hperm => ?_⟩
  rcases List.perm_pair.mp hperm with rfl | rfl <;> decide +kernel

end AzothBalancer
