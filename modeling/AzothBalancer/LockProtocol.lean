import AzothBalancer.ConfigReloader
import AzothBalancer.Lib.RwLock

/-!
# The locks of the balancer

Every function that takes locks of the balancer, as the events of its guards in order (`LockCall`,
`LockCall.trace`). What a call finds decides which guards it takes, so a constructor carries what its
trace depends on: whether the URL was found, how many endpoints were probed, which client setting was
the first to differ.

All calls but one acquire locks by increasing rank. `get_status` holds the endpoint list while
`get_endpoint_priority_stats` reads it again, and a writer that queues in between is waited for by
the second read and waits for the first (`cyclic_of_getStatus`). `deadlockFree_iff` says that this is
the only way: calls cannot deadlock exactly if they do not include both `get_status` and a call that
writes the endpoint list.
-/

namespace AzothBalancer

open RwLock

/-- The locks of `LoadBalancer`.
Source: `balancer.rs` `LoadBalancer` -/
inductive LockName where
  | endpoints
  | rateLimiters
  | client
  | healthCheckIntervalSecs
  | healthCheckTimeoutSecs
  | baseCooldownSecs
  | maxCooldownSecs
  | maxBatchSize
  | latencySmoothingFactor
  | configPath
  | connectTimeoutMs
  | timeoutSecs
  | poolIdleTimeoutSecs
  | poolMaxIdlePerHost
  deriving DecidableEq, Repr

/-- The order in which locks are acquired. -/
def LockName.rank : LockName → ℕ
  | .endpoints => 0
  | .rateLimiters => 1
  | .baseCooldownSecs => 2
  | _ => 3

/-- The lock of a stored client setting. -/
def ClientField.lock : ClientField → LockName
  | .connectTimeoutMs => .connectTimeoutMs
  | .timeoutSecs => .timeoutSecs
  | .poolIdleTimeoutSecs => .poolIdleTimeoutSecs
  | .poolMaxIdlePerHost => .poolMaxIdlePerHost

/-- The lock of a published setting. -/
def PublishedSetting.lock : PublishedSetting → LockName
  | .maxBatchSize => .maxBatchSize
  | .baseCooldownSecs => .baseCooldownSecs
  | .maxCooldownSecs => .maxCooldownSecs
  | .healthCheckIntervalSecs => .healthCheckIntervalSecs
  | .healthCheckTimeoutSecs => .healthCheckTimeoutSecs
  | .latencySmoothingFactor => .latencySmoothingFactor

/-! ## Calls -/

/-- A call that takes locks, with what decides which. -/
inductive LockCall where
  | getStatus
  | getNextEndpoint
  /-- The clone of the client in `forward_request`. -/
  | cloneClient
  /-- The metrics section of `forward_request`. -/
  | updateMetrics (found timedOut : Bool)
  /-- `tripped`: the URL was found and its endpoint was healthy. -/
  | markUnhealthy (tripped : Bool)
  | markRateLimited (found : Bool)
  /-- `failed`: the number of failed probes of endpoints that were still there. -/
  | performHealthChecks (probed failed : ℕ)
  | updateHealthyCount
  /-- A reload whose file is refused. -/
  | reloadRefused
  /-- `changed`: the first client setting that differs; the comparison stops there. -/
  | reload (changed : Option ClientField) (added : ℕ)
  /-- The batch size checks of `handle_rpc`. -/
  | checkBatchSize
  /-- The interval read by `health_check_loop`. -/
  | readHealthCheckInterval
  /-- A tick of `cooldown_gauge_updater`: the gauges, then `update_healthy_count`. -/
  | updateCooldownGauges
  deriving DecidableEq, Repr

/-- A read guard that is dropped at the end of its statement. -/
def readLock (l : LockName) : List (LockEvent LockName) := scope .read l []

/-- A write through a guard that is dropped at the end of its statement. -/
def writeLock (l : LockName) : List (LockEvent LockName) := scope .write l []

/-- The guards of `get_endpoint_priority_stats`.
Source: `balancer.rs` `get_endpoint_priority_stats` -/
def getEndpointPriorityStatsTrace : List (LockEvent LockName) := readLock .endpoints

/-- The settings `get_status` reads one at a time while it holds the endpoint list.
Source: `balancer.rs` `get_status` -/
def statusSettings : List LockName := [
  .configPath, .healthCheckIntervalSecs, .healthCheckTimeoutSecs, .baseCooldownSecs,
  .maxCooldownSecs, .maxBatchSize, .latencySmoothingFactor, .connectTimeoutMs, .timeoutSecs,
  .poolIdleTimeoutSecs, .poolMaxIdlePerHost]

/-- The two cooldown bounds, read as arguments of one call: the first guard lives until the call
returns.
Source: `balancer.rs` `mark_rate_limited`, `mark_unhealthy` -/
def cooldownBoundsTrace : List (LockEvent LockName) :=
  scope .read .baseCooldownSecs (readLock .maxCooldownSecs)

/-- The client settings that are compared, up to the first that differs.
Source: `config_reloader.rs` `reload`, `client_settings_changed` -/
def comparedFields : Option ClientField → List ClientField
  | some .connectTimeoutMs => [.connectTimeoutMs]
  | some .timeoutSecs => [.connectTimeoutMs, .timeoutSecs]
  | some .poolIdleTimeoutSecs => [.connectTimeoutMs, .timeoutSecs, .poolIdleTimeoutSecs]
  | some .poolMaxIdlePerHost | none =>
      [.connectTimeoutMs, .timeoutSecs, .poolIdleTimeoutSecs, .poolMaxIdlePerHost]

/-- The lock a section of a reload writes.
Source: `config_reloader.rs` `reload` -/
def ReloadSection.writtenLock : ReloadSection → Option LockName
  | .writeClient => some .client
  | .writeClientField f => some f.lock
  | .writeEndpoints => some .endpoints
  | .writeRateLimiters => some .rateLimiters
  | .publish s => some s.lock
  | _ => none

/-- The writes of some sections of a reload, each through its own guard. -/
def writesOf (secs : List ReloadSection) : List (LockEvent LockName) :=
  ((secs.filterMap ReloadSection.writtenLock).map writeLock).flatten

/-- The lock events of a call. -/
def LockCall.trace : LockCall → List (LockEvent LockName)
  | .getStatus =>
      scope .read .endpoints ((statusSettings.map readLock).flatten ++ getEndpointPriorityStatsTrace)
  | .getNextEndpoint => scope .read .endpoints (readLock .rateLimiters)
  | .cloneClient => readLock .client
  | .updateMetrics found timedOut =>
      scope .read .endpoints
        (if found then
          readLock .latencySmoothingFactor ++ if timedOut then readLock .timeoutSecs else []
        else [])
  | .markUnhealthy tripped => scope .write .endpoints (if tripped then cooldownBoundsTrace else [])
  | .markRateLimited found => scope .write .endpoints (if found then cooldownBoundsTrace else [])
  | .performHealthChecks probed failed =>
      readLock .endpoints ++ readLock .healthCheckTimeoutSecs ++
        (List.replicate probed (readLock .client)).flatten ++
        scope .write .endpoints (readLock .baseCooldownSecs ++ readLock .maxCooldownSecs ++
          (List.replicate failed (readLock .latencySmoothingFactor)).flatten) ++
        readLock .endpoints
  | .updateHealthyCount => readLock .endpoints
  | .reloadRefused => readLock .configPath
  | .reload changed added =>
      readLock .configPath ++
        ((comparedFields changed).map fun f => readLock f.lock).flatten ++
        (if changed.isSome then writesOf clientSections else []) ++
        readLock .endpoints ++
        scope .read .endpoints (scope .read .rateLimiters
          (List.replicate added (readLock .timeoutSecs)).flatten) ++
        writesOf publishSections ++ readLock .endpoints
  | .checkBatchSize => readLock .maxBatchSize
  | .readHealthCheckInterval => readLock .healthCheckIntervalSecs
  | .updateCooldownGauges => readLock .endpoints ++ readLock .endpoints

/-- The call writes the endpoint list. -/
def LockCall.writesEndpoints (c : LockCall) : Prop := .acquire .write .endpoints ∈ c.trace

instance (c : LockCall) : Decidable c.writesEndpoints :=
  inferInstanceAs (Decidable (_ ∈ c.trace))

/-- The concurrent calls before any of them has started. -/
def lockStart (calls : List LockCall) : State (Fin calls.length) LockName where
  threads i := ⟨(calls.get i).trace, [], none⟩

/-- No interleaving of the calls reaches a state in which all unfinished calls wait, or in which calls
wait for one another in a cycle. -/
def DeadlockFree (calls : List LockCall) : Prop :=
  ∀ s, Reachable (lockStart calls) s → ¬ s.Stuck ∧ ¬ s.Cyclic

/-! ## The discipline of the calls -/

section discipline

variable {W : LockName → Prop} {held : List (Mode × LockName)}

/-- A short read. -/
theorem balanced_readLock {l : LockName} (hl : W l → ∀ h ∈ held, W h.2 → h.2.rank < l.rank) :
    Balanced W LockName.rank held (readLock l) :=
  balanced_scope (fun h => nomatch h) hl balanced_nil

/-- A short write. -/
theorem balanced_writeLock {l : LockName} (hw : W l) (hl : ∀ h ∈ held, W h.2 → h.2.rank < l.rank) :
    Balanced W LockName.rank held (writeLock l) :=
  balanced_scope (fun _ => hw) (fun _ => hl) balanced_nil

/-- Short reads, one after the other. -/
theorem balanced_readLocks {α : Type} {lock : α → LockName} {as : List α}
    (hl : ∀ a ∈ as, W (lock a) → ∀ h ∈ held, W h.2 → h.2.rank < (lock a).rank) :
    Balanced W LockName.rank held (as.map fun a => readLock (lock a)).flatten := by
  refine balanced_flatten fun events he => ?_
  obtain ⟨a, ha, rfl⟩ := List.mem_map.mp he
  exact balanced_readLock (hl a ha)

/-- The writes of some sections of a reload. -/
theorem balanced_writesOf {secs : List ReloadSection} (hw : ∀ l, W l) :
    Balanced W LockName.rank [] (writesOf secs) := by
  refine balanced_flatten fun events he => ?_
  obtain ⟨l, -, rfl⟩ := List.mem_map.mp he
  exact balanced_writeLock (hw l) (by simp)

/-- The same short read, any number of times. -/
theorem balanced_replicate_readLock {l : LockName} (n : ℕ)
    (hl : W l → ∀ h ∈ held, W h.2 → h.2.rank < l.rank) :
    Balanced W LockName.rank held (List.replicate n (readLock l)).flatten := by
  refine balanced_flatten fun events he => ?_
  rw [List.eq_of_mem_replicate he]
  exact balanced_readLock hl

end discipline

/-- **Every call but `get_status` acquires locks by increasing rank.** -/
theorem balanced_trace {c : LockCall} (hc : c ≠ .getStatus) :
    Balanced (fun _ => True) LockName.rank [] c.trace := by
  have hbounds : Balanced (fun _ => True) LockName.rank [(.write, .endpoints)] cooldownBoundsTrace :=
    balanced_scope (by simp) (by decide) (balanced_readLock (by decide))
  cases c with
  | getStatus => exact absurd rfl hc
  | getNextEndpoint =>
      exact balanced_scope (by simp) (by simp) (balanced_readLock (by decide))
  | updateMetrics found timedOut =>
      refine balanced_scope (by simp) (by simp) ?_
      cases found with
      | false => exact balanced_nil
      | true =>
          refine (balanced_readLock (by decide)).append ?_
          cases timedOut with
          | false => exact balanced_nil
          | true => exact balanced_readLock (by decide)
  | markUnhealthy tripped =>
      refine balanced_scope (by simp) (by simp) ?_
      cases tripped with
      | false => exact balanced_nil
      | true => exact hbounds
  | markRateLimited found =>
      refine balanced_scope (by simp) (by simp) ?_
      cases found with
      | false => exact balanced_nil
      | true => exact hbounds
  | performHealthChecks probed failed =>
      refine ((((balanced_readLock (by simp)).append (balanced_readLock (by simp))).append
        (balanced_replicate_readLock probed (by simp))).append ?_).append (balanced_readLock (by simp))
      refine balanced_scope (by simp) (by simp) ?_
      exact ((balanced_readLock (by decide)).append (balanced_readLock (by decide))).append
        (balanced_replicate_readLock failed (by decide))
  | reload changed added =>
      have hreplace : Balanced (fun _ => True) LockName.rank []
          (if changed.isSome then writesOf clientSections else []) := by
        split
        · exact balanced_writesOf (by simp)
        · exact balanced_nil
      have hmerge : Balanced (fun _ => True) LockName.rank []
          (scope .read .endpoints (scope .read .rateLimiters
            (List.replicate added (readLock .timeoutSecs)).flatten)) := by
        refine balanced_scope (by simp) (by simp) (balanced_scope (by simp) (by decide) ?_)
        exact balanced_replicate_readLock added (by decide)
      exact ((((((balanced_readLock (by simp)).append (balanced_readLocks (by simp))).append
        hreplace).append (balanced_readLock (by simp))).append hmerge).append
          (balanced_writesOf (by simp))).append (balanced_readLock (by simp))
  | updateCooldownGauges => exact (balanced_readLock (by simp)).append (balanced_readLock (by simp))
  | _ => exact balanced_readLock (by simp)

/-- A call that does not write the endpoint list writes nothing, so it keeps the discipline of no
written lock at all. -/
theorem balanced_of_not_writesEndpoints {c : LockCall} (hc : ¬ c.writesEndpoints) :
    Balanced (fun _ => False) LockName.rank [] c.trace := by
  have hread : ∀ {held : List (Mode × LockName)} (l : LockName),
      Balanced (fun _ => False) LockName.rank held (readLock l) :=
    fun l => balanced_readLock fun h => h.elim
  cases c with
  | getStatus =>
      refine balanced_scope (fun h => nomatch h) (fun h => h.elim) ?_
      exact (balanced_readLocks (by simp)).append (hread _)
  | getNextEndpoint => exact balanced_scope (fun h => nomatch h) (fun h => h.elim) (hread _)
  | updateMetrics found timedOut =>
      refine balanced_scope (fun h => nomatch h) (fun h => h.elim) ?_
      cases found with
      | false => exact balanced_nil
      | true =>
          refine (hread _).append ?_
          cases timedOut with
          | false => exact balanced_nil
          | true => exact hread _
  | markUnhealthy tripped => exact absurd (by simp [LockCall.writesEndpoints, LockCall.trace, scope]) hc
  | markRateLimited found => exact absurd (by simp [LockCall.writesEndpoints, LockCall.trace, scope]) hc
  | performHealthChecks probed failed =>
      exact absurd (by simp [LockCall.writesEndpoints, LockCall.trace, scope]) hc
  | reload changed added =>
      refine absurd ?_ hc
      have hmem : .acquire .write .endpoints ∈ writesOf publishSections := by decide
      simp [LockCall.writesEndpoints, LockCall.trace, hmem]
  | updateCooldownGauges => exact (hread _).append (hread _)
  | _ => exact hread _

/-! ## The deadlock of `get_status` -/

/-- What `get_status` does before it calls `get_endpoint_priority_stats`. -/
def statusPrefix : List (LockEvent LockName) :=
  .acquire .read .endpoints :: (statusSettings.map readLock).flatten

/-- The second read of the endpoint list, and the end of `get_status`. -/
theorem trace_getStatus : LockCall.getStatus.trace =
    statusPrefix ++ [.acquire .read .endpoints, .release .endpoints, .release .endpoints] := rfl

/-- `get_status` before its second read of the endpoint list. -/
def statusThread : Thread LockName :=
  ⟨[.acquire .read .endpoints, .release .endpoints, .release .endpoints], [(.read, .endpoints)], none⟩

/-- A call that has not begun. -/
def LockCall.thread (c : LockCall) : Thread LockName := ⟨c.trace, [], none⟩

/-- A writer of the endpoint list is not `get_status`. -/
theorem ne_getStatus_of_writesEndpoints {c : LockCall} (hc : c.writesEndpoints) : c ≠ .getStatus := by
  rintro rfl
  revert hc
  decide

section deadlock

variable {calls : List LockCall} {i j : Fin calls.length} {s : State (Fin calls.length) LockName}
  {pre post : List (LockEvent LockName)}

/-- `get_status` gets to its second read, if no other call has begun. -/
theorem reachable_statusThread (hi : calls.get i = .getStatus) :
    Reachable (lockStart calls) ((lockStart calls).set i statusThread) := by
  have hstart : ∀ k, (lockStart calls).threads k = (calls.get k).thread := fun _ => rfl
  have hsafe := (balanced_of_not_writesEndpoints (c := .getStatus) (by decide)).safe
  rw [trace_getStatus] at hsafe
  refine run_prefix (i := i) _ statusPrefix ?_ (disciplined_start hsafe) ?_ ?_
  · rw [hstart, hi, LockCall.thread, trace_getStatus]
  · intro k _
    exact ⟨fun l hl => by simp [hstart, LockCall.thread] at hl, rfl⟩
  · rintro k _ l _ ⟨m, hm⟩
    simp [hstart, LockCall.thread] at hm

/-- A writer of the endpoint list then gets to its first write of it: before that it writes nothing that
`get_status` holds. -/
theorem reachable_beforeWrite (hs : s.threads i = statusThread)
    (hothers : ∀ k, k ≠ i → s.threads k = (calls.get k).thread) (hne : j ≠ i)
    (hc : calls.get j ≠ .getStatus)
    (htrace : (calls.get j).trace = pre ++ .acquire .write .endpoints :: post)
    (hpre : .acquire .write .endpoints ∉ pre) :
    Reachable s (s.set j ⟨.acquire .write .endpoints :: post, heldAfter [] pre, none⟩) := by
  have hsafe := (balanced_trace hc).safe
  rw [htrace] at hsafe
  refine run_prefix (i := j) _ pre ?_ (disciplined_start hsafe) ?_ ?_
  · rw [hothers j hne, LockCall.thread, htrace]
  · intro k _
    by_cases hki : k = i
    · subst hki
      rw [hs]
      simp [statusThread]
    · rw [hothers k hki]
      simp [LockCall.thread]
  · rintro k _ l hl ⟨m, hm⟩
    by_cases hki : k = i
    · subst hki
      rw [hs] at hm
      simp only [statusThread, List.mem_singleton, Prod.mk.injEq] at hm
      exact hpre (hm.2 ▸ hl)
    · rw [hothers k hki] at hm
      simp [LockCall.thread] at hm

/-- There its write is refused and queued, and then the second read of `get_status` is refused too. -/
theorem waits_of_beforeWrite (hi : s.threads i = statusThread)
    (hj : s.threads j = ⟨.acquire .write .endpoints :: post, heldAfter [] pre, none⟩) (hne : j ≠ i) :
    ∃ s', Step s s' ∧ s'.Waits i .endpoints ∧ s'.Waits j .endpoints ∧ s'.WaitsFor i j ∧
      s'.WaitsFor j i := by
  have hrefused : ¬ s.Grants .write .endpoints := by
    intro hg
    exact hg i ⟨.read, by rw [hi]; exact List.mem_singleton_self _⟩
  have hstep := Step.queue (s := s) j .endpoints post (by rw [hj]) (by rw [hj]) hrefused
  generalize hs' : ({ s.set j _ with clock := s.clock + 1 } : State _ _) = s' at hstep
  have hi' : s'.threads i = statusThread := by
    rw [← hs']
    exact (State.set_threads_of_ne _ (Ne.symm hne) _).trans hi
  have hj' : s'.threads j = ⟨.acquire .write .endpoints :: post, heldAfter [] pre, some s.clock⟩ := by
    rw [← hs']
    refine (State.set_threads_self s j _).trans ?_
    rw [hj]
  have hholds : (s'.threads i).Holds .endpoints :=
    ⟨.read, by rw [hi']; exact List.mem_singleton_self _⟩
  have hqueued : (s'.threads j).Queued .endpoints := by
    rw [hj']
    exact ⟨rfl, rfl⟩
  have hwi : s'.Waits i .endpoints := ⟨.read, _, by rw [hi']; rfl, fun hg => (hg j).2 hqueued⟩
  have hwj : s'.Waits j .endpoints := ⟨.write, post, by rw [hj'], fun hg => hg i hholds⟩
  refine ⟨s', hstep, hwi, hwj, ⟨.endpoints, hwi, Or.inr ⟨hqueued, ?_⟩⟩,
    ⟨.endpoints, hwj, Or.inl hholds⟩⟩
  intro t ht
  rw [hi'] at ht
  cases ht

/-- **`get_status` and a writer of the endpoint list wait for each other** in a reachable state:
`get_status` runs until its second read, the writer until its write, which is refused and queued.
Source: `balancer.rs` `get_status`, `get_endpoint_priority_stats` -/
theorem waits_of_getStatus (calls : List LockCall) {i j : Fin calls.length}
    (hi : calls.get i = .getStatus) (hj : (calls.get j).writesEndpoints) :
    ∃ s, Reachable (lockStart calls) s ∧ s.Waits i .endpoints ∧ s.Waits j .endpoints ∧
      s.WaitsFor i j ∧ s.WaitsFor j i := by
  have hc := ne_getStatus_of_writesEndpoints hj
  have hne : j ≠ i := by
    rintro rfl
    exact hc hi
  obtain ⟨pre, post, htrace, hpre⟩ := List.eq_append_cons_of_mem hj
  have hrun₁ := reachable_statusThread hi
  generalize hs₁ : (lockStart calls).set i _ = s₁ at hrun₁
  have hi₁ : s₁.threads i = statusThread := by rw [← hs₁, State.set_threads_self]
  have hothers : ∀ k, k ≠ i → s₁.threads k = (calls.get k).thread := by
    intro k hk
    rw [← hs₁, State.set_threads_of_ne _ hk]
    rfl
  have hrun₂ := reachable_beforeWrite hi₁ hothers hne hc htrace hpre
  obtain ⟨s₃, hstep, hwaits⟩ := waits_of_beforeWrite
    ((State.set_threads_of_ne s₁ (Ne.symm hne) _).trans hi₁) (State.set_threads_self s₁ j _) hne
  exact ⟨s₃, (hrun₁.trans hrun₂).tail hstep, hwaits⟩

end deadlock

/-- So they wait for each other in a cycle. -/
theorem cyclic_of_getStatus {calls : List LockCall} (hstatus : .getStatus ∈ calls)
    (hwriter : ∃ c ∈ calls, c.writesEndpoints) :
    ∃ s, Reachable (lockStart calls) s ∧ s.Cyclic := by
  obtain ⟨i, hi⟩ := List.get_of_mem hstatus
  obtain ⟨c, hc, hwrites⟩ := hwriter
  obtain ⟨j, rfl⟩ := List.get_of_mem hc
  obtain ⟨s, hs, -, -, hij, hji⟩ := waits_of_getStatus calls hi hwrites
  exact ⟨s, hs, i, .tail (.single hij) hji⟩

/-- And if nobody else is about, all unfinished calls wait. -/
theorem stuck_of_getStatus {c : LockCall} (hwrites : c.writesEndpoints) :
    ∃ s, Reachable (lockStart [.getStatus, c]) s ∧ s.Stuck := by
  obtain ⟨s, hs, hwi, hwj, -, -⟩ :=
    waits_of_getStatus [.getStatus, c] (i := 0) (j := 1) rfl hwrites
  refine ⟨s, hs, ⟨0, ?_⟩, fun k _ => ?_⟩
  · obtain ⟨m, rest, hrest, -⟩ := hwi
    rw [hrest]
    exact List.cons_ne_nil _ _
  · match k with
    | 0 => exact ⟨_, hwi⟩
    | 1 => exact ⟨_, hwj⟩

/-- **When calls cannot deadlock**: exactly if they do not include both `get_status` and a call that
writes the endpoint list (`mark_unhealthy`, `mark_rate_limited`, a health round, a reload).
Source: `balancer.rs` `get_status` -/
theorem deadlockFree_iff (calls : List LockCall) :
    DeadlockFree calls ↔ ¬ (.getStatus ∈ calls ∧ ∃ c ∈ calls, c.writesEndpoints) := by
  constructor
  · rintro hfree ⟨hstatus, hwriter⟩
    obtain ⟨s, hs, hcyclic⟩ := cyclic_of_getStatus hstatus hwriter
    exact (hfree s hs).2 hcyclic
  · intro hnot s hs
    by_cases hstatus : .getStatus ∈ calls
    · -- nobody writes any lock
      have hdisc : ∀ i, ((lockStart calls).threads i).Disciplined (fun _ => False) LockName.rank := by
        intro i
        refine disciplined_start (balanced_of_not_writesEndpoints fun hw => ?_).safe
        exact hnot ⟨hstatus, _, List.get_mem calls i, hw⟩
      exact deadlock_free hdisc hs
    · have hdisc : ∀ i, ((lockStart calls).threads i).Disciplined (fun _ => True) LockName.rank := by
        intro i
        refine disciplined_start (balanced_trace fun heq => ?_).safe
        exact hstatus (heq ▸ List.get_mem calls i)
      exact deadlock_free hdisc hs

/-- **A deadlock.** A `/status` request and a failed upstream request at the same time.
Source: `balancer.rs` `get_status`, `mark_unhealthy` -/
theorem status_deadlock : ¬ ∀ calls : List LockCall, DeadlockFree calls := by
  intro h
  obtain ⟨s, hs, hstuck⟩ := stuck_of_getStatus (c := .markUnhealthy true) (by decide)
  exact (h _ s hs).1 hstuck

end AzothBalancer
