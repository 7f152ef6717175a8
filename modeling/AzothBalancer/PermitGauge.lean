import AzothBalancer.RegistryFrame
import AzothBalancer.TokenLedger
import Mathlib.Algebra.Order.BigOperators.Group.List

/-!
# The concurrency gauge

`handle_rpc` keeps two objects for the time of a call: a guard, whose creation and drop move the gauge
`CONCURRENCY_ACTIVE_PERMITS`, and a permit of the concurrency semaphore. The guard is the first thing
a call creates and the last it drops; the permit is acquired after the checks on the bytes, and a call
may have to wait for it.

The calls are machines (`PermitCall.advance`) with one step for each of these points: the guard, the
checks, the permit, the drop of the permit and the drop of the guard; a call may also be given up
while it waits. A permit is handed out while one is free (`PermitSystem.free`).

* `PermitSystem.Balanced` — the gauge counts the calls with a guard, and no more permits are held than
  there are;
* `permit_gauge_iff` — the gauge shows the permits held exactly while the calls at work do not outnumber
  the permits;
* `exists_permitRun` — the concurrent requests of `RpcSystem`, under a semaphore, run these machines.
-/

namespace AzothBalancer

open JsonText (Json)

variable {M : Meter}

/-! ## Calls -/

/-- Where a call stands with its guard and its permit.
Source: `main.rs` `handle_rpc` -/
inductive PermitPhase where
  /-- The handler has not been entered. -/
  | requested
  /-- The guard exists. -/
  | arrived
  /-- The checks on the bytes are passed. -/
  | waiting
  | holding
  /-- The permit is dropped, the guard is not. -/
  | released
  | finished
  deriving DecidableEq, Repr

/-- A request and where its call stands. -/
structure PermitCall where
  body : List UInt8
  phase : PermitPhase := .requested

/-- A step of a call. -/
inductive PermitMove where
  | arrive
  /-- The checks on the bytes, under this `max_batch_size`. -/
  | check (maxBatchSize : ℕ)
  | acquire
  /-- The call ends while it waits. -/
  | abandon
  /-- The handler returns and drops the permit. -/
  | release
  /-- The guard is dropped. -/
  | leave
  deriving DecidableEq, Repr

/-- One step of a call: by how much the gauge moves, and the call afterwards. `free`: a permit can be
handed out. A move that does not fit the phase does nothing.
Source: `main.rs` `ConcurrencyGuard`, `handle_rpc` -/
def PermitCall.advance (free : Bool) (call : PermitCall) (move : PermitMove) : ℤ × PermitCall :=
  match call.phase, move with
  | .requested, .arrive => (1, { call with phase := .arrived })
  | .arrived, .check maxBatchSize =>
      match checkRaw maxBatchSize call.body with
      -- a refused request returns, and its guard with it
      | some _ => (-1, { call with phase := .finished })
      | none => (0, { call with phase := .waiting })
  | .waiting, .acquire => if free then (0, { call with phase := .holding }) else (0, call)
  | .waiting, .abandon => (-1, { call with phase := .finished })
  | .holding, .release => (0, { call with phase := .released })
  | .released, .leave => (-1, { call with phase := .finished })
  | _, _ => (0, call)

/-- The call has been entered and has not ended. -/
def PermitCall.unfinished (call : PermitCall) : Bool :=
  call.phase ≠ .requested && call.phase ≠ .finished

/-- The call holds a permit. -/
def PermitCall.holds (call : PermitCall) : Bool := call.phase = .holding

/-! ## The system -/

/-- The number of permits, the gauge and the calls. -/
structure PermitSystem where
  maxConcurrency : ℕ
  gauge : ℤ
  calls : List PermitCall

/-- The requests are about to arrive. -/
def PermitSystem.start (maxConcurrency : ℕ) (bodies : List (List UInt8)) : PermitSystem :=
  ⟨maxConcurrency, 0, bodies.map fun body => { body := body }⟩

/-- The number of calls that have been entered and have not ended. -/
def PermitSystem.unfinished (s : PermitSystem) : ℕ :=
  (s.calls.map fun call => call.unfinished.toNat).sum

/-- The number of permits held. -/
def PermitSystem.held (s : PermitSystem) : ℕ := (s.calls.map fun call => call.holds.toNat).sum

/-- A permit can be handed out. -/
def PermitSystem.free (s : PermitSystem) : Bool := s.held < s.maxConcurrency

/-- The call is queued in the semaphore: it waits, and no permit is free. -/
def PermitSystem.Queued (s : PermitSystem) (call : PermitCall) : Prop :=
  call.phase = .waiting ∧ s.free = false

instance (s : PermitSystem) (call : PermitCall) : Decidable (s.Queued call) :=
  inferInstanceAs (Decidable (_ ∧ _))

/-- One step of the call at a position. -/
def PermitSystem.step (s : PermitSystem) (e : ℕ × PermitMove) : PermitSystem :=
  match s.calls[e.1]? with
  | none => s
  | some call =>
      { s with
        gauge := s.gauge + (call.advance s.free e.2).1
        calls := s.calls.set e.1 (call.advance s.free e.2).2 }

/-- The state after an interleaving. -/
def PermitSystem.run (s : PermitSystem) (events : List (ℕ × PermitMove)) : PermitSystem :=
  Runs.run PermitSystem.step s events

/-- Every unfinished call holds a permit or is queued for one. -/
def PermitSystem.Settled (s : PermitSystem) : Prop :=
  ∀ call ∈ s.calls, call.unfinished → call.holds ∨ s.Queued call

instance (s : PermitSystem) : Decidable s.Settled :=
  inferInstanceAs (Decidable (∀ call ∈ s.calls, _))

/-! ## What the gauge counts -/

/-- What a step does to the gauge it does to the call: the guard is counted as long as the call is
unfinished. -/
theorem unfinished_advance (free : Bool) (call : PermitCall) (move : PermitMove) :
    (call.unfinished.toNat : ℤ) + (call.advance free move).1 =
      (call.advance free move).2.unfinished.toNat := by
  obtain ⟨body, phase⟩ := call
  cases phase <;> cases move <;> simp [PermitCall.advance, PermitCall.unfinished]
  · rename_i maxBatchSize
    rcases Option.eq_none_or_eq_some (checkRaw maxBatchSize body) with hraw | ⟨a, hraw⟩ <;> simp [hraw]
  · cases free <;> simp

/-- A step takes a permit only if one is free. -/
theorem holds_advance (free : Bool) (call : PermitCall) (move : PermitMove) :
    (call.advance free move).2.holds → call.holds ∨ free := by
  obtain ⟨body, phase⟩ := call
  cases phase <;> cases move <;> simp [PermitCall.advance, PermitCall.holds]
  · rename_i maxBatchSize
    rcases Option.eq_none_or_eq_some (checkRaw maxBatchSize body) with hraw | ⟨a, hraw⟩ <;> simp [hraw]
  · cases free <;> simp

/-- The gauge counts the calls with a guard, and no more permits are held than there are. -/
structure PermitSystem.Balanced (s : PermitSystem) : Prop where
  gauge : s.gauge = s.unfinished
  held : s.held ≤ s.maxConcurrency

/-- Nothing has been counted yet. -/
theorem PermitSystem.balanced_start (maxConcurrency : ℕ) (bodies : List (List UInt8)) :
    (PermitSystem.start maxConcurrency bodies).Balanced where
  gauge := by
    simp [start, unfinished, PermitCall.unfinished, Function.comp_def]
  held := by
    simp [start, held, PermitCall.holds, Function.comp_def]

/-- **Every step keeps the balance.** -/
theorem PermitSystem.Balanced.step {s : PermitSystem} (h : s.Balanced) (e : ℕ × PermitMove) :
    (s.step e).Balanced := by
  unfold PermitSystem.step
  cases hc : s.calls[e.1]? with
  | none => exact h
  | some call =>
      have hunf := Runs.sum_map_set (b := (call.advance s.free e.2).2)
        (fun call => call.unfinished.toNat) hc
      have hheld := Runs.sum_map_set (b := (call.advance s.free e.2).2)
        (fun call => call.holds.toNat) hc
      have hadv := unfinished_advance s.free call e.2
      have htake := holds_advance s.free call e.2
      have hgauge := h.gauge
      have hle := h.held
      constructor
      · show s.gauge + _ = ((s.calls.set e.1 _).map fun call => call.unfinished.toNat).sum
        unfold PermitSystem.unfinished at hgauge
        omega
      · show ((s.calls.set e.1 _).map fun call => call.holds.toNat).sum ≤ s.maxConcurrency
        unfold PermitSystem.held at hle
        cases hnew : (call.advance s.free e.2).2.holds with
        | false =>
            rw [hnew] at hheld
            simp only [Bool.toNat_false] at hheld
            omega
        | true =>
            rw [hnew] at hheld
            rcases htake hnew with hold | hfree
            · rw [hold] at hheld
              omega
            · unfold PermitSystem.free PermitSystem.held at hfree
              simp only [decide_eq_true_eq, Bool.toNat_true] at hfree hheld
              omega

/-- Every run keeps the balance and the number of permits. -/
theorem PermitSystem.balanced_run {s : PermitSystem} (h : s.Balanced)
    (events : List (ℕ × PermitMove)) :
    (s.run events).Balanced ∧ (s.run events).maxConcurrency = s.maxConcurrency := by
  unfold run
  refine Runs.invariant (fun t : PermitSystem => t.Balanced ∧ t.maxConcurrency = s.maxConcurrency)
    (fun _ => True) ?_ (fun _ _ => trivial) ⟨h, rfl⟩
  intro t e _ ht
  refine ⟨ht.1.step e, ?_⟩
  rw [← ht.2]
  unfold PermitSystem.step
  split <;> rfl

/-- Permits are held by unfinished calls. -/
theorem PermitSystem.held_le_unfinished (s : PermitSystem) : s.held ≤ s.unfinished := by
  unfold held unfinished
  apply List.sum_le_sum
  intro call _
  obtain ⟨body, phase⟩ := call
  cases phase <;> simp [PermitCall.holds, PermitCall.unfinished]

/-- Where the unfinished calls do not all hold a permit, one of them does not. -/
theorem PermitSystem.exists_not_holds {s : PermitSystem} (h : s.held < s.unfinished) :
    ∃ call ∈ s.calls, call.unfinished ∧ call.holds = false := by
  by_contra hno
  push Not at hno
  apply absurd h
  apply not_lt_of_ge
  unfold held unfinished
  apply List.sum_le_sum
  intro call hcall
  cases hu : call.unfinished with
  | false => simp
  | true =>
      have hh : call.holds = true := by simpa using hno call hcall hu
      rw [hh]

/-- **Exactly when the gauge shows the permits held**: in every reachable state in which each
unfinished call holds a permit or is queued for one, the gauge equals the number of permits held, and
does not exceed `max_concurrency`, if and only if there are no more unfinished calls than permits.
Source: `main.rs` `ConcurrencyGuard`, `handle_rpc` -/
theorem permit_gauge_iff (maxConcurrency : ℕ) (bodies : List (List UInt8))
    (events : List (ℕ × PermitMove))
    (h : ((PermitSystem.start maxConcurrency bodies).run events).Settled) :
    let s := (PermitSystem.start maxConcurrency bodies).run events
    (s.gauge = s.held ∧ s.gauge ≤ maxConcurrency) ↔ s.unfinished ≤ maxConcurrency := by
  intro s
  obtain ⟨hbal, hmax⟩ := PermitSystem.balanced_run
    (PermitSystem.balanced_start maxConcurrency bodies) events
  have hgauge : s.gauge = s.unfinished := hbal.gauge
  have hmax : s.maxConcurrency = maxConcurrency := hmax
  have hle := s.held_le_unfinished
  constructor
  · rintro ⟨-, hbound⟩
    omega
  · intro hfew
    have hall : s.unfinished ≤ s.held := by
      by_contra hlt
      obtain ⟨call, hcall, hu, hh⟩ := PermitSystem.exists_not_holds (not_le.mp hlt)
      -- a queued call means that every permit is held
      rcases h call hcall hu with hold | ⟨-, hfull⟩
      · rw [hh] at hold
        cases hold
      · unfold PermitSystem.free at hfull
        simp only [decide_eq_false_iff_not, not_lt] at hfull
        change s.maxConcurrency ≤ s.held at hfull
        omega
    omega

/-- Two requests and one permit: the first has it, the second is queued, and the gauge shows two. -/
theorem gauge_counts_queued :
    ¬ ∀ (maxConcurrency : ℕ) (bodies : List (List UInt8)) (events : List (ℕ × PermitMove)),
      ((PermitSystem.start maxConcurrency bodies).run events).Settled →
        ((PermitSystem.start maxConcurrency bodies).run events).gauge =
          ((PermitSystem.start maxConcurrency bodies).run events).held := by
  intro h
  have hgauge := h 1 [[], []]
    [(0, .arrive), (0, .check 1), (0, .acquire), (1, .arrive), (1, .check 1)] (by decide)
  exact absurd hgauge (by decide)

/-- `permit_gauge_iff` with one request at work, and with a second one queued. -/
theorem permit_gauge_iff_sample :
    let events : List (ℕ × PermitMove) := [(0, .arrive), (0, .check 1), (0, .acquire)]
    let s := (PermitSystem.start 1 [[], []]).run events
    let t := (PermitSystem.start 1 [[], []]).run (events ++ [(1, .arrive), (1, .check 1)])
    (s.gauge = s.held ∧ s.gauge ≤ 1) ∧ ¬ (t.gauge = t.held ∧ t.gauge ≤ 1) := by
  intro events s t
  refine ⟨(permit_gauge_iff 1 [[], []] events (by decide)).mpr (by decide), fun ht => ?_⟩
  have hfew := (permit_gauge_iff 1 [[], []] (events ++ [(1, .arrive), (1, .check 1)])
    (by decide)).mp ht
  exact absurd hfew (by decide)

/-! ## The concurrent requests run these machines -/

/-- Where a request stands with its guard and its permit. -/
def RpcPhase.permitPhase : RpcPhase → PermitPhase
  | .received => .requested
  | .waiting => .waiting
  | .permitted | .parsed _ | .checked _ | .selecting .. | .trying .. | .reserved .. | .handed .. =>
      .holding
  | .answered _ | .returned _ => .finished

/-- A call, by its guard and its permit. -/
def RpcCall.permitCall (call : RpcCall) : PermitCall := ⟨call.body, call.phase.permitPhase⟩

/-- The concurrent requests, by their guards and permits. -/
def RpcSystem.permits (s : RpcSystem M) : PermitSystem where
  maxConcurrency := s.world.lb.concurrencyLimiter
  gauge := s.world.prom.value .concurrencyActivePermits []
  calls := s.calls.map RpcCall.permitCall

/-- The semaphore lets a step happen: a permit is handed out only while one is free. -/
def RpcSystem.Admits (s : RpcSystem M) : RpcEvent → Prop
  | .call _ (.acquire false) => s.permits.free = true
  | _ => True

/-- What at most two steps of one call do: by how much the gauge moves, and the call afterwards. -/
inductive PermitPath (free : Bool) (c : PermitCall) : ℤ → PermitCall → Prop where
  | stay : PermitPath free c 0 c
  | one {δ : ℤ} {c' : PermitCall} (m : PermitMove) : c.advance free m = (δ, c') →
      PermitPath free c δ c'
  | two {δ δ' : ℤ} {d c' : PermitCall} (m m' : PermitMove) : c.advance free m = (δ, d) →
      (∀ free', d.advance free' m' = (δ', c')) → PermitPath free c (δ + δ') c'

/-- A call's steps, as steps of the system. -/
theorem PermitPath.exists_run {t : PermitSystem} {i : ℕ} {c c' : PermitCall} {δ : ℤ}
    (h : PermitPath t.free c δ c') (hc : t.calls[i]? = some c) :
    ∃ events, t.run events = { t with gauge := t.gauge + δ, calls := t.calls.set i c' } := by
  have hstep : ∀ {t : PermitSystem} {c : PermitCall} (m : PermitMove), t.calls[i]? = some c →
      t.step (i, m) =
        { t with
          gauge := t.gauge + (c.advance t.free m).1
          calls := t.calls.set i (c.advance t.free m).2 } := by
    intro t c m hc
    unfold PermitSystem.step
    rw [hc]
  obtain ⟨hi, hget⟩ := List.getElem?_eq_some_iff.mp hc
  cases h with
  | stay =>
      refine ⟨[], ?_⟩
      rw [← hget, List.set_getElem_self, add_zero]
      rfl
  | one m hm =>
      refine ⟨[(i, m)], ?_⟩
      show t.step (i, m) = _
      rw [hstep m hc, hm]
  | @two δ δ' d _ m m' hm hm' =>
      refine ⟨[(i, m), (i, m')], ?_⟩
      show (t.step (i, m)).step (i, m') = _
      have hd : (t.calls.set i d)[i]? = some d := List.getElem?_set_self hi
      rw [hstep m hc, hm, hstep m' hd, hm', List.set_set, add_assoc]

/-- What the answer to a request does to the gauge. -/
theorem value_answer (call : RpcCall) (w : World M) (a : RpcAnswer) :
    (call.answer w a).1.prom.value .concurrencyActivePermits [] =
      w.prom.value .concurrencyActivePermits [] - 1 := by
  unfold RpcCall.answer
  rw [Registry.value_incBy, if_pos ⟨rfl, rfl⟩]
  cases a <;> simp [countAnswer, Int.sub_eq_add_neg]

/-- What a step of a request makes of the gauge and of its guard and permit, the machine can do too. -/
def RpcCall.PermitStep (free : Bool) (w : World M) (call : RpcCall) (after : World M × RpcCall) :
    Prop :=
  ∃ δ, after.1.prom.value .concurrencyActivePermits [] =
      w.prom.value .concurrencyActivePermits [] + δ ∧
    PermitPath free call.permitCall δ after.2.permitCall

section permitStep

variable {free : Bool} {w w' : World M} {body : List UInt8} {phase phase' : RpcPhase}

/-- A step that neither takes nor gives back. -/
theorem RpcCall.PermitStep.stay (hphase : phase'.permitPhase = phase.permitPhase)
    (hw' : w'.prom.value .concurrencyActivePermits [] = w.prom.value .concurrencyActivePermits []) :
    RpcCall.PermitStep free w ⟨body, phase⟩ (w', ⟨body, phase'⟩) := by
  refine ⟨0, by rw [hw', add_zero], ?_⟩
  unfold permitCall
  rw [hphase]
  exact PermitPath.stay

/-- A move that does not fit the phase. -/
theorem RpcCall.PermitStep.idle (call : RpcCall) : call.PermitStep free w (w, call) :=
  RpcCall.PermitStep.stay rfl rfl

/-- An answer while the permit is held drops the permit and then the guard. -/
theorem RpcCall.PermitStep.answer (a : RpcAnswer) (hphase : phase.permitPhase = .holding)
    (hw' : w'.prom.value .concurrencyActivePermits [] = w.prom.value .concurrencyActivePermits []) :
    RpcCall.PermitStep free w ⟨body, phase⟩ (RpcCall.answer ⟨body, phase⟩ w' a) := by
  refine ⟨0 + -1, ?_, .two (d := ⟨body, .released⟩) .release .leave ?_ fun _ => rfl⟩
  · rw [value_answer, hw', zero_add, Int.sub_eq_add_neg]
  · simp [PermitCall.advance, permitCall, hphase]

/-- The guard and the checks on the bytes: the call waits, or it has left again.
Source: `main.rs` `handle_rpc`, "Pre-emptive Validation" -/
theorem RpcCall.permitStep_received (fromSlice : List UInt8 → Except String Json) :
    RpcCall.PermitStep free w ⟨body, .received⟩
      (RpcCall.advance fromSlice w ⟨body, .received⟩ .proceed) := by
  simp only [advance]
  split
  · rename_i a hraw
    refine ⟨1 + -1, ?_, .two (d := ⟨body, .arrived⟩) .arrive (.check w.lb.maxBatchSize) rfl ?_⟩
    · rw [value_answer]
      simp
    · intro free'
      simp only [PermitCall.advance, hraw]
      rfl
  · rename_i hraw
    refine ⟨1 + 0, ?_, .two (d := ⟨body, .arrived⟩) .arrive (.check w.lb.maxBatchSize) rfl ?_⟩
    · simp
    · intro free'
      simp only [PermitCall.advance, hraw]
      rfl

/-- The semaphore: a permit, if one is free, or an answer once it is closed. -/
theorem RpcCall.permitStep_acquire (fromSlice : List UInt8 → Except String Json) {closed : Bool}
    (hfree : closed = false → free = true) :
    RpcCall.PermitStep free w ⟨body, .waiting⟩
      (RpcCall.advance fromSlice w ⟨body, .waiting⟩ (.acquire closed)) := by
  simp only [advance]
  split
  · refine ⟨-1, ?_, .one .abandon rfl⟩
    rw [value_answer, Int.sub_eq_add_neg]
  · rename_i hopen
    have hf : free = true := hfree (by simpa using hopen)
    subst hf
    exact ⟨0, (add_zero _).symm, .one .acquire rfl⟩

/-- A reservation writes other families only.
Source: `strategy.rs` `select_best_endpoint` -/
theorem RpcCall.permitStep_reserve (fromSlice : List UInt8 → Except String Json) (p : Payload)
    (rank : ℕ) (endpoint : RpcEndpoint) (rest : List RpcEndpoint) (tiers : List (List RpcEndpoint))
    (now : Instant) :
    RpcCall.PermitStep free w ⟨body, .trying p rank (endpoint :: rest) tiers⟩
      (RpcCall.advance fromSlice w ⟨body, .trying p rank (endpoint :: rest) tiers⟩ (.reserve now)) := by
  have hprom := reserveTokens_prom w endpoint.url p.batchSize now
  simp only [advance]
  split
  · rename_i w' hw'
    have hsame : w'.prom = w.prom := by rw [← hprom, hw']
    apply PermitStep.stay rfl
    simp [logSelection, hsame]
  · rename_i w' hw'
    have hsame : w'.prom = w.prom := by rw [← hprom, hw']
    apply PermitStep.stay rfl
    simp [logRateLimited, hsame]

end permitStep

/-- **A step of a request**, by its guard and its permit.
Source: `main.rs` `handle_rpc` -/
theorem RpcCall.permitPath (fromSlice : List UInt8 → Except String Json) (w : World M)
    (call : RpcCall) (move : RpcMove) (free : Bool) (hfree : move = .acquire false → free = true) :
    call.PermitStep free w (call.advance fromSlice w move) := by
  obtain ⟨body, phase⟩ := call
  cases phase with
  | received =>
      cases move with
      | proceed => exact permitStep_received fromSlice
      | _ => exact .idle _
  | waiting =>
      cases move with
      | acquire closed => exact permitStep_acquire fromSlice fun h => hfree (by rw [h])
      | _ => exact .idle _
  | permitted =>
      cases move with
      | proceed =>
          simp only [advance]
          split
          · exact .answer _ rfl rfl
          · exact .stay rfl rfl
      | _ => exact .idle _
  | parsed p =>
      cases move with
      | proceed =>
          simp only [advance]
          split
          · exact .answer _ rfl rfl
          · exact .stay rfl rfl
      | _ => exact .idle _
  | checked p =>
      cases move with
      | collect now =>
          simp only [advance]
          split
          · exact .answer _ rfl rfl
          · exact .stay rfl rfl
      | _ => exact .idle _
  | selecting p tiers =>
      cases tiers with
      | nil =>
          cases move with
          | proceed =>
              apply PermitStep.answer _ rfl
              simp
          | _ => exact .idle _
      | cons tier tiers =>
          cases move with
          | sort order =>
              simp only [advance]
              split
              · exact .stay rfl rfl
              · exact .idle _
          | _ => exact .idle _
  | trying p rank candidates tiers =>
      cases candidates with
      | nil =>
          cases move with
          | proceed => exact .stay rfl rfl
          | _ => exact .idle _
      | cons endpoint rest =>
          cases move with
          | reserve now => exact permitStep_reserve fromSlice p rank endpoint rest tiers now
          | _ => exact .idle _
  | reserved p endpoint =>
      cases move with
      | stamp unixSecs => exact .stay rfl rfl
      | _ => exact .idle _
  | handed p url =>
      cases move with
      | receive result =>
          refine ⟨0 + -1, ?_, .two (d := ⟨body, .released⟩) .release .leave rfl fun _ => rfl⟩
          simp [advance]
      | _ => exact .idle _
  | answered a => exact .idle _
  | returned a => exact .idle _

/-- A step of a request leaves the balancer's fields as they are. -/
theorem RpcCall.advance_lb (fromSlice : List UInt8 → Except String Json) (w : World M)
    (call : RpcCall) (move : RpcMove) : (call.advance fromSlice w move).1.lb = w.lb := by
  have hadv := call.advance_spec fromSlice w 0 move
  generalize call.advance fromSlice w move = after at hadv
  generalize call.handOver 0 move = handed at hadv
  obtain ⟨w', call'⟩ := after
  cases hadv with
  | quiet hs _ _ _ => exact hs.lb
  | reserve _ hlb _ _ => exact hlb
  | stamp _ => rfl

/-- An operation of the environment takes no permit and gives none back. -/
theorem RpcSystem.permits_environment (fromSlice : List UInt8 → Except String Json) (s : RpcSystem M)
    (op : Operation) : (s.step fromSlice (.environment op)).permits = s.permits := by
  have hkeeps := keeps_environmentStep s.world op
  have hvalue : (s.world.environmentStep op).prom.value .concurrencyActivePermits [] =
      s.world.prom.value .concurrencyActivePermits [] := by
    cases op with
    | getNextEndpoint batchSize clock => rfl
    | _ => exact value_exec s.world _ (by decide) []
  show PermitSystem.mk _ _ _ = _
  unfold permits
  congr 1
  show (s.world.environmentStep op).lb.concurrencyLimiter = _
  rw [hkeeps.lb]

/-- **The concurrent requests run the permit machines**: every interleaving that the semaphore admits
is one of theirs, with the same gauge.
Source: `main.rs` `handle_rpc` -/
theorem exists_permitRun (fromSlice : List UInt8 → Except String Json) {s : RpcSystem M}
    {events : List RpcEvent}
    (h : Runs.Along (RpcSystem.step fromSlice) RpcSystem.Admits s events) :
    ∃ moves, (s.run fromSlice events).permits = s.permits.run moves := by
  have hone : ∀ (s : RpcSystem M) (e : RpcEvent), s.Admits e →
      ∃ moves, (s.step fromSlice e).permits = s.permits.run moves := by
    intro s e he
    cases e with
    | environment op =>
        exact ⟨[], s.permits_environment fromSlice op⟩
    | call i move =>
        cases hcall : s.calls[i]? with
        | none =>
            refine ⟨[], ?_⟩
            unfold RpcSystem.step
            dsimp only
            rw [hcall]
            rfl
        | some call =>
            have hfree : move = .acquire false → s.permits.free = true := by
              rintro rfl
              exact he
            obtain ⟨δ, hvalue, hpath⟩ := call.permitPath fromSlice s.world move s.permits.free hfree
            have hget : s.permits.calls[i]? = some call.permitCall := by
              show (s.calls.map RpcCall.permitCall)[i]? = _
              rw [List.getElem?_map, hcall]
              rfl
            obtain ⟨moves, hmoves⟩ := hpath.exists_run hget
            refine ⟨moves, ?_⟩
            rw [hmoves, RpcSystem.step_call hcall]
            unfold RpcSystem.permits
            simp only [RpcCall.advance_lb, hvalue, List.map_set]
  induction events generalizing s with
  | nil => exact ⟨[], rfl⟩
  | cons e events ih =>
      obtain ⟨moves, hmoves⟩ := hone s e h.1
      obtain ⟨more, hmore⟩ := ih h.2
      refine ⟨moves ++ more, ?_⟩
      unfold PermitSystem.run at hmoves ⊢
      rw [Runs.run_append, ← hmoves]
      exact hmore

end AzothBalancer
