import AzothBalancer.ForwardTrace
import AzothBalancer.Instances
import Mathlib.Algebra.BigOperators.Group.Finset.Piecewise
import Mathlib.Algebra.BigOperators.Ring.Finset
import Mathlib.Algebra.Order.BigOperators.Group.List

/-!
# The request counters

Any number of calls of `forward_request`, interleaved step by step with each other and with everything
else the balancer does, reloads included.

* `ForwardSystem.Tallied` — every request counter shows what the calls have counted so far. A step of a
  call keeps it by `forwardCounts_advance`; the rest of the system counts no requests, unless a reload
  cleans up after a removed endpoint (`System.RemovesNothing`).
* What a call has counted at each of its program points bounds what it has yet to count (`count_phase`),
  unless the mark of its failure has panicked: such a call is over and has no outcome.
* `requests_conserved` — the conservation law, from startup, while these marks fit the clock
  (`ForwardSystem.MarkFits`); `request_lost` is what happens to it otherwise.
-/

namespace AzothBalancer

variable {M : Meter}

/-! ## The system -/

/-- The balancer with its reloads, and the calls. -/
structure ForwardSystem (M : Meter) where
  system : System M
  calls : List ForwardCall

/-- A step of an interleaving: of the call at a position, or of anything else. -/
inductive ForwardEvent where
  | call (i : ℕ) (move : ForwardMove)
  | environment (e : SystemEvent)

/-- The requests are about to be forwarded. -/
def ForwardSystem.start (w : World M) (requests : List ForwardArgs) : ForwardSystem M :=
  ⟨⟨w, []⟩, requests.map fun args => { args := args }⟩

/-- One step of an interleaving. -/
def ForwardSystem.step (P : Platform) (s : ForwardSystem M) : ForwardEvent → ForwardSystem M
  | .call i move =>
      match s.calls[i]? with
      | none => s
      | some call =>
          { system := { s.system with world := (call.advance s.system.world move).1 }
            calls := s.calls.set i (call.advance s.system.world move).2 }
  | .environment e => { s with system := s.system.step P e }

/-- The state after an interleaving. -/
def ForwardSystem.run (P : Platform) (s : ForwardSystem M) (events : List ForwardEvent) :
    ForwardSystem M :=
  Runs.run (ForwardSystem.step P) s events

/-- The step is not the cleanup of a reload that removes an endpoint. -/
def ForwardSystem.RemovesNothing (s : ForwardSystem M) : ForwardEvent → Prop
  | .environment e => s.system.RemovesNothing e
  | .call .. => True

/-- What a series shows. -/
def ForwardSystem.counter (s : ForwardSystem M) (f : Family) (labels : List String) : ℤ :=
  s.system.world.prom.value f labels

/-- The call stands before the mark of a failure. -/
def ForwardCall.failing (call : ForwardCall) : Bool :=
  match call.phase with
  | .failing _ => true
  | _ => false

/-- The mark that the step makes after a failure, if it makes one, fits the clock: the endpoint is not
listed, or is down already, or its next cooldown ends before the clock does. -/
def ForwardSystem.MarkFits (s : ForwardSystem M) : ForwardEvent → Prop
  | .call i (.proceed now) => ∀ call ∈ s.calls[i]?, call.failing = true →
      ∀ ep ∈ s.system.world.lb.endpoint? call.args.endpointUrl, ep.healthy = true →
        s.system.world.CooldownFits ep now
  | _ => True

instance (s : ForwardSystem M) (e : ForwardEvent) : Decidable (s.MarkFits e) :=
  match e with
  | .call i (.proceed now) => inferInstanceAs (Decidable (∀ call ∈ s.calls[i]?, call.failing = true →
      ∀ ep ∈ s.system.world.lb.endpoint? call.args.endpointUrl, ep.healthy = true →
        s.system.world.CooldownFits ep now))
  | .call _ (.respond _) | .environment _ => isTrue trivial

/-- The call has been entered and is not over: it has neither returned nor been unwound by the panic of
its mark. -/
def ForwardCall.inFlight (call : ForwardCall) : Bool :=
  match call.phase with
  | .requested | .returned _ | .unwound _ | .throttledUnwound => false
  | _ => true

/-- The mark of the call's failure has panicked. -/
def ForwardCall.Lost (call : ForwardCall) : Prop := ∃ why, call.phase = .unwound why

/-- The number of calls in flight. -/
def ForwardSystem.inFlight (s : ForwardSystem M) : ℕ :=
  (s.calls.map fun call => call.inFlight.toNat).sum

/-- The number of calls in flight to an endpoint. -/
def ForwardSystem.inFlightTo (s : ForwardSystem M) (url : String) : ℕ :=
  (s.calls.map fun call => (call.inFlight && call.args.endpointUrl = url).toNat).sum

/-- The requests that have succeeded or failed, summed over endpoints. -/
def ForwardSystem.outcomes (s : ForwardSystem M) (urls : Finset String) : ℤ :=
  ∑ url ∈ urls, (s.counter .rpcRequestsSucceeded [url] + s.counter .rpcRequestsFailed [url])

/-- What the steps of one call add to a series in the course of a run. -/
def ForwardSystem.added (P : Platform) (i : ℕ) (f : Family) (labels : List String) :
    ForwardSystem M → List ForwardEvent → ℤ :=
  Runs.charged (ForwardSystem.step P) fun s e =>
    match e with
    | .call j _ => if j = i then (s.step P e).counter f labels - s.counter f labels else 0
    | .environment _ => 0

/-! ## What the counters show -/

/-- What a call has counted in a series. -/
def ForwardCall.tally (call : ForwardCall) (f : Family) (labels : List String) : ℕ :=
  if call.args.labels f = labels then call.phase.written.count f else 0

/-- **A step of a call moves the counters by what the call counts.** -/
theorem value_forwardAdvance (w : World M) (call : ForwardCall) (move : ForwardMove) {f : Family}
    (hf : f ∈ requestFamilies) (labels : List String) :
    (call.advance w move).1.prom.value f labels + call.tally f labels =
      w.prom.value f labels + (call.advance w move).2.tally f labels := by
  obtain ⟨hargs, hcounts⟩ := forwardCounts_advance w call move
  generalize (call.advance w move).1 = w' at hcounts ⊢
  generalize (call.advance w move).2 = call' at hargs hcounts ⊢
  unfold ForwardCall.tally
  rw [hargs]
  cases hcounts with
  | nothing hwritten hvalue => rw [hwritten, hvalue f hf labels]
  | one f' _ hwritten hw' =>
      subst hw'
      rw [hwritten, List.count_append]
      by_cases hff : f = f'
      · subst hff
        by_cases hl : call.args.labels f = labels
        · subst hl
          simp [World.count]
          ring
        · have hl' : labels ≠ call.args.labels f := Ne.symm hl
          simp [World.count, hl, hl']
      · have hff' : f' ≠ f := Ne.symm hff
        simp [World.count, hff, hff']

/-- What is not a call counts no requests. -/
theorem counter_environment (P : Platform) {s : ForwardSystem M} {e : SystemEvent}
    (h : s.RemovesNothing (.environment e)) {f : Family} (hf : f ∈ requestFamilies)
    (labels : List String) : (s.step P (.environment e)).counter f labels = s.counter f labels :=
  value_systemStep P h (not_mem_of_mem_requestFamilies hf) labels

/-- Every request counter shows what the calls have counted. -/
def ForwardSystem.Tallied (s : ForwardSystem M) : Prop :=
  ∀ f ∈ requestFamilies, ∀ labels,
    s.counter f labels = (s.calls.map fun call => call.tally f labels).sum

/-- **Every step keeps the tally.** -/
theorem ForwardSystem.Tallied.step (P : Platform) {s : ForwardSystem M} {e : ForwardEvent}
    (he : s.RemovesNothing e) (h : s.Tallied) : (s.step P e).Tallied := by
  intro f hf labels
  have hs := h f hf labels
  cases e with
  | environment e =>
      rw [counter_environment P he hf labels]
      exact hs
  | call i move =>
      unfold ForwardSystem.step
      dsimp only
      cases hi : s.calls[i]? with
      | none => exact hs
      | some call =>
          have hvalue := value_forwardAdvance s.system.world call move hf labels
          have hsum := Runs.sum_map_set (b := (call.advance s.system.world move).2)
            (fun call => call.tally f labels) hi
          simp only [ForwardSystem.counter] at hs ⊢
          omega

/-- A call that has just been requested has counted nothing. -/
@[simp] theorem tally_requested (args : ForwardArgs) (f : Family) (labels : List String) :
    ForwardCall.tally { args := args } f labels = 0 := by
  simp [ForwardCall.tally, ForwardPhase.written]

/-- At startup no request is counted. -/
theorem tallied_start {lower : List Char → List Char} {config : Option Config} {path : String}
    {now : Instant} {w : World M} (h : LoadBalancer.new M lower config path now = some w)
    (requests : List ForwardArgs) : (ForwardSystem.start w requests).Tallied := by
  intro f hf labels
  have hout := not_mem_of_mem_requestFamilies hf
  rw [List.mem_append, not_or] at hout
  have hzero : (ForwardSystem.start w requests).counter f labels = 0 := value_of_new h hout.2 labels
  rw [hzero]
  simp [ForwardSystem.start, Function.comp_def]

/-! ## One call -/

/-- **What the steps of a call have added to the registry** is what it has counted. -/
theorem added_eq (P : Platform) {i : ℕ} :
    ∀ (events : List ForwardEvent) {s : ForwardSystem M} {call : ForwardCall},
      s.calls[i]? = some call → ∃ call', (s.run P events).calls[i]? = some call' ∧
        call'.args = call.args ∧ ∀ f ∈ requestFamilies, ∀ labels,
          s.added P i f labels events = call'.tally f labels - call.tally f labels
  | [], s, call, hi => ⟨call, hi, rfl, fun f _ labels => by simp [ForwardSystem.added, Runs.charged]⟩
  | e :: events, s, call, hi => by
      have hstep : ∃ call₁, (s.step P e).calls[i]? = some call₁ ∧ call₁.args = call.args ∧
          ∀ f ∈ requestFamilies, ∀ labels, s.added P i f labels [e] =
            call₁.tally f labels - call.tally f labels := by
        cases e with
        | environment e =>
            exact ⟨call, hi, rfl, fun f _ labels => by simp [ForwardSystem.added, Runs.charged]⟩
        | call j move =>
            unfold ForwardSystem.step
            dsimp only
            by_cases hji : j = i
            · subst hji
              obtain ⟨hlt, -⟩ := List.getElem?_eq_some_iff.mp hi
              have hargs := (forwardCounts_advance s.system.world call move).1
              refine ⟨(call.advance s.system.world move).2, ?_, hargs, fun f hf labels => ?_⟩
              · rw [hi]
                exact List.getElem?_set_self hlt
              · have hvalue := value_forwardAdvance s.system.world call move hf labels
                simp only [ForwardSystem.added, Runs.charged, ForwardSystem.step, hi,
                  ForwardSystem.counter, if_pos]
                omega
            · have hsame : (s.step P (.call j move)).calls[i]? = some call := by
                unfold ForwardSystem.step
                dsimp only
                split
                · exact hi
                · simp [hji, hi]
              refine ⟨call, hsame, rfl, fun f _ labels => ?_⟩
              simp [ForwardSystem.added, Runs.charged, hji]
      obtain ⟨call₁, hi₁, hargs₁, hadd₁⟩ := hstep
      obtain ⟨call', hi', hargs', hadd'⟩ := added_eq P events hi₁
      refine ⟨call', hi', hargs'.trans hargs₁, fun f hf labels => ?_⟩
      have h₁ := hadd₁ f hf labels
      have h' := hadd' f hf labels
      simp only [ForwardSystem.added, Runs.charged] at h₁ h' ⊢
      omega

/-! ## What a call has yet to count -/

/-- The outcomes a call has counted. -/
def ForwardCall.outcomes (call : ForwardCall) : ℕ :=
  call.phase.written.count .rpcRequestsSucceeded + call.phase.written.count .rpcRequestsFailed

/-- What the exits count: a failure, with or without its cause, or a success. -/
def exitFamilies : List (List Family) :=
  [[.rpcRequestsFailed], [.requestTimeouts, .rpcRequestsFailed],
    [.upstreamRateLimitedTotal, .rpcRequestsFailed], [.rpcRequestsSucceeded]]

/-- Every exit counts one of these. -/
theorem written_exit_mem (exit : ForwardExit) : exit.written ∈ exitFamilies := by
  cases exit with
  | failure why => cases why <;> simp [exitFamilies, ForwardExit.written, ForwardFailure.written]
  | rateLimited => simp [exitFamilies, ForwardExit.written]
  | answered bytes =>
      simp only [ForwardExit.written, bodyFamily]
      split <;> simp [exitFamilies]

/-- An exit counts one outcome. -/
theorem count_exit (exit : ForwardExit) :
    exit.written.count .rpcRequestsSucceeded + exit.written.count .rpcRequestsFailed = 1 := by
  have hall : ∀ fams ∈ exitFamilies,
      fams.count .rpcRequestsSucceeded + fams.count .rpcRequestsFailed = 1 := by decide
  exact hall _ (written_exit_mem exit)

/-- An exit counts a timeout or a 429 only beside a failure, and no request in total. -/
theorem count_exit_causes (exit : ForwardExit) :
    exit.written.count .requestTimeouts + exit.written.count .upstreamRateLimitedTotal ≤
        exit.written.count .rpcRequestsFailed ∧
      exit.written.count .rpcRequestsTotal = 0 := by
  have hall : ∀ fams ∈ exitFamilies, fams.count .requestTimeouts +
      fams.count .upstreamRateLimitedTotal ≤ fams.count .rpcRequestsFailed ∧
        fams.count .rpcRequestsTotal = 0 := by decide
  exact hall _ (written_exit_mem exit)

/-- **What a call has counted, at every program point** but that of a lost call: no outcome without the
total; every request in the total has its outcome, or is in flight; every cause has its failure, or the
call is in flight. -/
theorem count_phase {call : ForwardCall} (hkept : ¬ call.Lost) :
    call.outcomes ≤ call.phase.written.count .rpcRequestsTotal ∧
      call.phase.written.count .rpcRequestsTotal ≤ call.outcomes + call.inFlight.toNat ∧
      call.phase.written.count .requestTimeouts + call.phase.written.count .upstreamRateLimitedTotal ≤
        call.phase.written.count .rpcRequestsFailed + call.inFlight.toNat := by
  obtain ⟨args, phase⟩ := call
  unfold ForwardCall.outcomes ForwardCall.inFlight
  cases phase with
  | failing why | marked why =>
      cases why <;> simp [ForwardPhase.written, commonFamilies, ForwardFailure.written]
  | unwound why => exact absurd ⟨why, rfl⟩ hkept
  | returning exit | returned exit =>
      have hone := count_exit exit
      obtain ⟨hcauses, htotal⟩ := count_exit_causes exit
      simp [ForwardPhase.written, commonFamilies]
      omega
  | _ => simp [ForwardPhase.written, commonFamilies]

/-- A call that is about to return has counted one outcome. -/
theorem outcomes_of_exit {call : ForwardCall} {exit : ForwardExit}
    (h : call.phase = .returning exit ∨ call.phase = .returned exit) : call.outcomes = 1 := by
  have hone := count_exit exit
  unfold ForwardCall.outcomes
  rcases h with h | h <;> rw [h] <;>
    simpa [ForwardPhase.written, commonFamilies] using hone

/-- A call that is about to return a body has counted neither a timeout nor a 429. -/
theorem causes_of_answered {call : ForwardCall} {bytes : List UInt8}
    (h : call.phase = .returning (.answered bytes) ∨ call.phase = .returned (.answered bytes)) :
    call.phase.written.count .requestTimeouts = 0 ∧
      call.phase.written.count .upstreamRateLimitedTotal = 0 := by
  have hwritten : call.phase.written = commonFamilies ++ [bodyFamily bytes] := by
    rcases h with h | h <;> rw [h] <;> rfl
  rw [hwritten]
  unfold bodyFamily
  split <;> simp [commonFamilies]

/-- **A step that loses no call**: the mark of a failure fits the clock.
Source: `forwarder.rs` `forward_request`; `balancer.rs` `mark_unhealthy` -/
theorem not_lost_advance {w : World M} {call : ForwardCall} {move : ForwardMove} (hkept : ¬ call.Lost)
    (hfits : ∀ now, move = .proceed now → call.failing = true →
      ∀ ep ∈ w.lb.endpoint? call.args.endpointUrl, ep.healthy = true → w.CooldownFits ep now) :
    ¬ (call.advance w move).2.Lost := by
  obtain ⟨args, phase⟩ := call
  rintro ⟨why', hlost⟩
  cases move with
  | respond u =>
      cases phase with
      | sending => cases hlost
      | _ => exact hkept ⟨why', hlost⟩
  | proceed now =>
      cases phase with
      | recorded u =>
          rw [ForwardCall.advance_recorded] at hlost
          rcases u.branch_cases with ⟨why, hbranch, -⟩ | ⟨hbranch, -⟩ | ⟨hbranch, -⟩
          all_goals
            rw [hbranch] at hlost
            cases hlost
      | reading body => cases body <;> cases hlost
      | failing why =>
          have hmark : (markUnhealthy w args.endpointUrl now).2 = false := by
            rcases hep : w.lb.endpoint? args.endpointUrl with _ | ep
            · simp [markUnhealthy, hep]
            · exact (markUnhealthy_spec hep now).1.mpr (hfits now rfl rfl ep hep)
          rw [ForwardCall.advance_failing, hmark] at hlost
          cases hlost
      | throttledFailed =>
          rw [ForwardCall.advance_throttledFailed] at hlost
          dsimp only at hlost
          split at hlost <;> cases hlost
      | unwound why => exact hkept ⟨why, rfl⟩
      | _ => cases hlost

/-! ## All calls -/

/-- No call is lost while the marks fit the clock. -/
theorem ForwardSystem.not_lost_step (P : Platform) {s : ForwardSystem M} {e : ForwardEvent}
    (he : s.MarkFits e) (h : ∀ call ∈ s.calls, ¬ call.Lost) : ∀ call ∈ (s.step P e).calls, ¬ call.Lost := by
  cases e with
  | environment e => exact h
  | call i move =>
      unfold ForwardSystem.step
      dsimp only
      rcases hi : s.calls[i]? with _ | call
      · exact h
      · intro call' hcall'
        rcases List.mem_or_eq_of_mem_set hcall' with hold | rfl
        · exact h call' hold
        · refine not_lost_advance (h call (List.mem_of_getElem? hi)) ?_
          rintro now rfl
          exact he call hi

/-- The outcomes of calls to some of the endpoints, endpoint by endpoint or call by call. -/
theorem sum_outcomes (urls : Finset String) :
    ∀ {calls : List ForwardCall}, (∀ call ∈ calls, call.args.endpointUrl ∈ urls) →
      ∑ url ∈ urls, ((calls.map fun call => call.tally .rpcRequestsSucceeded [url]).sum +
          (calls.map fun call => call.tally .rpcRequestsFailed [url]).sum) =
        (calls.map ForwardCall.outcomes).sum
  | [], _ => by simp
  | call :: calls, h => by
      have hrest := sum_outcomes urls fun c hc => h c (List.mem_cons_of_mem _ hc)
      have hcall : ∑ url ∈ urls, (call.tally .rpcRequestsSucceeded [url] +
          call.tally .rpcRequestsFailed [url]) = call.outcomes := by
        have hmem := h call List.mem_cons_self
        simp [ForwardCall.tally, ForwardArgs.labels, ForwardCall.outcomes, Finset.sum_add_distrib, hmem]
      rw [List.map_cons, List.sum_cons, ← hrest, ← hcall, ← Finset.sum_add_distrib]
      apply Finset.sum_congr rfl
      intro url _
      simp only [List.map_cons, List.sum_cons]
      omega

/-- The conservation law, over the endpoints `urls`. -/
structure ForwardSystem.Conserved (s : ForwardSystem M) (urls : Finset String) : Prop where
  outcomes_le : s.outcomes urls ≤ s.counter .rpcRequestsTotal []
  le_outcomes : s.counter .rpcRequestsTotal [] ≤ s.outcomes urls + s.inFlight
  /-- No call is in flight. -/
  settled : s.inFlight = 0 → s.counter .rpcRequestsTotal [] = s.outcomes urls
  causes_le : ∀ url, s.counter .requestTimeouts [url] + s.counter .upstreamRateLimitedTotal [url] ≤
    s.counter .rpcRequestsFailed [url] + s.inFlightTo url

/-- **The tally conserves requests.** -/
theorem ForwardSystem.Tallied.conserved {s : ForwardSystem M} (h : s.Tallied)
    (hkept : ∀ call ∈ s.calls, ¬ call.Lost) {urls : Finset String}
    (hurls : ∀ call ∈ s.calls, call.args.endpointUrl ∈ urls) : s.Conserved urls := by
  have htotal : s.counter .rpcRequestsTotal [] =
      (s.calls.map fun call => call.phase.written.count .rpcRequestsTotal).sum := by
    rw [h .rpcRequestsTotal (by decide) []]
    simp [ForwardCall.tally, ForwardArgs.labels]
  have houtcomes : s.outcomes urls = (s.calls.map ForwardCall.outcomes).sum := by
    rw [← sum_outcomes urls hurls]
    unfold ForwardSystem.outcomes
    push_cast
    apply Finset.sum_congr rfl
    intro url _
    rw [h .rpcRequestsSucceeded (by decide), h .rpcRequestsFailed (by decide)]
    push_cast
    rfl
  have hle : (s.calls.map ForwardCall.outcomes).sum ≤
      (s.calls.map fun call => call.phase.written.count .rpcRequestsTotal).sum :=
    List.sum_le_sum fun call hcall => (count_phase (hkept call hcall)).1
  have hge : (s.calls.map fun call => call.phase.written.count .rpcRequestsTotal).sum ≤
      (s.calls.map ForwardCall.outcomes).sum + s.inFlight := by
    unfold ForwardSystem.inFlight
    rw [← List.sum_map_add]
    exact List.sum_le_sum fun call hcall => (count_phase (hkept call hcall)).2.1
  refine ⟨by omega, by omega, fun hnone => by omega, fun url => ?_⟩
  have hcauses : (s.calls.map fun call => call.tally .requestTimeouts [url] +
      call.tally .upstreamRateLimitedTotal [url]).sum ≤
      (s.calls.map fun call => call.tally .rpcRequestsFailed [url] +
        (call.inFlight && call.args.endpointUrl = url).toNat).sum := by
    apply List.sum_le_sum
    intro call hcall
    have hphase := (count_phase (hkept call hcall)).2.2
    by_cases hurl : call.args.endpointUrl = url
    · simpa [ForwardCall.tally, ForwardArgs.labels, hurl] using hphase
    · simp [ForwardCall.tally, ForwardArgs.labels, hurl]
  rw [List.sum_map_add, List.sum_map_add] at hcauses
  rw [h .requestTimeouts (by decide), h .upstreamRateLimitedTotal (by decide),
    h .rpcRequestsFailed (by decide)]
  unfold ForwardSystem.inFlightTo
  omega

/-- What a call has added to the counters by the time it returns. -/
structure ForwardCall.CountedOnce (displayStatus : ℕ → String) (call : ForwardCall)
    (added : Family → List String → ℤ) : Prop where
  /-- One outcome, at the endpoint it was sent to. -/
  once : ∀ exit, call.phase = .returning exit ∨ call.phase = .returned exit →
    (added .rpcRequestsSucceeded [call.args.endpointUrl] = 1 ∧
        added .rpcRequestsFailed [call.args.endpointUrl] = 0) ∨
      (added .rpcRequestsSucceeded [call.args.endpointUrl] = 0 ∧
        added .rpcRequestsFailed [call.args.endpointUrl] = 1)
  elsewhere : ∀ url, url ≠ call.args.endpointUrl →
    added .rpcRequestsSucceeded [url] = 0 ∧ added .rpcRequestsFailed [url] = 0
  /-- A call that returns `Ok` adds to neither cause. -/
  ok : ∀ exit bytes, call.phase = .returning exit ∨ call.phase = .returned exit →
    exit.result displayStatus call.args.endpointUrl = .ok bytes →
    ∀ url, added .requestTimeouts [url] = 0 ∧ added .upstreamRateLimitedTotal [url] = 0

/-- **What a call has counted is counted once.** -/
theorem countedOnce_of_tally (displayStatus : ℕ → String) {call : ForwardCall}
    {added : Family → List String → ℤ}
    (h : ∀ f ∈ requestFamilies, ∀ labels, added f labels = call.tally f labels) :
    call.CountedOnce displayStatus added where
  once exit hexit := by
    have hone := outcomes_of_exit hexit
    rw [h .rpcRequestsSucceeded (by decide), h .rpcRequestsFailed (by decide)]
    simp only [ForwardCall.tally, ForwardArgs.labels, if_pos, ForwardCall.outcomes] at hone ⊢
    omega
  elsewhere url hurl := by
    rw [h .rpcRequestsSucceeded (by decide), h .rpcRequestsFailed (by decide)]
    simp [ForwardCall.tally, ForwardArgs.labels, Ne.symm hurl]
  ok exit bytes hexit hresult url := by
    cases exit with
    | failure why => cases hresult
    | rateLimited => cases hresult
    | answered bytes =>
        obtain ⟨htimeouts, hupstream⟩ := causes_of_answered hexit
        rw [h .requestTimeouts (by decide), h .upstreamRateLimitedTotal (by decide)]
        simp [ForwardCall.tally, htimeouts, hupstream]

/-- The calls keep their requests. -/
theorem args_run (P : Platform) (s : ForwardSystem M) (events : List ForwardEvent) :
    (s.run P events).calls.map ForwardCall.args = s.calls.map ForwardCall.args := by
  apply Runs.invariant (fun t : ForwardSystem M =>
    t.calls.map ForwardCall.args = s.calls.map ForwardCall.args) (fun _ => True) ?_
    (fun _ _ => trivial) rfl
  intro t e _ ht
  rw [← ht]
  cases e with
  | environment e => rfl
  | call i move =>
      unfold ForwardSystem.step
      dsimp only
      split
      · rfl
      · rename_i call hi
        exact Runs.map_set_of_eq hi (forwardCounts_advance t.system.world call move).1

/-- **Requests are conserved.** From startup, under every interleaving of the steps of any number of calls
with each other and with the rest of the balancer in which no reload removes an endpoint and the mark of
every failure fits the clock: the total lies between the outcomes and the outcomes plus the calls in
flight, the causes of an endpoint are covered by its failures and its calls in flight, and a call adds one
outcome, at its endpoint, before it returns.
Source: `forwarder.rs` `forward_request` -/
theorem requests_conserved (P : Platform) (displayStatus : ℕ → String) {config : Option Config}
    {path : String} {now : Instant} {w : World M}
    (hnew : LoadBalancer.new M P.toLowercase config path now = some w) (requests : List ForwardArgs)
    {events : List ForwardEvent}
    (hkeep : Runs.Along (ForwardSystem.step P) ForwardSystem.RemovesNothing
      (ForwardSystem.start w requests) events)
    (hfits : Runs.Along (ForwardSystem.step P) ForwardSystem.MarkFits
      (ForwardSystem.start w requests) events) :
    (∀ urls : Finset String, (∀ args ∈ requests, args.endpointUrl ∈ urls) →
      ((ForwardSystem.start w requests).run P events).Conserved urls) ∧
    ∀ i args, requests[i]? = some args → ∃ call : ForwardCall,
      ((ForwardSystem.start w requests).run P events).calls[i]? = some call ∧ call.args = args ∧
      call.CountedOnce displayStatus fun f labels =>
        (ForwardSystem.start w requests).added P i f labels events := by
  constructor
  · intro urls hurls
    have htally : ((ForwardSystem.start w requests).run P events).Tallied :=
      Runs.invariant_along ForwardSystem.Tallied ForwardSystem.RemovesNothing
        (fun _ _ he h => h.step P he) hkeep (tallied_start hnew requests)
    have hkept : ∀ call ∈ ((ForwardSystem.start w requests).run P events).calls, ¬ call.Lost := by
      refine Runs.invariant_along (fun s : ForwardSystem M => ∀ call ∈ s.calls, ¬ call.Lost)
        ForwardSystem.MarkFits (fun _ _ he h => ForwardSystem.not_lost_step P he h) hfits ?_
      intro call hcall
      obtain ⟨args, -, rfl⟩ := List.mem_map.mp hcall
      rintro ⟨why, hlost⟩
      cases hlost
    apply htally.conserved hkept
    intro call hcall
    have hargs : call.args ∈ (ForwardSystem.start w requests).calls.map ForwardCall.args := by
      rw [← args_run P _ events]
      exact List.mem_map_of_mem hcall
    simp only [ForwardSystem.start, List.map_map, List.mem_map] at hargs
    obtain ⟨args, hmem, heq⟩ := hargs
    rw [← heq]
    exact hurls args hmem
  · intro i args hi
    have hstart : (ForwardSystem.start w requests).calls[i]? = some { args := args } := by
      simp [ForwardSystem.start, hi]
    obtain ⟨call, hcall, hargs, hadded⟩ := added_eq P events hstart
    refine ⟨call, hcall, hargs, countedOnce_of_tally displayStatus fun f hf labels => ?_⟩
    rw [hadded f hf labels, tally_requested]
    simp

/-- A request that gets no answer, one that the upstream answers with a 429, and one still in flight. -/
theorem requests_conserved_sample :
    let request : ForwardArgs := ⟨[], "http://a", "eth_call"⟩
    let events : List ForwardEvent := List.replicate 3 (.call 0 (.proceed 0)) ++
      .call 0 (.respond { result := .response 429, elapsedMs := 5 }) :: .call 1 (.proceed 1) ::
      .call 1 (.proceed 1) :: List.replicate 7 (.call 0 (.proceed 2)) ++
      List.replicate 3 (.call 2 (.proceed 3)) ++
      .call 2 (.respond { result := .networkError, elapsedMs := 5 }) :: List.replicate 6 (.call 2 (.proceed 4))
    ((ForwardSystem.start sampleWorld [request, request, request]).run samplePlatform events).Conserved
      {"http://a"} := by
  intro request events
  have hkeep : Runs.Along (ForwardSystem.step samplePlatform) ForwardSystem.RemovesNothing
      (ForwardSystem.start sampleWorld [request, request, request]) events := by
    simp [events, Runs.Along, ForwardSystem.RemovesNothing, List.replicate]
  have hfits : Runs.Along (ForwardSystem.step samplePlatform) ForwardSystem.MarkFits
      (ForwardSystem.start sampleWorld [request, request, request]) events := by
    decide +kernel
  exact (requests_conserved samplePlatform (fun _ => "") new_sampleWorld _ hkeep hfits).1
    {"http://a"} (by simp [request])

/-- A startup with the longest cooldown that can be configured. -/
def longCooldownStartup : Option (World leakyBucket) :=
  LoadBalancer.new leakyBucket asciiLowercase
    (some { balancer := some {
      baseCooldownSecs := some (2 ^ 63 - 1)
      maxCooldownSecs := some (2 ^ 63 - 1)
      endpoints := some [sampleEndpoint] } }) "config.toml" 0

/-- **A request is lost** where the mark of its failure panics: it stays in the total, has no outcome, and
is in flight no more.
Source: `forwarder.rs` `forward_request`; `utils/cooldown.rs` `trigger_cooldown` -/
theorem request_lost : ¬ ∀ (config : Option Config) (path : String) (now : Instant)
    (w : World leakyBucket), LoadBalancer.new leakyBucket asciiLowercase config path now = some w →
    ∀ (requests : List ForwardArgs) (events : List ForwardEvent),
      Runs.Along (ForwardSystem.step samplePlatform) ForwardSystem.RemovesNothing
        (ForwardSystem.start w requests) events →
      ∀ urls : Finset String, (∀ args ∈ requests, args.endpointUrl ∈ urls) →
        ((ForwardSystem.start w requests).run samplePlatform events).Conserved urls := by
  intro h
  let request : ForwardArgs := ⟨[], "http://a", "eth_call"⟩
  let events : List ForwardEvent := List.replicate 3 (.call 0 (.proceed 0)) ++
    .call 0 (.respond { result := .networkError, elapsedMs := 5 }) ::
    List.replicate 4 (.call 0 (.proceed 1000000000))
  have hlaw := h _ _ _ _ (Option.some_get (by decide : longCooldownStartup.isSome)).symm [request] events
    (by simp [events, Runs.Along, ForwardSystem.RemovesNothing, List.replicate]) {"http://a"}
    (by simp [request])
  have hsettled := hlaw.settled
  revert hsettled
  decide +kernel

end AzothBalancer
