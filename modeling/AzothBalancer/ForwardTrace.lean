import AzothBalancer.ForwardCalls

/-!
# What a request does to its endpoint

`forward_request` enters an outcome into the endpoint's metrics and may mark the endpoint. `ForwardTrace` is a
call with the outcomes it has entered and with what its mark has left behind; every step finds a world of its
own, so anything may happen between two of them.

* `markUnhealthy_spec`, `markRateLimited_spec` — when a mark panics, and what it leaves otherwise.
* `ForwardCall.frame_advance` — the trace misses nothing: a call writes metrics and endpoints in no other
  step.
* `ForwardTrace.Inv` — what the trace says in each phase; `inv_step` is its step lemma, `inv_after` its run
  lemma.
* `ForwardTrace.outcome_cases` — how a call ends; `outcome_of_driven` says that it does.
-/

namespace AzothBalancer

variable {M : Meter}

/-! ## The mark of a listed endpoint -/

/-- The next cooldown fits the clock. -/
def World.CooldownFits (w : World M) (ep : RpcEndpoint) (now : Instant) : Prop :=
  (Instant.checkedAddSecs now (cooldownDuration (saturatingAdd32 ep.cooldownAttempts 1)
    w.lb.baseCooldownSecs w.lb.maxCooldownSecs)).isSome

instance (w : World M) (ep : RpcEndpoint) (now : Instant) : Decidable (w.CooldownFits ep now) :=
  inferInstanceAs (Decidable (_ = true))

/-- The endpoint has just been given a cooldown. It can be of zero seconds: the multiplication by the power of
two wraps around (`cooldownDuration`). -/
def RpcEndpoint.JustCooled (ep : RpcEndpoint) (now : Instant) : Prop :=
  ep.lastCheck = now ∧ ∃ secs, ep.cooldownUntil = some (now + nanosPerSec * secs)

section mark

variable {w : World M} {url : String} {ep : RpcEndpoint} {now : Instant}

/-- Whether a trigger panics, and what it leaves if it does not.
Source: `utils/cooldown.rs` `trigger_cooldown` -/
theorem triggerCooldown_spec (ep : RpcEndpoint) (base max_ : ℕ) (now : Instant) :
    ((triggerCooldown ep base max_ now).2.isSome ↔ (Instant.checkedAddSecs now
      (cooldownDuration (saturatingAdd32 ep.cooldownAttempts 1) base max_)).isSome) ∧
    ((triggerCooldown ep base max_ now).2.isSome →
      (triggerCooldown ep base max_ now).1.JustCooled now) := by
  unfold triggerCooldown
  dsimp only
  rcases hfits : Instant.checkedAddSecs now
    (cooldownDuration (saturatingAdd32 ep.cooldownAttempts 1) base max_) with _ | until_
  · simp
  · refine ⟨by simp, fun _ => ⟨rfl, cooldownDuration (saturatingAdd32 ep.cooldownAttempts 1) base max_, ?_⟩⟩
    unfold Instant.checkedAddSecs at hfits
    split at hfits
    · exact hfits.symm
    · cases hfits

/-- The mark's trigger panics exactly if the cooldown does not fit. -/
theorem cooldownEndpoint_snd (w : World M) (ep : RpcEndpoint) (prepare : RpcEndpoint → RpcEndpoint)
    (base max_ : ℕ) (now : Instant) : (cooldownEndpoint w ep prepare base max_ now).2 = false ↔
      (triggerCooldown (prepare ep) base max_ now).2.isSome := by
  unfold cooldownEndpoint
  dsimp only
  rcases (triggerCooldown (prepare ep) base max_ now).2 with _ | duration
  · simp
  · simp

/-- **The mark of a failure.** It panics exactly if it triggers a cooldown that does not fit; otherwise it
leaves the endpoint unhealthy.
Source: `balancer.rs` `mark_unhealthy` -/
theorem markUnhealthy_spec (hep : w.lb.endpoint? url = some ep) (now : Instant) :
    ((markUnhealthy w url now).2 = false ↔ (ep.healthy = true → w.CooldownFits ep now)) ∧
    ∃ ep' ∈ (markUnhealthy w url now).1.lb.endpoint? url, ep'.healthy = false := by
  unfold markUnhealthy
  rw [hep]
  dsimp only
  by_cases hh : ep.healthy = true
  · rw [if_pos hh, cooldownEndpoint_snd, (triggerCooldown_spec _ _ _ _).1]
    have hurl : ∀ e : RpcEndpoint, { e with healthy := false }.url = e.url := fun _ => rfl
    refine ⟨by simp [hh, World.CooldownFits], ?_⟩
    rw [endpoint?_cooldownEndpoint hep hurl, if_pos rfl]
    exact ⟨_, rfl, triggerCooldown_healthy ..⟩
  · rw [if_neg hh]
    exact ⟨by simp [hh], ep, hep, by simpa using hh⟩

/-- **The mark of a 429.** It panics exactly if the cooldown does not fit; otherwise the endpoint has just
been given it.
Source: `balancer.rs` `mark_rate_limited` -/
theorem markRateLimited_spec (hep : w.lb.endpoint? url = some ep) (now : Instant) :
    ((markRateLimited w url now).2 = false ↔ w.CooldownFits ep now) ∧
    ((markRateLimited w url now).2 = false →
      ∃ ep' ∈ (markRateLimited w url now).1.lb.endpoint? url, ep'.JustCooled now) := by
  unfold markRateLimited
  rw [hep]
  dsimp only
  obtain ⟨hpanic, hleft⟩ :=
    triggerCooldown_spec ep w.lb.baseCooldownSecs w.lb.maxCooldownSecs now
  rw [cooldownEndpoint_snd]
  have hurl : ∀ e : RpcEndpoint, (id e).url = e.url := fun _ => rfl
  refine ⟨hpanic, fun h => ?_⟩
  rw [endpoint?_cooldownEndpoint hep hurl, if_pos rfl]
  exact ⟨_, rfl, hleft h⟩

/-- A mark writes no metrics object. -/
theorem metrics_cooldownEndpoint (w : World M) (ep : RpcEndpoint) (prepare : RpcEndpoint → RpcEndpoint)
    (base max_ : ℕ) (now : Instant) :
    (cooldownEndpoint w ep prepare base max_ now).1.metrics = w.metrics := by
  unfold cooldownEndpoint
  dsimp only
  split <;> rfl

end mark

/-! ## The trace of a call -/

/-- A call, the outcomes it has entered into the endpoint's metrics, and its mark: when it was made, and the
record it has left. -/
structure ForwardTrace where
  call : ForwardCall
  updates : List RequestOutcome := []
  marked : Option (Instant × RpcEndpoint) := none

namespace ForwardCall

/-- The calls of `EndpointMetrics::update` in a step.
Source: `forwarder.rs` `forward_request`, "Metrics Update Logic" -/
def updatesAt (call : ForwardCall) (w : World M) (move : ForwardMove) : List RequestOutcome :=
  match call.phase, move with
  | .observed u, .proceed _ =>
      match w.lb.endpoint? call.args.endpointUrl with
      | some _ => [outcomeOf w.lb.timeoutSecs u.elapsedMs u.result]
      | none => []
  | _, _ => []

/-- The time of the mark, if the step makes one.
Source: `forwarder.rs` `forward_request` -/
def marksAt (call : ForwardCall) (move : ForwardMove) : Option Instant :=
  match call.phase, move with
  | .failing _, .proceed now => some now
  | .throttledFailed, .proceed now => some now
  | _, _ => none

/-- If the step makes a mark, the cooldown it triggers fits the clock. -/
def MarkFits (call : ForwardCall) (w : World M) (move : ForwardMove) : Prop :=
  match call.phase, move with
  | .failing _, .proceed now =>
      ∀ ep ∈ w.lb.endpoint? call.args.endpointUrl, ep.healthy = true → w.CooldownFits ep now
  | .throttledFailed, .proceed now =>
      ∀ ep ∈ w.lb.endpoint? call.args.endpointUrl, w.CooldownFits ep now
  | _, _ => True

/-- The step that takes the branch. -/
theorem advance_recorded (args : ForwardArgs) (u : UpstreamCall) (w : World M) (now : Instant) :
    (advance w ⟨args, .recorded u⟩ (.proceed now)).2 = ⟨args, u.branch⟩ := by
  simp only [advance]
  split <;> rfl

/-- The step that marks a failure. -/
theorem advance_failing (args : ForwardArgs) (why : ForwardFailure) (w : World M) (now : Instant) :
    advance w ⟨args, .failing why⟩ (.proceed now) = ((markUnhealthy w args.endpointUrl now).1,
      ⟨args, if (markUnhealthy w args.endpointUrl now).2 then .unwound why else .marked why⟩) := by
  simp only [advance]
  rcases markUnhealthy w args.endpointUrl now with ⟨w', _ | _⟩ <;> rfl

/-- The step that marks a 429. -/
theorem advance_throttledFailed (args : ForwardArgs) (w : World M) (now : Instant) :
    advance w ⟨args, .throttledFailed⟩ (.proceed now) = ((markRateLimited w args.endpointUrl now).1,
      ⟨args, if (markRateLimited w args.endpointUrl now).2 then .throttledUnwound
        else .returning .rateLimited⟩) := by
  simp only [advance]
  rcases markRateLimited w args.endpointUrl now with ⟨w', _ | _⟩ <;> rfl

/-- The marks write no metrics object. -/
theorem metrics_mark (w : World M) (url : String) (now : Instant) :
    (markUnhealthy w url now).1.metrics = w.metrics ∧ (markRateLimited w url now).1.metrics = w.metrics := by
  constructor
  · unfold markUnhealthy
    split
    · rfl
    · split
      · exact metrics_cooldownEndpoint ..
      · rfl
  · unfold markRateLimited
    split
    · rfl
    · exact metrics_cooldownEndpoint ..

/-- **A call writes no metrics but those of its updates**, and no endpoint but in its mark.
Source: `forwarder.rs` `forward_request` -/
theorem frame_advance (call : ForwardCall) (w : World M) (move : ForwardMove) :
    (∀ ep ∈ w.lb.endpoint? call.args.endpointUrl, (call.advance w move).1.metrics =
      (call.updatesAt w move).foldl (fun heap outcome =>
        heap.modify ep.metrics fun m => m.update outcome w.lb.latencySmoothingFactor) w.metrics) ∧
    (call.marksAt move = none → (call.advance w move).1.lb = w.lb) := by
  obtain ⟨args, phase⟩ := call
  have hsame : ∀ {w' : World M}, w'.metrics = w.metrics → w'.lb = w.lb → ∀ {a : Option Instant},
      (∀ ep ∈ w.lb.endpoint? args.endpointUrl, w'.metrics =
        ([] : List RequestOutcome).foldl (fun heap outcome => heap.modify ep.metrics fun m =>
          m.update outcome w.lb.latencySmoothingFactor) w.metrics) ∧
      (a = none → w'.lb = w.lb) := fun hm hl _ => ⟨fun _ _ => hm, fun _ => hl⟩
  cases move with
  | respond u => cases phase <;> exact hsame rfl rfl
  | proceed now =>
      cases phase with
      | observed u =>
          rcases hep : w.lb.endpoint? args.endpointUrl with _ | ep
          · simp [advance, updateMetrics, hep]
          · simp [advance, updatesAt, updateMetrics, hep]
      | recorded u =>
          simp only [advance]
          split <;> exact hsame rfl rfl
      | reading body => cases body <;> exact hsame rfl rfl
      | failing why =>
          rw [advance_failing]
          exact ⟨fun _ _ => (metrics_mark w args.endpointUrl now).1, fun h => by cases h⟩
      | throttledFailed =>
          rw [advance_throttledFailed]
          exact ⟨fun _ _ => (metrics_mark w args.endpointUrl now).2, fun h => by cases h⟩
      | _ => exact hsame rfl rfl

end ForwardCall

/-- The exit after the body. -/
def exitOfBody : Except String (List UInt8) → ForwardExit
  | .error e => .failure (.body e)
  | .ok bytes => .answered bytes

namespace UpstreamCall

/-- How a call ends that the upstream answers so, if its mark does not panic.
Source: `forwarder.rs` `forward_request` -/
def exit (u : UpstreamCall) : ForwardExit :=
  match u.result with
  | .timeout => .failure (.timedOut u.errorText)
  | .networkError => .failure (.network u.errorText)
  | .response status =>
      if status = 429 then .rateLimited
      else if !isSuccess status then .failure (.status status)
      else exitOfBody u.body

/-- The branch and the exit it leads to. -/
theorem branch_cases (u : UpstreamCall) :
    (∃ why, u.branch = .failing why ∧ u.exit = .failure why) ∨
    (u.branch = .throttled ∧ u.exit = .rateLimited) ∨
    (u.branch = .reading u.body ∧ u.exit = exitOfBody u.body) := by
  obtain ⟨result, elapsedMs, errorText, body⟩ := u
  cases result with
  | timeout => exact .inl ⟨_, rfl, rfl⟩
  | networkError => exact .inl ⟨_, rfl, rfl⟩
  | response status =>
      by_cases h429 : status = 429
      · exact .inr (.inl (by simp [branch, exit, h429]))
      · by_cases hok : isSuccess status = true
        · exact .inr (.inr (by simp [branch, exit, h429, hok]))
        · exact .inl ⟨.status status, by simp [branch, exit, h429, hok]⟩

/-- The status is one of success, and the body cannot be read. -/
def BodyFails (u : UpstreamCall) : Prop :=
  ∃ status e, u.result = .response status ∧ isSuccess status = true ∧ u.body = .error e

/-- **The outcome and the exit**: a success with a body, a success without one, or a failure.
Source: `forwarder.rs` `forward_request` -/
theorem exit_cases (u : UpstreamCall) (timeoutSecs : ℕ) :
    (¬ u.BodyFails ∧ ∃ bytes, u.exit = .answered bytes ∧
      outcomeOf timeoutSecs u.elapsedMs u.result = .success u.elapsedMs) ∨
    (u.BodyFails ∧ (∃ e, u.exit = .failure (.body e)) ∧
      outcomeOf timeoutSecs u.elapsedMs u.result = .success u.elapsedMs) ∨
    (¬ u.BodyFails ∧ (∀ bytes, u.exit ≠ .answered bytes) ∧
      ∃ kind latencyMs, outcomeOf timeoutSecs u.elapsedMs u.result = .failure kind latencyMs) := by
  obtain ⟨result, elapsedMs, errorText, body⟩ := u
  cases result with
  | timeout =>
      refine .inr (.inr ⟨?_, by simp [exit], _, _, rfl⟩)
      rintro ⟨_, _, hresult, -⟩
      cases hresult
  | networkError =>
      refine .inr (.inr ⟨?_, by simp [exit], _, _, rfl⟩)
      rintro ⟨_, _, hresult, -⟩
      cases hresult
  | response status =>
      by_cases hok : isSuccess status = true
      · have h429 : status ≠ 429 := by
          rintro rfl
          cases hok
        have hrange : 200 ≤ status ∧ status < 300 := by simpa [isSuccess] using hok
        have hsuccess : outcomeOf timeoutSecs elapsedMs (.response status) = .success elapsedMs := by
          unfold outcomeOf
          exact if_pos hrange
        rcases body with e | bytes
        · exact .inr (.inl ⟨⟨status, e, rfl, hok, rfl⟩, ⟨e, by simp [exit, exitOfBody, h429, hok]⟩, hsuccess⟩)
        · refine .inl ⟨?_, bytes, by simp [exit, exitOfBody, h429, hok], hsuccess⟩
          rintro ⟨_, _, -, -, hbody⟩
          cases hbody
      · have hrange : ¬ (200 ≤ status ∧ status < 300) := by simpa [isSuccess] using hok
        refine .inr (.inr ⟨?_, ?_, ?_⟩)
        · rintro ⟨status', _, hresult, hok', -⟩
          cases hresult
          exact hok hok'
        · intro bytes
          unfold exit
          dsimp only
          split
          · simp
          · simp [hok]
        · unfold outcomeOf
          dsimp only
          rw [if_neg hrange]
          split
          · exact ⟨_, _, rfl⟩
          · split
            · exact ⟨_, _, rfl⟩
            · split <;> exact ⟨_, _, rfl⟩

end UpstreamCall

namespace ForwardTrace

/-- A call that has not been entered. -/
def start (args : ForwardArgs) : ForwardTrace := ⟨⟨args, .requested⟩, [], none⟩

/-- One step, in the world it finds. -/
def step (t : ForwardTrace) (s : World M × ForwardMove) : ForwardTrace where
  call := (t.call.advance s.1 s.2).2
  updates := t.updates ++ t.call.updatesAt s.1 s.2
  marked := ((t.call.marksAt s.2).bind fun now =>
    ((t.call.advance s.1 s.2).1.lb.endpoint? t.call.args.endpointUrl).map fun ep => (now, ep)).or t.marked

/-- The outcome of `u` has been entered, and no other. -/
def Recorded (u : UpstreamCall) (t : ForwardTrace) : Prop :=
  ∃ timeoutSecs, t.updates = [outcomeOf timeoutSecs u.elapsedMs u.result]

/-- What the mark has left behind before this exit. -/
def Settled (t : ForwardTrace) : ForwardExit → Prop
  | .failure _ => ∃ now ep, t.marked = some (now, ep) ∧ ep.healthy = false
  | .rateLimited => ∃ now ep, t.marked = some (now, ep) ∧ ep.JustCooled now
  | .answered _ => t.marked = none

/-- What the trace of a call that the upstream answers with `u` says in each phase. -/
def Inv (u : UpstreamCall) (t : ForwardTrace) : Prop :=
  match t.call.phase with
  | .requested | .timed | .counted | .sending => t.updates = [] ∧ t.marked = none
  | .answered u' | .observed u' => u' = u ∧ t.updates = [] ∧ t.marked = none
  | .recorded u' => u' = u ∧ t.Recorded u ∧ t.marked = none
  | .reading body => u.exit = exitOfBody body ∧ t.Recorded u ∧ t.marked = none
  | .failing why => u.exit = .failure why ∧ t.Recorded u ∧ t.marked = none
  | .marked why => u.exit = .failure why ∧ t.Recorded u ∧ t.Settled (.failure why)
  | .throttled | .throttledFailed => u.exit = .rateLimited ∧ t.Recorded u ∧ t.marked = none
  | .returning exit | .returned exit => u.exit = exit ∧ t.Recorded u ∧ t.Settled exit
  | .unwound _ | .throttledUnwound => True

/-- What a step finds: the endpoint is listed, and an answer of the upstream is `u`. -/
structure Finds (url : String) (u : UpstreamCall) (s : World M × ForwardMove) : Prop where
  listed : (s.1.lb.endpoint? url).isSome
  answer : ∀ u', s.2 = .respond u' → u' = u

variable {u : UpstreamCall} {t : ForwardTrace} {s : World M × ForwardMove} {args : ForwardArgs}

/-- A step keeps the request. -/
@[simp] theorem step_args : (t.step s).call.args = t.call.args :=
  (forwardCounts_advance s.1 t.call s.2).1

/-- A step without an update or a mark moves the call only. -/
theorem step_of_quiet (hupdates : t.call.updatesAt s.1 s.2 = []) (hmarks : t.call.marksAt s.2 = none) :
    t.step s = { t with call := (t.call.advance s.1 s.2).2 } := by
  unfold step
  rw [hupdates, hmarks, List.append_nil]
  rfl

/-- **Every step keeps the invariant.** -/
theorem inv_step (h : Inv u t) (hs : Finds t.call.args.endpointUrl u s) : Inv u (t.step s) := by
  obtain ⟨⟨args, phase⟩, updates, marked⟩ := t
  obtain ⟨w, move⟩ := s
  obtain ⟨ep, hep⟩ := Option.isSome_iff_exists.mp hs.listed
  change w.lb.endpoint? args.endpointUrl = some ep at hep
  cases move with
  | respond u' =>
      have hu : u' = u := hs.answer u' rfl
      rw [step_of_quiet (by cases phase <;> rfl) (by cases phase <;> rfl)]
      cases phase with
      | sending => exact ⟨hu, h⟩
      | _ => exact h
  | proceed now =>
      cases phase with
      | observed u' =>
          obtain ⟨rfl, hnone, hmark⟩ := h
          change updates = [] at hnone
          subst hnone
          refine ⟨rfl, ⟨w.lb.timeoutSecs, ?_⟩, hmark⟩
          simp [step, ForwardCall.updatesAt, hep]
      | recorded u' =>
          obtain ⟨rfl, hrec, hmark⟩ := h
          change marked = none at hmark
          subst hmark
          rw [step_of_quiet rfl rfl]
          dsimp only
          rw [ForwardCall.advance_recorded]
          rcases u'.branch_cases with ⟨why, hbranch, hexit⟩ | ⟨hbranch, hexit⟩ | ⟨hbranch, hexit⟩
          · rw [hbranch]
            exact ⟨hexit, hrec, rfl⟩
          · rw [hbranch]
            exact ⟨hexit, hrec, rfl⟩
          · rw [hbranch]
            exact ⟨hexit, hrec, rfl⟩
      | reading body =>
          obtain ⟨hexit, hrec, hmark⟩ := h
          rw [step_of_quiet rfl rfl]
          rcases body with e | bytes
          · exact ⟨hexit, hrec, hmark⟩
          · exact ⟨hexit, hrec, hmark⟩
      | failing why =>
          obtain ⟨hexit, hrec, -⟩ := h
          obtain ⟨-, ep', hep', hdown⟩ := markUnhealthy_spec hep now
          have hadv := ForwardCall.advance_failing args why w now
          have hstep : step ⟨⟨args, .failing why⟩, updates, marked⟩ (w, .proceed now) =
              ⟨⟨args, if (markUnhealthy w args.endpointUrl now).2 then .unwound why else .marked why⟩,
                updates, some (now, ep')⟩ := by
            simp [step, ForwardCall.updatesAt, ForwardCall.marksAt, hadv, Option.mem_def.mp hep']
          rw [hstep]
          cases (markUnhealthy w args.endpointUrl now).2 with
          | true => trivial
          | false => exact ⟨hexit, hrec, now, ep', rfl, hdown⟩
      | throttledFailed =>
          obtain ⟨hexit, hrec, -⟩ := h
          obtain ⟨-, hleft⟩ := markRateLimited_spec hep now
          have hadv := ForwardCall.advance_throttledFailed args w now
          rcases hpanic : (markRateLimited w args.endpointUrl now).2 with _ | _
          · obtain ⟨ep', hep', hcooled⟩ := hleft hpanic
            have hstep : step ⟨⟨args, .throttledFailed⟩, updates, marked⟩ (w, .proceed now) =
                ⟨⟨args, .returning .rateLimited⟩, updates, some (now, ep')⟩ := by
              simp [step, ForwardCall.updatesAt, ForwardCall.marksAt, hadv, hpanic, Option.mem_def.mp hep']
            rw [hstep]
            exact ⟨hexit, hrec, now, ep', rfl, hcooled⟩
          · have hphase : (step ⟨⟨args, .throttledFailed⟩, updates, marked⟩
                (w, .proceed now)).call.phase = .throttledUnwound := by
              simp [step, hadv, hpanic]
            unfold Inv
            rw [hphase]
            trivial
      | requested | timed | counted | answered u' | marked why | throttled | returning exit =>
          rw [step_of_quiet rfl rfl]
          exact h
      | sending | unwound why | throttledUnwound | returned exit =>
          rw [step_of_quiet rfl rfl]
          exact h

/-! ## Whole calls -/

/-- The trace of a call that has taken these steps. -/
def after (args : ForwardArgs) (steps : List (World M × ForwardMove)) : ForwardTrace :=
  Runs.run step (start args) steps

section run

variable {steps : List (World M × ForwardMove)}

/-- **Every call keeps the invariant.** -/
theorem inv_after (hsteps : ∀ s ∈ steps, Finds args.endpointUrl u s) :
    (after args steps).call.args = args ∧ Inv u (after args steps) := by
  have hstart : (start args).call.args = args ∧ Inv u (start args) := ⟨rfl, rfl, rfl⟩
  refine Runs.invariant (fun t => t.call.args = args ∧ Inv u t) (Finds args.endpointUrl u) ?_ hsteps hstart
  rintro t s hs ⟨rfl, hinv⟩
  exact ⟨step_args, inv_step hinv hs⟩

/-- The mark has panicked. -/
def Unwound (t : ForwardTrace) : Prop :=
  match t.call.phase with
  | .unwound _ | .throttledUnwound => True
  | _ => False

/-- A step unwinds a call exactly if its mark triggers a cooldown that does not fit. -/
theorem unwound_step_iff (hlisted : (s.1.lb.endpoint? t.call.args.endpointUrl).isSome)
    (hrun : ¬ t.Unwound) : (t.step s).Unwound ↔ ¬ t.call.MarkFits s.1 s.2 := by
  obtain ⟨⟨args, phase⟩, updates, marked⟩ := t
  obtain ⟨w, move⟩ := s
  obtain ⟨ep, hep⟩ := Option.isSome_iff_exists.mp hlisted
  change w.lb.endpoint? args.endpointUrl = some ep at hep
  -- a step that makes no mark has nothing to fit, and does not unwind
  have hquiet : ∀ {t' : ForwardTrace}, ¬ t'.Unwound → (t'.Unwound ↔ ¬ True) := fun h => by simpa using h
  cases move with
  | respond u => cases phase <;> exact hquiet hrun
  | proceed now =>
      cases phase with
      | recorded u' =>
          apply hquiet
          unfold Unwound step
          rw [ForwardCall.advance_recorded]
          rcases u'.branch_cases with ⟨why, hbranch, -⟩ | ⟨hbranch, -⟩ | ⟨hbranch, -⟩
          all_goals
            rw [hbranch]
            exact id
      | reading body => cases body <;> exact hquiet id
      | failing why =>
          obtain ⟨hfits, -⟩ := markUnhealthy_spec hep now
          have hiff : (⟨args, .failing why⟩ : ForwardCall).MarkFits w (.proceed now) ↔
              (markUnhealthy w args.endpointUrl now).2 = false := by
            rw [hfits]
            simp [ForwardCall.MarkFits, hep]
          unfold Unwound step
          rw [hiff, ForwardCall.advance_failing]
          rcases (markUnhealthy w args.endpointUrl now).2 with _ | _ <;> simp
      | throttledFailed =>
          obtain ⟨hfits, -⟩ := markRateLimited_spec hep now
          have hiff : (⟨args, .throttledFailed⟩ : ForwardCall).MarkFits w (.proceed now) ↔
              (markRateLimited w args.endpointUrl now).2 = false := by
            rw [hfits]
            simp [ForwardCall.MarkFits, hep]
          unfold Unwound step
          rw [hiff, ForwardCall.advance_throttledFailed]
          rcases (markRateLimited w args.endpointUrl now).2 with _ | _ <;> simp
      | _ => exact hquiet hrun

/-- An unwound call takes no further step. -/
theorem unwound_step (h : t.Unwound) : (t.step s).Unwound := by
  obtain ⟨⟨args, phase⟩, updates, marked⟩ := t
  obtain ⟨w, move⟩ := s
  cases move with
  | respond u => cases phase <;> exact h
  | proceed now =>
      cases phase with
      | unwound why | throttledUnwound => trivial
      | _ => exact h.elim

/-- **A call is not unwound exactly if its mark fits the clock.** -/
theorem not_unwound_iff (hsteps : ∀ s ∈ steps, Finds args.endpointUrl u s) :
    ¬ (after args steps).Unwound ↔
      Runs.Along step (fun t s => t.call.MarkFits s.1 s.2) (start args) steps := by
  constructor
  · intro h
    -- with the endpoint listed, the first mark that does not fit unwinds the call
    have halong : Runs.Along step (fun t s => Finds t.call.args.endpointUrl u s → t.call.MarkFits s.1 s.2)
        (start args) steps := by
      apply Runs.along_of_not_final Unwound _ (fun _ _ => unwound_step) h
      intro t s hbad
      obtain ⟨hs, hfits⟩ := Classical.not_imp.mp hbad
      by_cases ht : t.Unwound
      · exact unwound_step ht
      · exact (unwound_step_iff hs.listed ht).mpr hfits
    refine (Runs.along_congr (fun t => t.call.args = args) (fun t s _ ht => step_args.trans ht) ?_
      hsteps rfl).mp halong
    rintro t s hs rfl
    exact ⟨fun h => h hs, fun h _ => h⟩
  · intro h
    refine (Runs.invariant_along (fun t => t.call.args = args ∧ ¬ t.Unwound) _ ?_
      (Runs.along_and_of_forall hsteps h) ⟨rfl, id⟩).2
    rintro t s ⟨hs, hfits⟩ ⟨rfl, ht⟩
    exact ⟨step_args, fun h => (unwound_step_iff hs.listed ht).mp h hfits⟩

/-- The call has made its mark, or has come too far to make one. -/
def PastMark (t : ForwardTrace) : Prop :=
  match t.call.phase with
  | .marked _ | .unwound _ | .throttledUnwound => True
  | .returning exit | .returned exit => ∀ bytes, exit ≠ .answered bytes
  | _ => False

/-- **A call that returns an answer has kept the endpoints.** -/
theorem along_lb {bytes : List UInt8} (h : (after args steps).call.phase = .returned (.answered bytes)) :
    Runs.Along step (fun t s => (t.call.advance s.1 s.2).1.lb = s.1.lb) (start args) steps := by
  have hend : ¬ (after args steps).PastMark := by
    unfold PastMark
    rw [h]
    exact fun h => h bytes rfl
  apply Runs.along_of_not_final PastMark _ _ hend
  · intro t s hlb
    obtain ⟨⟨args, phase⟩, updates, marked⟩ := t
    obtain ⟨w, move⟩ := s
    have hmark : (⟨args, phase⟩ : ForwardCall).marksAt move ≠ none := fun hnone =>
      hlb ((ForwardCall.frame_advance _ w move).2 hnone)
    cases move with
    | respond u => cases phase <;> exact absurd rfl hmark
    | proceed now =>
        cases phase with
        | failing why =>
            unfold PastMark step
            rw [ForwardCall.advance_failing]
            rcases (markUnhealthy w args.endpointUrl now).2 with _ | _ <;> trivial
        | throttledFailed =>
            unfold PastMark step
            rw [ForwardCall.advance_throttledFailed]
            rcases (markRateLimited w args.endpointUrl now).2 with _ | _ <;> simp
        | _ => exact absurd rfl hmark
  · intro t s hpast
    obtain ⟨⟨args, phase⟩, updates, marked⟩ := t
    obtain ⟨w, move⟩ := s
    cases move with
    | respond u => cases phase <;> exact hpast
    | proceed now =>
        cases phase with
        | marked why =>
            intro bytes hbytes
            cases hbytes
        | unwound why | throttledUnwound => trivial
        | returning exit | returned exit => exact hpast
        | _ => exact hpast.elim

/-- How a call has ended, by what its upstream has answered. -/
theorem outcome_cases {displayStatus : ℕ → String} {answer : Outcome LoadBalancerError (List UInt8)}
    (hsteps : ∀ s ∈ steps, Finds args.endpointUrl u s)
    (hanswer : (after args steps).call.outcome? displayStatus = some answer) :
    (answer = .panic ∧ (after args steps).Unwound) ∨
    (¬ (after args steps).Unwound ∧ (after args steps).call.phase = .returned u.exit ∧
      (after args steps).Recorded u ∧ (after args steps).Settled u.exit ∧
      answer = match u.exit.result displayStatus args.endpointUrl with
        | .ok bytes => .ok bytes
        | .error e => .err e) := by
  obtain ⟨hargs, hinv⟩ := inv_after hsteps
  revert hargs hinv hanswer
  generalize after args steps = t
  intro hanswer hargs hinv
  unfold ForwardCall.outcome? at hanswer
  unfold Inv at hinv
  unfold Unwound
  rw [hargs] at hanswer
  split at hanswer
  · rename_i exit hphase
    rw [hphase] at hinv ⊢
    obtain ⟨rfl, hrec, hsettled⟩ := hinv
    refine .inr ⟨id, rfl, hrec, hsettled, ?_⟩
    split at hanswer <;> simp_all
  · rename_i why hphase
    rw [hphase]
    exact .inl ⟨(Option.some.inj hanswer).symm, trivial⟩
  · rename_i hphase
    rw [hphase]
    exact .inl ⟨(Option.some.inj hanswer).symm, trivial⟩
  · cases hanswer

end run

/-! ## Calls that are driven to their end -/

/-- At most how many rounds a call is from its end. -/
def rounds : ForwardPhase → ℕ
  | .requested => 11
  | .timed => 10
  | .counted => 9
  | .sending => 8
  | .answered _ => 7
  | .observed _ => 6
  | .recorded _ => 5
  | .reading _ => 4
  | .failing _ | .throttled => 3
  | .marked _ | .throttledFailed => 2
  | .returning _ => 1
  | .returned _ | .unwound _ | .throttledUnwound => 0

/-- A call that is at its end has an outcome. -/
theorem outcome_of_rounds (displayStatus : ℕ → String) (h : rounds t.call.phase = 0) :
    (t.call.outcome? displayStatus).isSome := by
  obtain ⟨⟨args, phase⟩, updates, marked⟩ := t
  cases phase with
  | returned exit =>
      unfold ForwardCall.outcome?
      dsimp only
      split <;> rfl
  | unwound why | throttledUnwound => rfl
  | _ => cases h

/-- An answer of the upstream takes no call away from its end, and ends the wait for it. -/
theorem rounds_respond (t : ForwardTrace) (w : World M) (u : UpstreamCall) :
    rounds (t.step (w, .respond u)).call.phase ≤ rounds t.call.phase ∧
      (t.step (w, .respond u)).call.phase ≠ .sending := by
  obtain ⟨⟨args, phase⟩, updates, marked⟩ := t
  cases phase <;> simp [step, ForwardCall.advance, rounds]

/-- A step of its own takes a call nearer to its end, unless it waits. -/
theorem rounds_proceed (t : ForwardTrace) (w : World M) (now : Instant) (h : t.call.phase ≠ .sending) :
    rounds (t.step (w, .proceed now)).call.phase ≤ rounds t.call.phase - 1 := by
  obtain ⟨⟨args, phase⟩, updates, marked⟩ := t
  unfold step
  dsimp only
  cases phase with
  | sending => exact absurd rfl h
  | recorded u =>
      rw [ForwardCall.advance_recorded]
      rcases u.branch_cases with ⟨why, hbranch, -⟩ | ⟨hbranch, -⟩ | ⟨hbranch, -⟩
      all_goals
        rw [hbranch]
        simp [rounds]
  | reading body => cases body <;> simp [ForwardCall.advance, rounds]
  | failing why =>
      rw [ForwardCall.advance_failing]
      rcases (markUnhealthy w args.endpointUrl now).2 with _ | _ <;> simp [rounds]
  | throttledFailed =>
      rw [ForwardCall.advance_throttledFailed]
      rcases (markRateLimited w args.endpointUrl now).2 with _ | _ <;> simp [rounds]
  | _ => simp [ForwardCall.advance, rounds]

/-- **Every call ends**: eleven rounds, in each of which the upstream answers if it is awaited and the call
then takes a step, take it to its outcome, whatever the worlds are. -/
theorem outcome_of_driven (displayStatus : ℕ → String) (args : ForwardArgs)
    (drive : List ((World M × UpstreamCall) × World M × Instant)) (h : 11 ≤ drive.length) :
    ((after args (drive.flatMap fun r => [(r.1.1, .respond r.1.2), (r.2.1, .proceed r.2.2)])).call.outcome?
      displayStatus).isSome := by
  have hrun : ∀ (drive : List ((World M × UpstreamCall) × World M × Instant)) (t : ForwardTrace),
      rounds (Runs.run step t
        (drive.flatMap fun r => [(r.1.1, .respond r.1.2), (r.2.1, .proceed r.2.2)])).call.phase ≤
          rounds t.call.phase - drive.length := by
    intro drive
    induction drive with
    | nil => simp
    | cons r drive ih =>
        intro t
        obtain ⟨hle, hnext⟩ := rounds_respond t r.1.1 r.1.2
        have hstep := rounds_proceed (t.step (r.1.1, .respond r.1.2)) r.2.1 r.2.2 hnext
        refine (ih ((t.step (r.1.1, .respond r.1.2)).step (r.2.1, .proceed r.2.2))).trans ?_
        rw [List.length_cons]
        omega
  apply outcome_of_rounds
  have hend := hrun drive (start args)
  have hstart : rounds (start args).call.phase = 11 := rfl
  unfold after
  omega

end ForwardTrace

end AzothBalancer
