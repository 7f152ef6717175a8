import AzothBalancer.ForwardTrace
import AzothBalancer.Instances

/-!
# What a request tells the metrics and what it returns

`forward_request` classifies the outcome of the upstream call twice: once for the metrics, as soon as the
headers are there, and once for the mark and for what it returns, after the body. `forward_outcome_iff` says
when the two agree: exactly if no body fails after a status of success and no mark panics.
`body_failure_disagrees` is a call in which the body fails.
-/

namespace AzothBalancer

variable {M : Meter}

namespace ForwardTrace

variable {u : UpstreamCall} {args : ForwardArgs}

/-- Metrics, mark and answer of a call agree. -/
structure Agrees (args : ForwardArgs) (u : UpstreamCall) (steps : List (World M × ForwardMove))
    (answer : Outcome LoadBalancerError (List UInt8)) : Prop where
  /-- It returns an error exactly if its only update is a failure. -/
  error_iff : (∃ e, answer = .err e) ↔
    ∃ kind latencyMs, (after args steps).updates = [.failure kind latencyMs]
  /-- After an error the endpoint is unhealthy or has just been given a cooldown, of whatever length. -/
  marked : ∀ e, answer = .err e → ∃ now ep, (after args steps).marked = some (now, ep) ∧
    (ep.healthy = false ∨ ep.JustCooled now)
  /-- Otherwise its only update is a success, and no step of it touches an endpoint. -/
  untouched : ∀ bytes, answer = .ok bytes → (after args steps).updates = [.success u.elapsedMs] ∧
    Runs.Along step (fun t s => (t.call.advance s.1 s.2).1.lb = s.1.lb) (start args) steps

section agreement

variable {steps : List (World M × ForwardMove)} {displayStatus : ℕ → String}
  {answer : Outcome LoadBalancerError (List UInt8)}

/-- A call returns exactly if it is not unwound. -/
theorem ne_panic_iff (hsteps : ∀ s ∈ steps, Finds args.endpointUrl u s)
    (hanswer : (after args steps).call.outcome? displayStatus = some answer) :
    answer ≠ .panic ↔ ¬ (after args steps).Unwound := by
  rcases outcome_cases hsteps hanswer with ⟨rfl, hun⟩ | ⟨hun, -, -, -, rfl⟩
  · simp [hun]
  · refine ⟨fun _ => hun, fun _ => ?_⟩
    split <;> simp

/-- **A call that returns agrees exactly if no body fails.** -/
theorem agrees_iff (hsteps : ∀ s ∈ steps, Finds args.endpointUrl u s)
    (hanswer : (after args steps).call.outcome? displayStatus = some answer) (hreturns : answer ≠ .panic) :
    Agrees args u steps answer ↔ ¬ u.BodyFails := by
  rcases outcome_cases hsteps hanswer with ⟨rfl, -⟩ | ⟨-, hphase, ⟨timeoutSecs, hupdates⟩, hsettled, hresult⟩
  · exact absurd rfl hreturns
  rcases u.exit_cases timeoutSecs with
    ⟨hbody, bytes, hexit, hsuccess⟩ | ⟨hbody, ⟨e, hexit⟩, hsuccess⟩ | ⟨hbody, hexit, kind, latencyMs, hfailure⟩
  · -- an answer: one success, and no step made a mark
    rw [hexit] at hphase hresult
    rw [hsuccess] at hupdates
    simp only [ForwardExit.result] at hresult
    subst hresult
    refine iff_of_true ⟨?_, ?_, fun _ _ => ⟨hupdates, along_lb hphase⟩⟩ hbody
    · simp [hupdates]
    · rintro e ⟨⟩
  · -- the body fails: an error after a success
    rw [hexit] at hresult
    rw [hsuccess] at hupdates
    simp only [ForwardExit.result] at hresult
    subst hresult
    refine iff_of_false (fun h => ?_) (not_not_intro hbody)
    obtain ⟨kind, latencyMs, hfailure⟩ := h.error_iff.mp ⟨_, rfl⟩
    rw [hupdates] at hfailure
    cases hfailure
  · -- an error: one failure, and a mark
    rw [hfailure] at hupdates
    have herr : ∃ e, answer = .err e := by
      rcases hu : u.exit with why | _ | bytes
      · rw [hu] at hresult
        exact ⟨_, hresult⟩
      · rw [hu] at hresult
        exact ⟨_, hresult⟩
      · exact absurd hu (hexit bytes)
    refine iff_of_true ⟨?_, ?_, ?_⟩ hbody
    · exact iff_of_true herr ⟨kind, latencyMs, hupdates⟩
    · intro _ _
      rcases hu : u.exit with why | _ | bytes
      · rw [hu] at hsettled
        obtain ⟨now, ep, hmarked, hdown⟩ := hsettled
        exact ⟨now, ep, hmarked, .inl hdown⟩
      · rw [hu] at hsettled
        obtain ⟨now, ep, hmarked, hcooled⟩ := hsettled
        exact ⟨now, ep, hmarked, .inr hcooled⟩
      · exact absurd hu (hexit bytes)
    · obtain ⟨e, rfl⟩ := herr
      rintro bytes ⟨⟩

end agreement

end ForwardTrace

/-- **Metrics, mark and answer agree exactly if no body fails.** A call that the upstream answers with `u`
takes these steps, each in a world of its own in which the endpoint is listed. It returns, and metrics, mark
and answer agree, exactly if `u` is not a success whose body cannot be read and the cooldown of the mark
fits the clock; where it returns, exactly if `u` is no such success. The cooldown may be one of zero seconds
(`RpcEndpoint.JustCooled`).
Source: `forwarder.rs` `forward_request` -/
theorem forward_outcome_iff (displayStatus : ℕ → String) (args : ForwardArgs) (u : UpstreamCall)
    (steps : List (World M × ForwardMove))
    (hsteps : ∀ s ∈ steps, ForwardTrace.Finds args.endpointUrl u s)
    (answer : Outcome LoadBalancerError (List UInt8))
    (hanswer : (ForwardTrace.after args steps).call.outcome? displayStatus = some answer) :
    ((answer ≠ .panic ∧ ForwardTrace.Agrees args u steps answer) ↔
      ¬ u.BodyFails ∧ Runs.Along ForwardTrace.step (fun t s => t.call.MarkFits s.1 s.2)
        (ForwardTrace.start args) steps) ∧
    (answer ≠ .panic → (ForwardTrace.Agrees args u steps answer ↔ ¬ u.BodyFails)) := by
  refine ⟨?_, ForwardTrace.agrees_iff hsteps hanswer⟩
  rw [← ForwardTrace.not_unwound_iff hsteps, ← ForwardTrace.ne_panic_iff hsteps hanswer, and_comm]
  exact and_congr_left fun hreturns => ForwardTrace.agrees_iff hsteps hanswer hreturns

/-! ## A call run alone -/

/-- The steps of a call run alone, each with the world it finds. -/
def ForwardCall.stepsAlone (w : World M) (call : ForwardCall) :
    List ForwardMove → List (World M × ForwardMove)
  | [] => []
  | move :: moves => (w, move) :: stepsAlone (call.advance w move).1 (call.advance w move).2 moves

/-- Every step of a call is in the frame of an operation. -/
theorem ForwardCall.keeps_advance (w : World M) (call : ForwardCall) (move : ForwardMove) :
    w.Keeps (call.advance w move).1 := by
  obtain ⟨args, phase⟩ := call
  have hcount : ∀ prom, w.Keeps { w with prom := prom } := fun _ => World.SameStore.keeps ⟨rfl, rfl, rfl⟩
  cases move with
  | respond u => cases phase <;> exact .refl w
  | proceed now =>
      cases phase with
      | requested | timed | counted | answered u | marked why | throttled => exact hcount _
      | observed u => exact keeps_exec w (.updateMetrics args.endpointUrl u.result u.elapsedMs)
      | recorded u =>
          simp only [advance]
          split
          · exact hcount _
          · exact .refl w
      | reading body =>
          rcases body with e | bytes
          · exact .refl w
          · exact hcount _
      | failing why =>
          rw [advance_failing]
          exact keeps_exec w (.markUnhealthy args.endpointUrl now)
      | throttledFailed =>
          rw [advance_throttledFailed]
          exact keeps_exec w (.markRateLimited args.endpointUrl now)
      | _ => exact .refl w

/-- A call run alone finds its endpoint listed, if it does at first. -/
theorem ForwardCall.finds_stepsAlone {url : String} {u : UpstreamCall} (moves : List ForwardMove)
    (hmoves : ∀ u', .respond u' ∈ moves → u' = u) (w : World M) (call : ForwardCall)
    (h : (w.lb.endpoint? url).isSome) :
    ∀ s ∈ call.stepsAlone w moves, ForwardTrace.Finds url u s := by
  induction moves generalizing w call with
  | nil => simp [stepsAlone]
  | cons move moves ih =>
      intro s hs
      have hlisted : ((call.advance w move).1.lb.endpoint? url).isSome := by
        rw [Option.isSome_iff_ne_none] at h ⊢
        exact fun hnone => h ((keeps_advance w call move).endpoint?_eq_none.mp hnone)
      rcases List.mem_cons.mp hs with rfl | hs
      · exact ⟨h, fun u' hu => hmoves u' (hu ▸ List.mem_cons_self)⟩
      · exact ih (fun u' hu => hmoves u' (List.mem_cons_of_mem _ hu)) _ _ hlisted s hs

/-- The moves of a call that the upstream answers so, with one clock value. -/
def movesAt (u : UpstreamCall) (now : Instant) : List ForwardMove :=
  List.replicate 3 (.proceed now) ++ .respond u :: List.replicate 8 (.proceed now)

/-- They have one answer. -/
theorem respond_mem_movesAt {u u' : UpstreamCall} {now : Instant} (h : .respond u' ∈ movesAt u now) :
    u' = u := by
  simpa [movesAt] using h

/-- A request to the endpoint of the sample world. -/
def sampleRequest : ForwardArgs := ⟨[], "http://a", "eth_call"⟩

/-- Its steps, run alone in the sample world. -/
def sampleSteps (u : UpstreamCall) : List (World leakyBucket × ForwardMove) :=
  ForwardCall.stepsAlone sampleWorld ⟨sampleRequest, .requested⟩ (movesAt u 7)

/-- They find the endpoint listed, and one answer. -/
theorem finds_sampleSteps (u : UpstreamCall) : ∀ s ∈ sampleSteps u, ForwardTrace.Finds "http://a" u s :=
  ForwardCall.finds_stepsAlone _ (fun _ => respond_mem_movesAt) sampleWorld _ (by decide)

/-- `forward_outcome_iff` for a 429. -/
theorem forward_outcome_iff_sample :
    ForwardTrace.Agrees sampleRequest { result := .response 429, elapsedMs := 5 }
      (sampleSteps { result := .response 429, elapsedMs := 5 }) (.err (.rateLimited "http://a")) := by
  have hanswer : (ForwardTrace.after sampleRequest (sampleSteps { result := .response 429, elapsedMs := 5
      })).call.outcome? (fun _ => "") = some (.err (.rateLimited "http://a")) := rfl
  apply ((forward_outcome_iff _ sampleRequest _ _ (finds_sampleSteps _) _ hanswer).2 (by simp)).mpr
  rintro ⟨status, e, hstatus, hok, -⟩
  cases hstatus
  cases hok

/-- A response of success whose body cannot be read. -/
def brokenBody : UpstreamCall where
  result := .response 200
  elapsedMs := 5
  body := .error "operation timed out"

/-- **A body that cannot be read is an error after a success**: the headers come with 200, the metrics count
a success, and the call returns an error.
Source: `forwarder.rs` `forward_request` -/
theorem body_failure_disagrees : ¬ ∀ (M : Meter) (displayStatus : ℕ → String) (args : ForwardArgs)
    (u : UpstreamCall) (steps : List (World M × ForwardMove)),
    (∀ s ∈ steps, ForwardTrace.Finds args.endpointUrl u s) →
    ∀ answer, (ForwardTrace.after args steps).call.outcome? displayStatus = some answer →
      ForwardTrace.Agrees args u steps answer := by
  intro h
  have hagrees := h leakyBucket (fun _ => "") sampleRequest brokenBody _ (finds_sampleSteps _)
    (.err (.upstreamError "operation timed out")) rfl
  obtain ⟨kind, latencyMs, hupdates⟩ := hagrees.error_iff.mp ⟨_, rfl⟩
  have hone : (ForwardTrace.after sampleRequest (sampleSteps brokenBody)).updates = [.success 5] := rfl
  rw [hone] at hupdates
  cases hupdates

end AzothBalancer
