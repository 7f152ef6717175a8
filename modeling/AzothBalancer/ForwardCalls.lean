import AzothBalancer.Lib.Runs
import AzothBalancer.RegistryFrame

/-!
# Requests in flight

`forward_request` as a machine (`ForwardCall.advance`): one step for every counter it writes, for the
answer of the upstream, for the metrics section and for the mark, so that anything can happen between
two of them. A call whose mark panics is over there (`ForwardPhase.unwound`), without having returned.

`ForwardPhase.written` lists the families a call has counted itself in when it stands in a phase. The
lists only grow, by one family at a time (`forwardCounts_advance`), so what a phase lists is what the call has
added to the registry so far.

`exists_runAlone_forwardRequest`: the machine run alone is `forwardRequest`.
-/

namespace AzothBalancer

variable {M : Meter}

/-! ## Exits -/

/-- A request to forward. -/
structure ForwardArgs where
  requestBody : List UInt8
  endpointUrl : String
  method : String

/-- Why an endpoint is about to be marked unhealthy. -/
inductive ForwardFailure where
  | timedOut (errorText : String)
  | network (errorText : String)
  | status (code : ℕ)
  /-- The body could not be read. -/
  | body (errorText : String)

/-- The error of a failure. -/
def ForwardFailure.error (displayStatus : ℕ → String) : ForwardFailure → LoadBalancerError
  | .timedOut e | .network e | .body e => .upstreamError e
  | .status code => statusError displayStatus code

/-- How a call ends. -/
inductive ForwardExit where
  | failure (why : ForwardFailure)
  | rateLimited
  | answered (bytes : List UInt8)

/-- What the call returns.
Source: `forwarder.rs` `forward_request` -/
def ForwardExit.result (displayStatus : ℕ → String) (endpointUrl : String) :
    ForwardExit → Except LoadBalancerError (List UInt8)
  | .failure why => .error (why.error displayStatus)
  | .rateLimited => .error (.rateLimited endpointUrl)
  | .answered bytes => .ok bytes

/-! ## Calls -/

/-- Where a call stands.
Source: `forwarder.rs` `forward_request` -/
inductive ForwardPhase where
  /-- The call has not been entered. -/
  | requested
  /-- The timer runs. -/
  | timed
  | counted
  /-- The answer of the upstream is awaited. -/
  | sending
  | answered (u : UpstreamCall)
  | observed (u : UpstreamCall)
  /-- The outcome is in the endpoint's metrics. -/
  | recorded (u : UpstreamCall)
  /-- The response is a success and its body is awaited. -/
  | reading (body : Except String (List UInt8))
  /-- About to mark the endpoint unhealthy. -/
  | failing (why : ForwardFailure)
  /-- Marked, and not counted as failed yet. -/
  | marked (why : ForwardFailure)
  /-- The mark has panicked. -/
  | unwound (why : ForwardFailure)
  /-- The 429 is counted. -/
  | throttled
  /-- The 429 is counted as a failure as well; about to mark the endpoint rate limited. -/
  | throttledFailed
  /-- The mark after a 429 has panicked. -/
  | throttledUnwound
  /-- Everything is counted. -/
  | returning (exit : ForwardExit)
  | returned (exit : ForwardExit)

/-- A request and where its call stands. -/
structure ForwardCall where
  args : ForwardArgs
  phase : ForwardPhase := .requested

/-- What a step takes from outside the call. -/
inductive ForwardMove where
  /-- The next step; `now` is the clock value it reads, if it does. -/
  | proceed (now : Instant)
  /-- The upstream's answer. -/
  | respond (u : UpstreamCall)

/-- The registry counts one more. -/
def World.count (w : World M) (f : Family) (labels : List String) : World M :=
  { w with prom := w.prom.inc f labels }

/-- Where the answer of the upstream leads.
Source: `forwarder.rs` `forward_request`, from `let response = match response_result` on -/
def UpstreamCall.branch (u : UpstreamCall) : ForwardPhase :=
  match u.result with
  | .timeout => .failing (.timedOut u.errorText)
  | .networkError => .failing (.network u.errorText)
  | .response status =>
      if status = 429 then .throttled
      else if !isSuccess status then .failing (.status status)
      else .reading u.body

/-- What is counted on the way into that branch. -/
def UpstreamCall.cause (u : UpstreamCall) : Option Family :=
  match u.result with
  | .timeout => some .requestTimeouts
  | .networkError => none
  | .response status => if status = 429 then some .upstreamRateLimitedTotal else none

/-- One step of a call. A move that does not fit the phase does nothing.
Source: `forwarder.rs` `forward_request` -/
def ForwardCall.advance (w : World M) (call : ForwardCall) (move : ForwardMove) :
    World M × ForwardCall :=
  let url := call.args.endpointUrl
  match call.phase, move with
  | .requested, .proceed _ =>
      ({ w with prom := w.prom.incBy .requestLatencyPerEndpoint [url] 0 }, { call with phase := .timed })
  | .timed, .proceed _ => (w.count .rpcRequestsTotal [], { call with phase := .counted })
  | .counted, .proceed _ =>
      (w.count .rpcRequestsMethod [call.args.method], { call with phase := .sending })
  | .sending, .respond u => (w, { call with phase := .answered u })
  | .answered u, .proceed _ =>
      (w.count .requestLatencyPerEndpoint [url], { call with phase := .observed u })
  | .observed u, .proceed _ =>
      (updateMetrics w url u.result u.elapsedMs, { call with phase := .recorded u })
  | .recorded u, .proceed _ =>
      match u.cause with
      | some f => (w.count f [url], { call with phase := u.branch })
      | none => (w, { call with phase := u.branch })
  | .reading body, .proceed _ =>
      match body with
      | .error e => (w, { call with phase := .failing (.body e) })
      | .ok bytes =>
          (w.count (bodyFamily bytes) [url], { call with phase := .returning (.answered bytes) })
  | .failing why, .proceed now =>
      match markUnhealthy w url now with
      | (w, true) => (w, { call with phase := .unwound why })
      | (w, false) => (w, { call with phase := .marked why })
  | .marked why, .proceed _ =>
      (w.count .rpcRequestsFailed [url], { call with phase := .returning (.failure why) })
  | .throttled, .proceed _ =>
      (w.count .rpcRequestsFailed [url], { call with phase := .throttledFailed })
  | .throttledFailed, .proceed now =>
      match markRateLimited w url now with
      | (w, true) => (w, { call with phase := .throttledUnwound })
      | (w, false) => (w, { call with phase := .returning .rateLimited })
  | .returning exit, .proceed _ => (w, { call with phase := .returned exit })
  | _, _ => (w, call)

/-! ## What a call has counted -/

/-- What only `forward_request` counts. -/
def requestFamilies : List Family :=
  [.rpcRequestsTotal, .rpcRequestsMethod, .rpcRequestsSucceeded, .rpcRequestsFailed, .requestTimeouts,
    .upstreamRateLimitedTotal, .requestLatencyPerEndpoint]

/-- Nothing else counts it. -/
theorem not_mem_of_mem_requestFamilies {f : Family} (hf : f ∈ requestFamilies) :
    f ∉ operationFamilies ++ gaugeFamilies := by
  have hall : ∀ f ∈ requestFamilies, f ∉ operationFamilies ++ gaugeFamilies := by decide
  exact hall f hf

/-- The series of a family that a call counts itself in. -/
def ForwardArgs.labels (args : ForwardArgs) : Family → List String
  | .rpcRequestsTotal => []
  | .rpcRequestsMethod => [args.method]
  | _ => [args.endpointUrl]

/-- What is counted before the mark of a failure. -/
def ForwardFailure.written : ForwardFailure → List Family
  | .timedOut _ => [.requestTimeouts]
  | _ => []

/-- What is counted on the way to an exit, after the answer of the upstream. -/
def ForwardExit.written : ForwardExit → List Family
  | .failure why => why.written ++ [.rpcRequestsFailed]
  | .rateLimited => [.upstreamRateLimitedTotal, .rpcRequestsFailed]
  | .answered bytes => [bodyFamily bytes]

/-- What every request is counted in. -/
def commonFamilies : List Family :=
  [.rpcRequestsTotal, .rpcRequestsMethod, .requestLatencyPerEndpoint]

/-- What a call has counted itself in, in order. -/
def ForwardPhase.written : ForwardPhase → List Family
  | .requested | .timed => []
  | .counted => [.rpcRequestsTotal]
  | .sending | .answered _ => [.rpcRequestsTotal, .rpcRequestsMethod]
  | .observed _ | .recorded _ | .reading _ => commonFamilies
  | .failing why | .marked why | .unwound why => commonFamilies ++ why.written
  | .throttled => commonFamilies ++ [.upstreamRateLimitedTotal]
  | .throttledFailed | .throttledUnwound =>
      commonFamilies ++ [.upstreamRateLimitedTotal, .rpcRequestsFailed]
  | .returning exit | .returned exit => commonFamilies ++ exit.written

/-- The counter of a body belongs to the requests. -/
theorem bodyFamily_mem (bytes : List UInt8) : bodyFamily bytes ∈ requestFamilies := by
  unfold bodyFamily
  split <;> decide

/-- A body is counted under its endpoint. -/
theorem labels_bodyFamily (args : ForwardArgs) (bytes : List UInt8) :
    args.labels (bodyFamily bytes) = [args.endpointUrl] := by
  unfold bodyFamily
  split <;> rfl

/-- The branch taken counts what it says. -/
theorem written_branch (u : UpstreamCall) :
    u.branch.written = commonFamilies ++ u.cause.toList := by
  obtain ⟨result, elapsedMs, errorText, body⟩ := u
  cases result with
  | timeout | networkError => rfl
  | response status =>
      by_cases h429 : status = 429
      · simp [UpstreamCall.branch, UpstreamCall.cause, ForwardPhase.written, h429]
      · by_cases hok : isSuccess status <;>
          simp [UpstreamCall.branch, UpstreamCall.cause, ForwardPhase.written, ForwardFailure.written,
            h429, hok]

/-- The cause of a branch is counted under the endpoint. -/
theorem cause_spec (args : ForwardArgs) {u : UpstreamCall} {f : Family} (h : u.cause = some f) :
    f ∈ requestFamilies ∧ args.labels f = [args.endpointUrl] := by
  unfold UpstreamCall.cause at h
  split at h
  · cases h
    exact ⟨by decide, rfl⟩
  · cases h
  · split at h
    · cases h
      exact ⟨by decide, rfl⟩
    · cases h

/-- Whether a step counts, and what. -/
inductive ForwardCounts (w : World M) (call : ForwardCall) (w' : World M) (call' : ForwardCall) :
    Prop where
  /-- The step counts nothing. -/
  | nothing : call'.phase.written = call.phase.written →
      (∀ f ∈ requestFamilies, ∀ labels, w'.prom.value f labels = w.prom.value f labels) →
      ForwardCounts w call w' call'
  /-- The step counts the call in one more family. -/
  | one (f : Family) : f ∈ requestFamilies → call'.phase.written = call.phase.written ++ [f] →
      w' = w.count f (call.args.labels f) → ForwardCounts w call w' call'

/-- **Every step of a call**: it keeps the request and counts at most once, into the family its new
phase lists.
Source: `forwarder.rs` `forward_request` -/
theorem forwardCounts_advance (w : World M) (call : ForwardCall) (move : ForwardMove) :
    (call.advance w move).2.args = call.args ∧
      ForwardCounts w call (call.advance w move).1 (call.advance w move).2 := by
  obtain ⟨args, phase⟩ := call
  -- a mark, or any other operation, counts no request
  have hop : ∀ op, ∀ f ∈ requestFamilies, ∀ labels,
      (w.exec op).1.prom.value f labels = w.prom.value f labels := by
    intro op f hf labels
    have hout := not_mem_of_mem_requestFamilies hf
    rw [List.mem_append, not_or] at hout
    exact value_exec w op hout.1 labels
  have hstay : ForwardCounts w ⟨args, phase⟩ w ⟨args, phase⟩ := .nothing rfl fun _ _ _ => rfl
  cases move with
  | respond u =>
      cases phase with
      | sending => exact ⟨rfl, .nothing rfl fun _ _ _ => rfl⟩
      | _ => exact ⟨rfl, hstay⟩
  | proceed now =>
      cases phase with
      | requested =>
          refine ⟨rfl, .nothing rfl fun f _ labels => ?_⟩
          simp [ForwardCall.advance]
      | timed => exact ⟨rfl, .one .rpcRequestsTotal (by decide) rfl rfl⟩
      | counted => exact ⟨rfl, .one .rpcRequestsMethod (by decide) rfl rfl⟩
      | sending => exact ⟨rfl, hstay⟩
      | answered u => exact ⟨rfl, .one .requestLatencyPerEndpoint (by decide) rfl rfl⟩
      | observed u => exact ⟨rfl, .nothing rfl (hop (.updateMetrics args.endpointUrl u.result u.elapsedMs))⟩
      | recorded u =>
          have hbranch := written_branch u
          cases hcause : u.cause with
          | none =>
              simp only [ForwardCall.advance, hcause, true_and]
              refine .nothing ?_ fun _ _ _ => rfl
              rw [hbranch, hcause]
              rfl
          | some f =>
              obtain ⟨hf, hlabels⟩ := cause_spec args hcause
              simp only [ForwardCall.advance, hcause, true_and]
              refine .one f hf ?_ ?_
              · rw [hbranch, hcause]
                rfl
              · rw [hlabels]
      | reading body =>
          cases body with
          | error e =>
              refine ⟨rfl, .nothing ?_ fun _ _ _ => rfl⟩
              simp [ForwardCall.advance, ForwardPhase.written, ForwardFailure.written]
          | ok bytes =>
              refine ⟨rfl, .one (bodyFamily bytes) (bodyFamily_mem bytes) rfl ?_⟩
              rw [labels_bodyFamily]
              rfl
      | failing why =>
          have hmark := hop (.markUnhealthy args.endpointUrl now)
          simp only [World.exec] at hmark
          unfold ForwardCall.advance
          dsimp only
          split
          · rename_i w' hw'
            rw [hw'] at hmark
            exact ⟨rfl, .nothing rfl hmark⟩
          · rename_i w' hw'
            rw [hw'] at hmark
            exact ⟨rfl, .nothing rfl hmark⟩
      | marked why =>
          refine ⟨rfl, .one .rpcRequestsFailed (by decide) ?_ rfl⟩
          simp [ForwardCall.advance, ForwardPhase.written, ForwardExit.written]
      | unwound why => exact ⟨rfl, hstay⟩
      | throttled => exact ⟨rfl, .one .rpcRequestsFailed (by decide) rfl rfl⟩
      | throttledFailed =>
          have hmark := hop (.markRateLimited args.endpointUrl now)
          simp only [World.exec] at hmark
          unfold ForwardCall.advance
          dsimp only
          split
          · rename_i w' hw'
            rw [hw'] at hmark
            exact ⟨rfl, .nothing rfl hmark⟩
          · rename_i w' hw'
            rw [hw'] at hmark
            exact ⟨rfl, .nothing rfl hmark⟩
      | throttledUnwound => exact ⟨rfl, hstay⟩
      | returning exit => exact ⟨rfl, .nothing rfl fun _ _ _ => rfl⟩
      | returned exit => exact ⟨rfl, hstay⟩

/-! ## A call run alone -/

/-- The steps of one call with nothing in between. -/
def ForwardCall.runAlone (w : World M) (call : ForwardCall) (moves : List ForwardMove) :
    World M × ForwardCall :=
  Runs.run (fun (s : World M × ForwardCall) move => s.2.advance s.1 move) (w, call) moves

/-- How a call has ended, if it has. -/
def ForwardCall.outcome? (displayStatus : ℕ → String) (call : ForwardCall) :
    Option (Outcome LoadBalancerError (List UInt8)) :=
  match call.phase with
  | .returned exit =>
      match exit.result displayStatus call.args.endpointUrl with
      | .ok bytes => some (.ok bytes)
      | .error e => some (.err e)
  | .unwound _ | .throttledUnwound => some .panic
  | _ => none

/-- The call has ended like this, in this world. -/
def ForwardCall.EndsAs (displayStatus : ℕ → String)
    (answer : Outcome LoadBalancerError (List UInt8) × World M) (s : World M × ForwardCall) : Prop :=
  s.1 = answer.2 ∧ s.2.outcome? displayStatus = some answer.1

section alone

variable (displayStatus : ℕ → String) (w : World M) (args : ForwardArgs) (now : Instant)

/-- A failure run to its end. -/
theorem endsAs_failing (why : ForwardFailure) :
    ForwardCall.EndsAs displayStatus
      (failUnhealthy w args.endpointUrl (why.error displayStatus) now)
      (ForwardCall.runAlone w ⟨args, .failing why⟩ [.proceed now, .proceed now, .proceed now]) := by
  rcases hmark : markUnhealthy w args.endpointUrl now with ⟨w', _ | _⟩ <;>
    simp [ForwardCall.EndsAs, ForwardCall.runAlone, ForwardCall.advance, failUnhealthy, hmark,
      ForwardCall.outcome?, ForwardExit.result, World.count]

/-- A 429 run to its end. -/
theorem endsAs_throttled :
    ForwardCall.EndsAs displayStatus (failRateLimited w args.endpointUrl now)
      (ForwardCall.runAlone (w.count .upstreamRateLimitedTotal [args.endpointUrl]) ⟨args, .throttled⟩
        [.proceed now, .proceed now, .proceed now]) := by
  rcases hmark : markRateLimited ((w.count .upstreamRateLimitedTotal [args.endpointUrl]).count
    .rpcRequestsFailed [args.endpointUrl]) args.endpointUrl now with ⟨w', _ | _⟩
  all_goals
    have hsrc := hmark
    simp only [World.count] at hsrc
    simp [ForwardCall.EndsAs, ForwardCall.runAlone, ForwardCall.advance, failRateLimited, hmark, hsrc,
      ForwardCall.outcome?, ForwardExit.result]

/-- The branch on an answer that is not counted by itself. -/
theorem runAlone_recorded {u : UpstreamCall} {phase : ForwardPhase} (hcause : u.cause = none)
    (hbranch : u.branch = phase) (moves : List ForwardMove) :
    ForwardCall.runAlone w ⟨args, .recorded u⟩ (.proceed now :: moves) =
      ForwardCall.runAlone w ⟨args, phase⟩ moves := by
  simp [ForwardCall.runAlone, ForwardCall.advance, hcause, hbranch]

/-- The branch on the answer, run to its end. -/
theorem exists_runAlone_recorded (u : UpstreamCall) :
    ∃ moves, ForwardCall.EndsAs displayStatus (finishRequest displayStatus w args.endpointUrl u now)
      (ForwardCall.runAlone w ⟨args, .recorded u⟩ moves) := by
  obtain ⟨result, elapsedMs, errorText, body⟩ := u
  cases result with
  | timeout =>
      exact ⟨[.proceed now, .proceed now, .proceed now, .proceed now], endsAs_failing displayStatus
        (w.count .requestTimeouts [args.endpointUrl]) args now (.timedOut errorText)⟩
  | networkError =>
      exact ⟨[.proceed now, .proceed now, .proceed now, .proceed now],
        endsAs_failing displayStatus w args now (.network errorText)⟩
  | response status =>
      by_cases h429 : status = 429
      · subst h429
        exact ⟨[.proceed now, .proceed now, .proceed now, .proceed now],
          endsAs_throttled displayStatus w args now⟩
      have hcause : UpstreamCall.cause ⟨.response status, elapsedMs, errorText, body⟩ = none := by
        simp [UpstreamCall.cause, h429]
      by_cases hok : isSuccess status
      · have hbranch : UpstreamCall.branch ⟨.response status, elapsedMs, errorText, body⟩ =
            .reading body := by
          simp [UpstreamCall.branch, h429, hok]
        cases body with
        | error e =>
            have hfinish : finishRequest displayStatus w args.endpointUrl
                ⟨.response status, elapsedMs, errorText, .error e⟩ now =
                  failUnhealthy w args.endpointUrl (.upstreamError e) now := by
              simp [finishRequest, h429, hok]
            refine ⟨[.proceed now, .proceed now, .proceed now, .proceed now, .proceed now], ?_⟩
            rw [hfinish, runAlone_recorded w args now hcause hbranch]
            exact endsAs_failing displayStatus w args now (.body e)
        | ok bytes =>
            refine ⟨[.proceed now, .proceed now, .proceed now], ?_⟩
            rw [runAlone_recorded w args now hcause hbranch]
            simp [finishRequest, h429, hok, ForwardCall.EndsAs, ForwardCall.runAlone,
              ForwardCall.advance, ForwardCall.outcome?, ForwardExit.result, World.count]
      · have hbranch : UpstreamCall.branch ⟨.response status, elapsedMs, errorText, body⟩ =
            .failing (.status status) := by
          simp [UpstreamCall.branch, h429, hok]
        have hfinish : finishRequest displayStatus w args.endpointUrl
            ⟨.response status, elapsedMs, errorText, body⟩ now =
              failUnhealthy w args.endpointUrl (statusError displayStatus status) now := by
          simp [finishRequest, h429, hok]
        refine ⟨[.proceed now, .proceed now, .proceed now, .proceed now], ?_⟩
        rw [hfinish, runAlone_recorded w args now hcause hbranch]
        exact endsAs_failing displayStatus w args now (.status status)

/-- **The machine run alone is the call**: some steps take a request to its end, where the world is what
`forwardRequest` leaves and the call has returned what `forwardRequest` does.
Source: `forwarder.rs` `forward_request` -/
theorem exists_runAlone_forwardRequest (u : UpstreamCall) :
    ∃ moves, ForwardCall.EndsAs displayStatus
      (forwardRequest displayStatus w args.endpointUrl args.method u now)
      (ForwardCall.runAlone w { args := args } moves) := by
  let prom := (((w.prom.incBy .requestLatencyPerEndpoint [args.endpointUrl] 0).inc .rpcRequestsTotal
    []).inc .rpcRequestsMethod [args.method]).observe .requestLatencyPerEndpoint [args.endpointUrl]
  obtain ⟨moves, hmoves⟩ := exists_runAlone_recorded displayStatus
    (updateMetrics { w with prom := prom } args.endpointUrl u.result u.elapsedMs) args now u
  -- the steps every call takes, up to the branch on the answer
  exact ⟨.proceed now :: .proceed now :: .proceed now :: .respond u :: .proceed now :: .proceed now ::
    moves, hmoves⟩

end alone

end AzothBalancer
