import AzothBalancer.ForwardTrace
import AzothBalancer.PriorityStats
import AzothBalancer.RpcSystem
import AzothBalancer.TokenLedger

/-!
# The service

Requests from their arrival to their answer: the steps of `handle_rpc` up to the hand-over (`RpcCall`), those of
`forward_request` (`ForwardCall`), and the answer made of what comes back. Between two steps of a request
anything else can happen: steps of other requests, health rounds, and sections of reloads in flight. The future
of a handler may be dropped where it awaits, when the client leaves (`RequestMove.cancel`), and a mark that
panics unwinds its handler (`RequestMove.unwind`); either way the concurrency guard is dropped with it.

The state keeps what was sent to the upstreams and what they did with it.

* `exists_runAlone_serve` — a request whose steps run with nothing in between is handled and forwarded as the
  functions of the source do it (`serveRpc`).
* `progress_advance` — a call of `forward_request` goes where the reaction of its upstream leads
  (`UpstreamCall.exit`).
* `Request.Justified` — the invariant of a request: why it stands where it stands.
* `answers_correspond` — every answer is that of the upstream to this very request, or a refusal for a reason
  that lies in the request; nothing is sent twice, and nothing refused is sent.
-/

namespace AzothBalancer

open JsonText (Json)

variable {M : Meter}

/-! ## Requests -/

/-- A request: its call of `handle_rpc`, and that of `forward_request` once it is entered. -/
structure Request where
  call : RpcCall
  forward : Option ForwardCall := none
  /-- The future of the handler has been dropped, or a panic has unwound it. -/
  dropped : Bool := false

/-- A step of a request. -/
inductive RequestMove where
  /-- A step of `handle_rpc`. -/
  | handle (move : RpcMove)
  /-- A step of `forward_request`. -/
  | forward (move : ForwardMove)
  /-- `forward_request` returns to `handle_rpc`, which answers. -/
  | finish
  /-- The client leaves, and the future is dropped where it awaits. -/
  | cancel
  /-- A panic unwinds the handler. -/
  | unwind

/-- The call of `forward_request` that a call of `handle_rpc` has entered.
Source: `main.rs` `handle_rpc`; `balancer.rs` `forward_raw_request` -/
def RpcCall.entered (call : RpcCall) : Option ForwardCall :=
  match call.phase with
  | .handed p url => some { args := ⟨call.body, url, p.methodLabel⟩ }
  | _ => none

/-- The request awaits the semaphore, the upstream, or the body of its answer. -/
def Request.awaits (r : Request) : Bool :=
  match r.call.phase, r.forward with
  | .waiting, _ => true
  | .handed .., some ⟨_, .sending⟩ | .handed .., some ⟨_, .reading _⟩ => true
  | _, _ => false

/-- A mark of the request has panicked. -/
def Request.panicked (r : Request) : Bool :=
  match r.forward with
  | some ⟨_, .unwound _⟩ | some ⟨_, .throttledUnwound⟩ => true
  | _ => false

/-- What is observed when the future of the request is dropped: a running timer observes.
Source: `forwarder.rs` `forward_request`, `timer` -/
def Request.observeDrop (r : Request) (m : Registry) : Registry :=
  match r.forward with
  | some ⟨args, .sending⟩ => m.observe .requestLatencyPerEndpoint [args.endpointUrl]
  | _ => m

/-- The concurrency guard is dropped.
Source: `main.rs` `ConcurrencyGuard` -/
def World.dropGuard (w : World M) : World M :=
  { w with prom := w.prom.incBy .concurrencyActivePermits [] (-1) }

/-- One step of a request: the world and the request afterwards. A move that does not fit does nothing.
Source: `main.rs` `handle_rpc`; `forwarder.rs` `forward_request` -/
def Request.advance (fromSlice : List UInt8 → Except String Json) (displayStatus : ℕ → String) (w : World M)
    (r : Request) (move : RequestMove) : World M × Request :=
  if r.dropped then (w, r)
  else
    match move with
    | .handle move =>
        if r.call.phase.isHanded then (w, r)
        else
          let (w, call) := r.call.advance fromSlice w move
          (w, { r with call := call, forward := call.entered })
    | .forward move =>
        match r.forward with
        | none => (w, r)
        | some call =>
            let (w, call) := call.advance w move
            (w, { r with forward := some call })
    | .finish =>
        match r.forward with
        | some ⟨args, .returned exit⟩ =>
            let (w, call) :=
              r.call.advance fromSlice w (.receive (exit.result displayStatus args.endpointUrl))
            (w, { r with call := call })
        | _ => (w, r)
    | .cancel =>
        if r.awaits then
          (World.dropGuard { w with prom := r.observeDrop w.prom }, { r with dropped := true })
        else (w, r)
    | .unwind => if r.panicked then (w.dropGuard, { r with dropped := true }) else (w, r)

/-- What a step of a request sends to its upstream.
Source: `forwarder.rs` `forward_request`, `client.post(endpoint_url)` -/
def Request.send (i : ℕ) (r : Request) (move : RequestMove) : List HandOver :=
  match r.dropped, r.forward, move with
  | false, some ⟨args, .counted⟩, .forward (.proceed _) =>
      [⟨i, args.requestBody, args.endpointUrl, args.method⟩]
  | _, _, _ => []

/-- The reaction of the upstream that a step of a request receives. -/
def Request.receive (i : ℕ) (r : Request) (move : RequestMove) : List (ℕ × UpstreamCall) :=
  match r.dropped, r.forward, move with
  | false, some ⟨_, .sending⟩, .forward (.respond u) => [(i, u)]
  | _, _, _ => []

/-- The answer a request has been given. -/
def Request.answer? (r : Request) : Option RpcAnswer :=
  match r.call.phase with
  | .answered a | .returned a => some a
  | _ => none

/-! ## A request run alone -/

section alone

variable (fromSlice : List UInt8 → Except String Json) (displayStatus : ℕ → String)

/-- The steps of one request with nothing in between. -/
def Request.runAlone (w : World M) (r : Request) (moves : List RequestMove) : World M × Request :=
  Runs.run (fun (s : World M × Request) move => s.2.advance fromSlice displayStatus s.1 move) (w, r) moves

/-- A request with nothing in between: handled, forwarded to an upstream that reacts with `u`, and answered. There
is no answer if a mark panics.
Source: `main.rs` `handle_rpc`; `forwarder.rs` `forward_request` -/
def serveRpc (closed : Bool) (clock : Clock) (w : World M) (body : List UInt8) (u : UpstreamCall)
    (now : Instant) : Option RpcAnswer × World M :=
  match handleRpc fromSlice closed clock w body with
  | (.answered a, w) => (some a, w)
  | (.handed p url method, w) =>
      match forwardRequest displayStatus w url method u now with
      | (.ok bytes, w) => (some (answerOf p (.ok bytes)), w.dropGuard)
      | (.err e, w) => (some (answerOf p (.error e)), w.dropGuard)
      | (.panic, w) => (none, w.dropGuard)

variable {fromSlice displayStatus}

/-- A call that has returned does nothing more. -/
theorem runAlone_returned (w : World M) (body : List UInt8) (a : RpcAnswer) (moves : List RpcMove) :
    AzothBalancer.runAlone fromSlice w ⟨body, .returned a⟩ moves = (w, ⟨body, .returned a⟩) := by
  induction moves with
  | nil => rfl
  | cons move moves ih => exact ih

/-- The steps of `handle_rpc`, as steps of the request. -/
theorem runAlone_handle (displayStatus : ℕ → String) (moves : List RpcMove) : ∀ (w : World M) (call : RpcCall),
    (∀ a, (AzothBalancer.runAlone fromSlice w call moves).2.phase ≠ .returned a) →
    Request.runAlone fromSlice displayStatus w { call := call, forward := call.entered }
        (moves.map .handle) =
      ((AzothBalancer.runAlone fromSlice w call moves).1,
        { call := (AzothBalancer.runAlone fromSlice w call moves).2
          forward := (AzothBalancer.runAlone fromSlice w call moves).2.entered }) := by
  induction moves with
  | nil => exact fun w call _ => rfl
  | cons move moves ih =>
      intro w call hne
      rw [AzothBalancer.runAlone_cons] at hne ⊢
      have hstep : Request.advance fromSlice displayStatus w { call := call, forward := call.entered }
          (.handle move) = ((call.advance fromSlice w move).1,
            { call := (call.advance fromSlice w move).2
              forward := (call.advance fromSlice w move).2.entered }) := by
        obtain ⟨body, phase⟩ := call
        cases phase with
        | handed p url =>
            cases move with
            | receive result =>
                refine absurd ?_ (hne (answerOf p result))
                show (AzothBalancer.runAlone fromSlice _ ⟨body, .returned (answerOf p result)⟩ moves).2.phase = _
                rw [runAlone_returned]
            | _ => rfl
        | returned a => rfl
        | _ => rfl
      rw [← ih _ _ hne]
      show Runs.run _ (Request.advance fromSlice displayStatus w _ (.handle move)) _ = _
      rw [hstep]
      rfl

/-- The steps of `forward_request`, as steps of the request. -/
theorem runAlone_forward (moves : List ForwardMove) : ∀ (w : World M) (call : RpcCall) (f : ForwardCall),
    Request.runAlone fromSlice displayStatus w { call := call, forward := some f } (moves.map .forward) =
      ((ForwardCall.runAlone w f moves).1,
        { call := call, forward := some (ForwardCall.runAlone w f moves).2 }) := by
  induction moves with
  | nil => exact fun w call f => rfl
  | cons move moves ih => exact fun w call f => ih _ call _

/-- The label a request is handed over with.
Source: `main.rs` `handle_rpc`, `method_label` -/
theorem methodLabel_of_handed {w w' : World M} {body : List UInt8} {closed : Bool} {clock : Clock}
    {p : Payload} {url method : String}
    (h : handleRpc fromSlice closed clock w body = (.handed p url method, w')) : method = p.methodLabel := by
  unfold handleRpc at h
  dsimp only at h
  split at h
  · cases h
  split at h
  · cases h
  split at h
  · cases h
  split at h
  · cases h
  split at h
  · cases h
  · cases h
    rfl

/-- **A request run alone** is handled, forwarded and answered as the functions of the source do it.
Source: `main.rs` `handle_rpc`; `forwarder.rs` `forward_request` -/
theorem exists_runAlone_serve (w : World M) (body : List UInt8) (closed : Bool) (clock : Clock)
    (u : UpstreamCall) (now : Instant) : ∃ moves,
      let after := Request.runAlone fromSlice displayStatus w { call := { body := body } } moves
      (after.2.answer?, after.1) = serveRpc fromSlice displayStatus closed clock w body u now := by
  obtain ⟨moves, hmoves⟩ : ∃ moves, AzothBalancer.runAlone fromSlice w { body := body } moves = _ :=
    exists_runAlone w body closed clock
  have hopen : ∀ a, (AzothBalancer.runAlone fromSlice w { body := body } moves).2.phase ≠ .returned a := by
    intro a
    rw [hmoves]
    rcases (handleRpc fromSlice closed clock w body).1 with _ | _ <;> exact fun h => (by cases h)
  have hlift : Request.runAlone fromSlice displayStatus w { call := { body := body } }
      (moves.map .handle) = ((AzothBalancer.runAlone fromSlice w { body := body } moves).1,
        { call := (AzothBalancer.runAlone fromSlice w { body := body } moves).2
          forward := (AzothBalancer.runAlone fromSlice w { body := body } moves).2.entered }) :=
    runAlone_handle displayStatus moves w { body := body } hopen
  rw [hmoves] at hlift
  unfold serveRpc
  rcases hrpc : handleRpc fromSlice closed clock w body with ⟨a | ⟨p, url, method⟩, w₁⟩
  · rw [hrpc] at hlift
    refine ⟨moves.map .handle, ?_⟩
    dsimp only
    rw [hlift]
    rfl
  · obtain rfl := methodLabel_of_handed hrpc
    rw [hrpc] at hlift
    let args : ForwardArgs := ⟨body, url, p.methodLabel⟩
    obtain ⟨fmoves, hworld, houtcome⟩ := exists_runAlone_forwardRequest displayStatus w₁ args now u
    -- everything up to the end of `forward_request`
    have hforward : ∀ last : List RequestMove, Request.runAlone fromSlice displayStatus w
        { call := { body := body } } (moves.map .handle ++ (fmoves.map .forward ++ last)) =
          Request.runAlone fromSlice displayStatus (ForwardCall.runAlone w₁ { args := args } fmoves).1
            { call := ⟨body, .handed p url⟩
              forward := some (ForwardCall.runAlone w₁ { args := args } fmoves).2 } last := by
      intro last
      unfold Request.runAlone at hlift ⊢
      rw [Runs.run_append, hlift, Runs.run_append]
      exact congrArg (fun s => Runs.run _ s last) (runAlone_forward fmoves w₁ ⟨body, .handed p url⟩ _)
    generalize ForwardCall.runAlone w₁ { args := args } fmoves = after at hworld houtcome hforward
    obtain ⟨w₂, ⟨args', phase⟩⟩ := after
    show ∃ moves, _ = match forwardRequest displayStatus w₁ args.endpointUrl args.method u now with
      | (.ok bytes, w) => (some (answerOf p (.ok bytes)), w.dropGuard)
      | (.err e, w) => (some (answerOf p (.error e)), w.dropGuard)
      | (.panic, w) => (none, w.dropGuard)
    rcases hfr : forwardRequest displayStatus w₁ args.endpointUrl args.method u now with ⟨outcome, w₃⟩
    rw [hfr] at hworld houtcome
    obtain rfl : w₂ = w₃ := hworld
    unfold ForwardCall.outcome? at houtcome
    dsimp only at houtcome
    split at houtcome
    · rename_i exit
      refine ⟨moves.map .handle ++ (fmoves.map .forward ++ [.finish]), ?_⟩
      rw [hforward]
      split at houtcome
      · rename_i bytes hresult
        cases houtcome
        have hfinish : Request.advance fromSlice displayStatus w₂
            { call := ⟨body, .handed p url⟩, forward := some ⟨args', .returned exit⟩ } .finish =
              (w₂.dropGuard, { call := ⟨body, .returned (answerOf p (.ok bytes))⟩
                               forward := some ⟨args', .returned exit⟩ }) := by
          rw [← hresult]
          rfl
        unfold Request.runAlone
        rw [Runs.run_cons, Runs.run_nil, hfinish]
        rfl
      · rename_i e hresult
        cases houtcome
        have hfinish : Request.advance fromSlice displayStatus w₂
            { call := ⟨body, .handed p url⟩, forward := some ⟨args', .returned exit⟩ } .finish =
              (w₂.dropGuard, { call := ⟨body, .returned (answerOf p (.error e))⟩
                               forward := some ⟨args', .returned exit⟩ }) := by
          rw [← hresult]
          rfl
        unfold Request.runAlone
        rw [Runs.run_cons, Runs.run_nil, hfinish]
        rfl
    · cases houtcome
      refine ⟨moves.map .handle ++ (fmoves.map .forward ++ [.unwind]), ?_⟩
      rw [hforward]
      rfl
    · cases houtcome
      refine ⟨moves.map .handle ++ (fmoves.map .forward ++ [.unwind]), ?_⟩
      rw [hforward]
      rfl
    · cases houtcome

end alone

/-! ## The system -/

/-- The balancer with the reloads in flight, the requests, what has been sent to upstreams, and how they have
reacted. -/
structure Service (M : Meter) where
  system : System M
  requests : List Request
  sent : List HandOver
  replies : List (ℕ × UpstreamCall)

/-- The requests have just arrived. -/
def Service.start (w : World M) (bodies : List (List UInt8)) : Service M :=
  ⟨⟨w, []⟩, bodies.map fun body => { call := { body := body } }, [], []⟩

/-- A step of an interleaving. -/
inductive ServiceEvent where
  | request (i : ℕ) (move : RequestMove)
  | environment (e : SystemEvent)

/-- A step of health rounds and reloads. Selections are made by the requests only. -/
def System.environmentStep (P : Platform) (s : System M) : SystemEvent → System M
  | .operation (.getNextEndpoint ..) => s
  | e => s.step P e

/-- One step of an interleaving. -/
def Service.step (P : Platform) (fromSlice : List UInt8 → Except String Json)
    (displayStatus : ℕ → String) (s : Service M) : ServiceEvent → Service M
  | .request i move =>
      match s.requests[i]? with
      | none => s
      | some r =>
          { system := { s.system with
              world := (r.advance fromSlice displayStatus s.system.world move).1 }
            requests := s.requests.set i (r.advance fromSlice displayStatus s.system.world move).2
            sent := s.sent ++ r.send i move
            replies := s.replies ++ r.receive i move }
  | .environment e => { s with system := s.system.environmentStep P e }

/-- A step of a request, by its parts. -/
theorem Service.step_request (P : Platform) (fromSlice : List UInt8 → Except String Json)
    (displayStatus : ℕ → String) {s : Service M} {i : ℕ} {r : Request} (hi : s.requests[i]? = some r)
    (move : RequestMove) : s.step P fromSlice displayStatus (.request i move) =
      { system := { s.system with
          world := (r.advance fromSlice displayStatus s.system.world move).1 }
        requests := s.requests.set i (r.advance fromSlice displayStatus s.system.world move).2
        sent := s.sent ++ r.send i move
        replies := s.replies ++ r.receive i move } := by
  simp only [Service.step, hi]

/-- A step of no request. -/
theorem Service.step_of_none (P : Platform) (fromSlice : List UInt8 → Except String Json)
    (displayStatus : ℕ → String) {s : Service M} {i : ℕ} (hi : s.requests[i]? = none) (move : RequestMove) :
    s.step P fromSlice displayStatus (.request i move) = s := by
  simp only [Service.step, hi]

/-- The state after an interleaving. -/
def Service.run (P : Platform) (fromSlice : List UInt8 → Except String Json)
    (displayStatus : ℕ → String) (s : Service M) (events : List ServiceEvent) : Service M :=
  Runs.run (Service.step P fromSlice displayStatus) s events

/-- A step that has been taken: the states before and after it. -/
structure ServiceStep (M : Meter) where
  before : Service M
  event : ServiceEvent
  after : Service M

/-- The world a step was taken in. -/
def ServiceStep.world (t : ServiceStep M) : World M := t.before.system.world

/-- The world a step has left. -/
def ServiceStep.left (t : ServiceStep M) : World M := t.after.system.world

/-- The steps of a run. -/
def Service.history (P : Platform) (fromSlice : List UInt8 → Except String Json)
    (displayStatus : ℕ → String) (s : Service M) (events : List ServiceEvent) : List (ServiceStep M) :=
  Runs.emitted (Service.step P fromSlice displayStatus)
    (fun s e => [⟨s, e, s.step P fromSlice displayStatus e⟩]) s events

/-- What a request has sent to upstreams. -/
def Service.sentBy (s : Service M) (i : ℕ) : List HandOver := s.sent.filter fun h => h.call = i

/-- What upstreams have done with a request. -/
def Service.repliesTo (s : Service M) (i : ℕ) : List UpstreamCall :=
  (s.replies.filter fun r => r.1 = i).map Prod.snd

/-! ## What a request comes to -/

/-- The exit a call is bound for, once its upstream has reacted. -/
def ForwardPhase.bound : ForwardPhase → Option ForwardExit
  | .requested | .timed | .counted | .sending => none
  | .answered u | .observed u | .recorded u => some u.exit
  | .reading body => some (exitOfBody body)
  | .failing why | .marked why | .unwound why => some (.failure why)
  | .throttled | .throttledFailed | .throttledUnwound => some .rateLimited
  | .returning exit | .returned exit => some exit

/-- The request has been sent to the upstream. -/
def ForwardPhase.isSent : ForwardPhase → Bool
  | .requested | .timed | .counted => false
  | _ => true

/-- The branch taken is the one the reaction is bound for. -/
theorem bound_branch (u : UpstreamCall) : u.branch.bound = some u.exit := by
  rcases u.branch_cases with ⟨why, hbranch, hexit⟩ | ⟨hbranch, hexit⟩ | ⟨hbranch, hexit⟩
  all_goals
    rw [hbranch, hexit]
    rfl

/-- The branch on a reaction is taken by a request that has been sent. -/
theorem isSent_of_bound {phase : ForwardPhase} (h : phase.bound.isSome) : phase.isSent := by
  cases phase <;> first | rfl | cases h

/-- What a step of a call changes: it is sent, its upstream reacts, or neither. -/
inductive ForwardCall.Progress (call : ForwardCall) (move : ForwardMove) (call' : ForwardCall) : Prop where
  | send (now : Instant) : call.phase = .counted → move = .proceed now → call'.phase = .sending →
      Progress call move call'
  | react (u : UpstreamCall) : call.phase = .sending → move = .respond u → call'.phase = .answered u →
      Progress call move call'
  | go : call'.phase.bound = call.phase.bound → call'.phase.isSent = call.phase.isSent →
      (∀ now, ¬ (call.phase = .counted ∧ move = .proceed now)) →
      (∀ u, ¬ (call.phase = .sending ∧ move = .respond u)) →
      (∀ exit, call.phase = .returned exit → call' = call) → Progress call move call'

/-- **A call goes where the reaction of its upstream leads.**
Source: `forwarder.rs` `forward_request` -/
theorem progress_advance (w : World M) (call : ForwardCall) (move : ForwardMove) :
    call.Progress move (call.advance w move).2 := by
  obtain ⟨args, phase⟩ := call
  rcases move with now | u
  · cases phase with
    | counted => exact .send now rfl rfl rfl
    | recorded u =>
        have hbound := bound_branch u
        have hsent : u.branch.isSent := isSent_of_bound (by rw [hbound]; rfl)
        have hphase : (ForwardCall.advance w ⟨args, .recorded u⟩ (.proceed now)).2.phase = u.branch := by
          simp only [ForwardCall.advance]
          split <;> rfl
        refine .go ?_ ?_ (fun _ h => by cases h.1) (fun _ h => by cases h.1) fun _ h => by cases h
        · rw [hphase, hbound]
          rfl
        · rw [hphase, hsent]
          rfl
    | reading body =>
        rcases body with e | bytes <;>
          exact .go rfl rfl (fun _ h => by cases h.1) (fun _ h => by cases h.1) fun _ h => by cases h
    | failing why =>
        simp only [ForwardCall.advance]
        split <;> exact .go rfl rfl (fun _ h => by cases h.1) (fun _ h => by cases h.1) fun _ h => by cases h
    | throttledFailed =>
        simp only [ForwardCall.advance]
        split <;> exact .go rfl rfl (fun _ h => by cases h.1) (fun _ h => by cases h.1) fun _ h => by cases h
    | returned exit =>
        exact .go rfl rfl (fun _ h => by cases h.1) (fun _ h => by cases h.1) fun _ _ => rfl
    | sending => exact .go rfl rfl (fun _ h => by cases h.1) (fun _ h => by cases h.2) fun _ h => by cases h
    | _ => exact .go rfl rfl (fun _ h => by cases h.1) (fun _ h => by cases h.1) fun _ h => by cases h
  · cases phase with
    | sending => exact .react u rfl rfl rfl
    | _ => exact .go rfl rfl (fun _ h => by cases h.2) (fun _ h => by cases h.1) fun _ _ => rfl

/-- A call keeps its arguments. -/
theorem args_advance (w : World M) (call : ForwardCall) (move : ForwardMove) :
    (call.advance w move).2.args = call.args := (forwardCounts_advance w call move).1

/-! ## Why a request stands where it stands -/

section justified

variable (fromSlice : List UInt8 → Except String Json) (history : List (ServiceStep M)) (i : ℕ)

/-- `t` is a step that the request has taken: its call of `handle_rpc`, in this phase, made this move. -/
def Took (t : ServiceStep M) (phase : RpcPhase) (move : RpcMove) : Prop :=
  t ∈ history ∧ t.event = .request i (.handle move) ∧
    ∃ r ∈ t.before.requests[i]?, r.dropped = false ∧ r.call.phase = phase

/-- The request has asked the limiter of the endpoint for its batch, the limiter has decided so, and if it has
granted the batch it has been charged for it. -/
def Asked (p : Payload) (endpoint : RpcEndpoint) (granted : Bool) : Prop :=
  ∃ t rank rest tiers now, Took history i t (.trying p rank (endpoint :: rest) tiers) (.reserve now) ∧
    (reserveTokens t.world endpoint.url p.batchSize now).1.isOk = granted ∧
    t.left.limiters = (reserveTokens t.world endpoint.url p.batchSize now).2.limiters

/-- Of the endpoints the request has found available, those of `rest` have not been asked, and the others have
refused. -/
def Scanned (p : Payload) (rest : List RpcEndpoint) : Prop :=
  ∃ t now, Took history i t (.checked p) (.collect now) ∧
    (∀ ep ∈ rest, ep ∈ availableEndpoints t.world.lb now) ∧
    ∀ ep ∈ availableEndpoints t.world.lb now, ep ∈ rest ∨ Asked history i p ep false

/-- The request has found the endpoint available, and the endpoint's limiter has granted it the batch. -/
def Chosen (p : Payload) (endpoint : RpcEndpoint) : Prop :=
  (∃ t now, Took history i t (.checked p) (.collect now) ∧ endpoint ∈ availableEndpoints t.world.lb now) ∧
    Asked history i p endpoint true

/-- The body has passed the checks on its bytes, under the batch limit in force when they were made. -/
structure Screened (body : List UInt8) : Prop where
  small : body.length ≤ maxJsonSize
  braces : ∃ t, Took history i t .received .proceed ∧
    (isLikelyBatch body = true → approxBatchSize body ≤ t.world.lb.maxBatchSize)

/-- The body has passed every check: those on its bytes, the parse, and that of the number of elements under the
batch limit in force when it was made. -/
structure Admitted (body : List UInt8) (p : Payload) : Prop where
  screened : Screened history i body
  parsed : parsePayload fromSlice body = .ok p
  within : ∃ t, Took history i t (.parsed p) .proceed ∧ p.batchSize ≤ t.world.lb.maxBatchSize

/-- The check of a batch's size that the body has failed, under the limit in force when it was made. -/
inductive OverBatchLimit (body : List UInt8) : Prop where
  /-- The check on the bytes. -/
  | braces (t : ServiceStep M) : body.length ≤ maxJsonSize → Took history i t .received .proceed →
      isLikelyBatch body = true → t.world.lb.maxBatchSize < approxBatchSize body → OverBatchLimit body
  /-- The check of the number of elements. -/
  | elements (t : ServiceStep M) (p : Payload) : Screened history i body →
      parsePayload fromSlice body = .ok p → Took history i t (.parsed p) .proceed →
      t.world.lb.maxBatchSize < p.batchSize → OverBatchLimit body

/-- The reason of an answer that is given without forwarding.
Source: `main.rs` `handle_rpc` -/
def Refused (body : List UInt8) : RpcAnswer → Prop
  | .payloadTooLarge => maxJsonSize < body.length
  | .batchTooLarge => OverBatchLimit fromSlice history i body
  | .internalServerError => Screened history i body ∧ ∃ t, Took history i t .waiting (.acquire true)
  | .badRequest message =>
      Screened history i body ∧ parsePayload fromSlice body = .error (.badRequest message)
  | .serviceUnavailable => ∃ p, Admitted fromSlice history i body p ∧ Scanned history i p []
  | .forwarded _ | .rpcError .. => False

/-- Why a call of `handle_rpc` stands in a phase. -/
def RpcPhase.Justified (body : List UInt8) : RpcPhase → Prop
  | .received | .returned _ => True
  | .waiting | .permitted => Screened history i body
  | .parsed p => Screened history i body ∧ parsePayload fromSlice body = .ok p
  | .checked p => Admitted fromSlice history i body p
  | .selecting p tiers => Admitted fromSlice history i body p ∧ Scanned history i p tiers.flatten
  | .trying p _ rest tiers =>
      Admitted fromSlice history i body p ∧ Scanned history i p (rest ++ tiers.flatten)
  | .reserved p endpoint => Admitted fromSlice history i body p ∧ Chosen history i p endpoint
  | .handed p url => Admitted fromSlice history i body p ∧
      ∃ endpoint, Chosen history i p endpoint ∧ endpoint.url = url
  | .answered a => Refused fromSlice history i body a

end justified

section mono

variable {fromSlice : List UInt8 → Except String Json} {history history' : List (ServiceStep M)}
  {i : ℕ} {body : List UInt8} {p : Payload}

/-- A step stays on record. -/
theorem Took.mono (hsub : history ⊆ history') {t : ServiceStep M} {phase : RpcPhase} {move : RpcMove}
    (h : Took history i t phase move) : Took history' i t phase move := ⟨hsub h.1, h.2⟩

/-- A decision stays on record. -/
theorem Asked.mono (hsub : history ⊆ history') {endpoint : RpcEndpoint} {granted : Bool}
    (h : Asked history i p endpoint granted) : Asked history' i p endpoint granted := by
  obtain ⟨t, rank, rest, tiers, now, htook, hdec⟩ := h
  exact ⟨t, rank, rest, tiers, now, htook.mono hsub, hdec⟩

/-- A scan stays on record. -/
theorem Scanned.mono (hsub : history ⊆ history') {rest : List RpcEndpoint}
    (h : Scanned history i p rest) : Scanned history' i p rest := by
  obtain ⟨t, now, htook, hrest, hasked⟩ := h
  exact ⟨t, now, htook.mono hsub, hrest, fun ep hep => (hasked ep hep).imp_right (Asked.mono hsub)⟩

/-- A choice stays on record. -/
theorem Chosen.mono (hsub : history ⊆ history') {endpoint : RpcEndpoint}
    (h : Chosen history i p endpoint) : Chosen history' i p endpoint := by
  obtain ⟨⟨t, now, htook, hmem⟩, hasked⟩ := h
  exact ⟨⟨t, now, htook.mono hsub, hmem⟩, hasked.mono hsub⟩

/-- Passed checks stay on record. -/
theorem Screened.mono (hsub : history ⊆ history') (h : Screened history i body) :
    Screened history' i body := by
  obtain ⟨t, htook, hle⟩ := h.braces
  exact ⟨h.small, t, htook.mono hsub, hle⟩

/-- An admission stays on record. -/
theorem Admitted.mono (hsub : history ⊆ history') (h : Admitted fromSlice history i body p) :
    Admitted fromSlice history' i body p := by
  obtain ⟨t, htook, hle⟩ := h.within
  exact ⟨h.screened.mono hsub, h.parsed, t, htook.mono hsub, hle⟩

/-- A refusal stays on record. -/
theorem Refused.mono (hsub : history ⊆ history') {a : RpcAnswer}
    (h : Refused fromSlice history i body a) : Refused fromSlice history' i body a := by
  cases a with
  | batchTooLarge =>
      rcases h with ⟨t, hsmall, htook, hbatch, hlarge⟩ | ⟨t, p, hscreened, hparse, htook, hlarge⟩
      · exact .braces t hsmall (htook.mono hsub) hbatch hlarge
      · exact .elements t p (hscreened.mono hsub) hparse (htook.mono hsub) hlarge
  | internalServerError =>
      obtain ⟨hscreened, t, htook⟩ := h
      exact ⟨hscreened.mono hsub, t, htook.mono hsub⟩
  | badRequest message => exact ⟨h.1.mono hsub, h.2⟩
  | serviceUnavailable =>
      obtain ⟨p, hadm, hscan⟩ := h
      exact ⟨p, hadm.mono hsub, hscan.mono hsub⟩
  | payloadTooLarge | forwarded _ | rpcError _ _ _ => exact h

/-- A justification stays on record. -/
theorem RpcPhase.Justified.mono (hsub : history ⊆ history') {phase : RpcPhase}
    (h : phase.Justified fromSlice history i body) : phase.Justified fromSlice history' i body := by
  cases phase with
  | waiting | permitted => exact Screened.mono hsub h
  | parsed p => exact ⟨h.1.mono hsub, h.2⟩
  | checked p => exact Admitted.mono hsub h
  | selecting p tiers => exact ⟨h.1.mono hsub, h.2.mono hsub⟩
  | trying p rank rest tiers => exact ⟨h.1.mono hsub, h.2.mono hsub⟩
  | reserved p endpoint => exact ⟨h.1.mono hsub, h.2.mono hsub⟩
  | handed p url =>
      obtain ⟨hadm, endpoint, hchosen, hurl⟩ := h
      exact ⟨hadm.mono hsub, endpoint, hchosen.mono hsub, hurl⟩
  | answered a => exact Refused.mono hsub h
  | received | returned _ => exact h

/-- The tiers hold the available endpoints.
Source: `strategy.rs` `select_best_endpoint` -/
theorem mem_unsortedTiers {lb : LoadBalancer} {now : Instant} {ep : RpcEndpoint} :
    ep ∈ (unsortedTiers lb now).flatten ↔ ep ∈ availableEndpoints lb now := by
  simp only [unsortedTiers, List.map_cons, List.map_nil, List.flatten_cons, List.flatten_nil,
    List.append_nil, List.mem_append, List.mem_filter, decide_eq_true_eq]
  refine ⟨fun h => by tauto, fun hep => ?_⟩
  have hpos : 0 < ep.weight := by
    have hfilter := (List.mem_filter.mp hep).2
    simp only [Bool.and_eq_true, decide_eq_true_eq] at hfilter
    exact hfilter.2
  obtain ⟨k, hk, rfl | rfl | rfl⟩ := exists_tierOf hpos
  · exact Or.inl ⟨hep, hk⟩
  · exact Or.inr (Or.inl ⟨hep, hk⟩)
  · exact Or.inr (Or.inr ⟨hep, hk⟩)

/-- A scan, in another order. -/
theorem Scanned.congr {rest rest' : List RpcEndpoint} (h : Scanned history i p rest)
    (hmem : ∀ ep, ep ∈ rest ↔ ep ∈ rest') : Scanned history i p rest' := by
  obtain ⟨t, now, htook, hrest, hasked⟩ := h
  exact ⟨t, now, htook, fun ep hep => hrest ep ((hmem ep).mpr hep),
    fun ep hep => (hasked ep hep).imp_left (hmem ep).mp⟩

/-- What the checks on the bytes answer.
Source: `main.rs` `handle_rpc`, "Pre-emptive Validation" -/
theorem checkRaw_cases (maxBatchSize : ℕ) (body : List UInt8) :
    (checkRaw maxBatchSize body = some .payloadTooLarge ∧ maxJsonSize < body.length) ∨
      (checkRaw maxBatchSize body = some .batchTooLarge ∧ body.length ≤ maxJsonSize ∧
        isLikelyBatch body = true ∧ maxBatchSize < approxBatchSize body) ∨
      (checkRaw maxBatchSize body = none ∧ body.length ≤ maxJsonSize ∧
        (isLikelyBatch body = true → approxBatchSize body ≤ maxBatchSize)) := by
  unfold checkRaw
  by_cases hlarge : maxJsonSize < body.length
  · exact Or.inl ⟨if_pos hlarge, hlarge⟩
  · rw [if_neg hlarge]
    by_cases hbatch : isLikelyBatch body = true ∧ maxBatchSize < approxBatchSize body
    · exact Or.inr (Or.inl ⟨if_pos (by simp [hbatch]), not_lt.mp hlarge, hbatch⟩)
    · refine Or.inr (Or.inr ⟨if_neg (by simpa using hbatch), not_lt.mp hlarge, fun hlikely => ?_⟩)
      exact not_lt.mp fun hover => hbatch ⟨hlikely, hover⟩

/-- What asking a limiter leaves of the limiters.
Source: `strategy.rs` `select_best_endpoint`, `reserve_tokens` -/
theorem limiters_reserve (w : World M) (rank : ℕ) (endpoint : RpcEndpoint) (rest : List RpcEndpoint)
    (tiers : List (List RpcEndpoint)) (now : Instant) :
    (RpcCall.advance fromSlice w ⟨body, .trying p rank (endpoint :: rest) tiers⟩ (.reserve now)).1.limiters =
      (reserveTokens w endpoint.url p.batchSize now).2.limiters := by
  simp only [RpcCall.advance]
  rcases reserveTokens w endpoint.url p.batchSize now with ⟨_ | _, w'⟩ <;> rfl

/-- **A step of `handle_rpc` is justified**, by the record of the step.
Source: `main.rs` `handle_rpc`; `strategy.rs` `select_best_endpoint` -/
theorem justified_advance {t : ServiceStep M} {call : RpcCall} {move : RpcMove}
    (h : call.phase.Justified fromSlice history i call.body) (hhanded : call.phase.isHanded = false)
    (hsub : history ⊆ history') (htook : Took history' i t call.phase move)
    (hleft : t.left = (call.advance fromSlice t.world move).1) :
    (call.advance fromSlice t.world move).2.phase.Justified fromSlice history' i call.body := by
  obtain ⟨body, phase⟩ := call
  have h' := RpcPhase.Justified.mono hsub h
  unfold RpcCall.advance
  dsimp only at h' hhanded htook ⊢
  split
  · rcases checkRaw_cases t.world.lb.maxBatchSize body with
      ⟨hraw, hlarge⟩ | ⟨hraw, hsmall, hbatch, hlarge⟩ | ⟨hraw, hsmall, hfits⟩
    · rw [hraw]
      exact hlarge
    · rw [hraw]
      exact .braces t hsmall htook hbatch hlarge
    · rw [hraw]
      exact ⟨hsmall, t, htook, hfits⟩
  · split
    · rename_i hclosed
      subst hclosed
      exact ⟨h', t, htook⟩
    · exact h'
  · split
    · rename_i a hparse
      unfold parsePayload at hparse
      have hbad : ∃ message, a = .badRequest message := by
        split at hparse
        · cases hparse
          exact ⟨_, rfl⟩
        · split at hparse
          split at hparse
          · cases hparse
            exact ⟨_, rfl⟩
          · cases hparse
      obtain ⟨message, rfl⟩ := hbad
      exact ⟨h', hparse⟩
    · rename_i p hparse
      exact ⟨h', hparse⟩
  · rename_i p
    obtain ⟨hscreened, hparse⟩ := h'
    split
    · rename_i a hsize
      unfold checkParsed at hsize
      split at hsize
      · rename_i hlarge
        cases hsize
        exact .elements t p hscreened hparse htook hlarge
      · cases hsize
    · rename_i hsize
      unfold checkParsed at hsize
      split at hsize
      · cases hsize
      · rename_i hfits
        exact ⟨hscreened, hparse, t, htook, not_lt.mp hfits⟩
  · rename_i p now
    split
    · rename_i hempty
      have hnone : availableEndpoints t.world.lb now = [] := List.isEmpty_iff.mp hempty
      refine ⟨p, h', t, now, htook, fun ep hep => (by cases hep), fun ep hep => ?_⟩
      rw [hnone] at hep
      cases hep
    · exact ⟨h', t, now, htook, fun ep => mem_unsortedTiers.mp, fun ep hep =>
        Or.inl (mem_unsortedTiers.mpr hep)⟩
  · rename_i p tier tiers order
    split
    · rename_i hperm
      refine ⟨h'.1, h'.2.congr fun ep => ?_⟩
      simp only [List.flatten_cons, List.mem_append, hperm.mem_iff]
    · exact h'
  · rename_i p
    exact ⟨p, h'.1, h'.2⟩
  · rename_i p rank endpoint rest tiers now
    obtain ⟨hadm, t₀, now₀, htook₀, hrest, hasked⟩ := h'
    rcases hdec : reserveTokens t.world endpoint.url p.batchSize now with ⟨_ | _, w'⟩
    · -- refused
      have hthis : Asked history' i p endpoint false := by
        refine ⟨t, rank, rest, tiers, now, htook, by rw [hdec]; rfl, ?_⟩
        rw [hleft, limiters_reserve]
      refine ⟨hadm, t₀, now₀, htook₀, fun ep hep => hrest ep (List.mem_cons_of_mem _ hep), fun ep hep => ?_⟩
      rcases hasked ep hep with hin | hout
      · rcases List.mem_cons.mp hin with rfl | hin
        · exact Or.inr hthis
        · exact Or.inl hin
      · exact Or.inr hout
    · -- granted
      refine ⟨hadm, ⟨t₀, now₀, htook₀, hrest endpoint (by simp)⟩, t, rank, rest, tiers, now, htook,
        by rw [hdec]; rfl, ?_⟩
      rw [hleft, limiters_reserve]
  · exact h'
  · rename_i p endpoint unixSecs
    exact ⟨h'.1, endpoint, h'.2, rfl⟩
  · cases hhanded
  · exact h'

end mono

/-! ## Requests and upstreams -/

/-- What a call of `forward_request` has sent, for the request at position `i`. -/
def ForwardCall.sends (f : ForwardCall) (i : ℕ) : List HandOver :=
  if f.phase.isSent then [⟨i, f.args.requestBody, f.args.endpointUrl, f.args.method⟩] else []

/-- The invariant of a request: why it stands where it stands, what it has sent, and how the upstream has
reacted. -/
structure Request.Justified (fromSlice : List UInt8 → Except String Json) (displayStatus : ℕ → String)
    (history : List (ServiceStep M)) (i : ℕ) (sends : List HandOver)
    (replies : List UpstreamCall) (r : Request) : Prop where
  phase : r.call.phase.Justified fromSlice history i r.call.body
  before : r.call.phase.isHanded = false → r.forward = none ∧ sends = [] ∧ replies = []
  forwarding : ∀ p url, r.call.phase = .handed p url → ∃ f, r.forward = some f ∧
    f.args = ⟨r.call.body, url, p.methodLabel⟩ ∧ sends = f.sends i ∧
    replies.map UpstreamCall.exit = f.phase.bound.toList
  returned : ∀ a, r.call.phase = .returned a → ∃ p endpoint u f, Admitted fromSlice history i r.call.body p ∧
    Chosen history i p endpoint ∧ sends = [⟨i, r.call.body, endpoint.url, p.methodLabel⟩] ∧ replies = [u] ∧
    a = answerOf p (u.exit.result displayStatus endpoint.url) ∧ r.forward = some f ∧
    f.phase = .returned u.exit

section requests

variable {fromSlice : List UInt8 → Except String Json} {displayStatus : ℕ → String}
  {history history' : List (ServiceStep M)} {i : ℕ} {sends : List HandOver}
  {replies : List UpstreamCall} {r : Request} {w : World M}

/-- A request that stands still stays justified. -/
theorem Request.Justified.mono (hsub : history ⊆ history')
    (h : r.Justified fromSlice displayStatus history i sends replies) :
    r.Justified fromSlice displayStatus history' i sends replies where
  phase := h.phase.mono hsub
  before := h.before
  forwarding := h.forwarding
  returned a ha := by
    obtain ⟨p, endpoint, u, f, hadm, hchosen, hrest⟩ := h.returned a ha
    exact ⟨p, endpoint, u, f, hadm.mono hsub, hchosen.mono hsub, hrest⟩

/-- A dropped request keeps what justified it. -/
theorem Request.Justified.drop (h : r.Justified fromSlice displayStatus history i sends replies) :
    Request.Justified fromSlice displayStatus history i sends replies { r with dropped := true } :=
  ⟨h.phase, h.before, h.forwarding, h.returned⟩

/-- A request has a call of `forward_request` only while it is handed over, or after. -/
theorem Request.Justified.isHanded_of_forward
    (h : r.Justified fromSlice displayStatus history i sends replies) {f : ForwardCall}
    (hf : r.forward = some f) : r.call.phase.isHanded = true := by
  by_contra hno
  obtain ⟨hnone, -⟩ := h.before (Bool.eq_false_of_not_eq_true hno)
  rw [hf] at hnone
  cases hnone

/-- A call of `handle_rpc` answers itself only before the hand-over. -/
theorem phase_advance_ne_returned {call : RpcCall} {move : RpcMove}
    (hhanded : call.phase.isHanded = false) (a : RpcAnswer) :
    (call.advance fromSlice w move).2.phase ≠ .returned a := by
  have hadv := call.advance_spec fromSlice w 0 move
  generalize call.advance fromSlice w move = after at hadv ⊢
  generalize call.handOver 0 move = out at hadv
  obtain ⟨w', call'⟩ := after
  intro h
  cases hadv with
  | quiet _ _ hkeep _ =>
      dsimp only at h
      rw [h, hhanded] at hkeep
      simp [RpcPhase.isHanded] at hkeep
  | reserve _ _ _ _ => cases h
  | stamp _ => cases h

/-- **A step of `handle_rpc`.** -/
theorem Request.Justified.handle (h : r.Justified fromSlice displayStatus history i sends replies)
    (hsub : history ⊆ history') {t : ServiceStep M} {move : RpcMove}
    (htook : Took history' i t r.call.phase move) (hhanded : r.call.phase.isHanded = false)
    (hleft : t.left = (r.call.advance fromSlice t.world move).1) :
    Request.Justified fromSlice displayStatus history' i sends replies
      { r with
        call := (r.call.advance fromSlice t.world move).2
        forward := (r.call.advance fromSlice t.world move).2.entered } := by
  have hphase := justified_advance h.phase hhanded hsub htook hleft
  have hbody : (r.call.advance fromSlice t.world move).2.body = r.call.body :=
    (r.call.advance_spec fromSlice t.world i move).body
  obtain ⟨-, rfl, rfl⟩ := h.before hhanded
  refine ⟨by rw [hbody]; exact hphase, fun hno => ⟨?_, rfl, rfl⟩, fun p url hp => ?_, fun a ha => ?_⟩
  · unfold RpcCall.entered
    split
    · rename_i hp
      rw [hp] at hno
      cases hno
    · rfl
  · dsimp only at hp ⊢
    rw [hbody]
    refine ⟨{ args := ⟨r.call.body, url, p.methodLabel⟩ }, ?_, rfl, rfl, rfl⟩
    rw [RpcCall.entered, hp, hbody]
  · exact absurd ha (phase_advance_ne_returned hhanded a)

/-- **A step of `forward_request`.** -/
theorem Request.Justified.forward (h : r.Justified fromSlice displayStatus history i sends replies)
    {f : ForwardCall} (hf : r.forward = some f) (hdropped : r.dropped = false) (move : ForwardMove) :
    Request.Justified fromSlice displayStatus history i (sends ++ r.send i (.forward move))
      (replies ++ (r.receive i (.forward move)).map Prod.snd)
      { r with forward := some (f.advance w move).2 } := by
  have hargs := args_advance w f move
  have hprogress := progress_advance w f move
  obtain ⟨args, phase⟩ := f
  refine ⟨h.phase, fun hno => ?_, fun p url hp => ?_, fun a ha => ?_⟩
  · rw [h.isHanded_of_forward hf] at hno
    cases hno
  · obtain ⟨f, hf', hargs', rfl, hreplies⟩ := h.forwarding p url hp
    rw [hf, Option.some.injEq] at hf'
    subst hf'
    refine ⟨_, rfl, hargs.trans hargs', ?_⟩
    unfold ForwardCall.sends
    rw [hargs]
    rcases hprogress with ⟨now, hphase, rfl, hafter⟩ | ⟨u, hphase, rfl, hafter⟩ | ⟨hbound, hsent, hno, hno', -⟩
    · dsimp only at hphase hafter hreplies ⊢
      subst hphase
      rw [hafter]
      simpa [Request.send, Request.receive, hf, hdropped, ForwardPhase.isSent, ForwardPhase.bound]
        using hreplies
    · dsimp only at hphase hafter hreplies ⊢
      subst hphase
      rw [hafter]
      have hnil : replies = [] := by simpa [ForwardPhase.bound] using hreplies
      simp [Request.send, Request.receive, hf, hdropped, ForwardPhase.isSent, ForwardPhase.bound, hnil]
    · have hsend : r.send i (.forward move) = [] := by
        unfold Request.send
        rw [hf]
        split
        · rename_i heq hmove
          cases heq
          cases hmove
          exact absurd ⟨rfl, rfl⟩ (hno _)
        · rfl
      have hreceive : r.receive i (.forward move) = [] := by
        unfold Request.receive
        rw [hf]
        split
        · rename_i heq hmove
          cases heq
          cases hmove
          exact absurd ⟨rfl, rfl⟩ (hno' _)
        · rfl
      rw [hsend, hreceive, hbound, hsent, List.map_nil, List.append_nil, List.append_nil]
      exact ⟨rfl, hreplies⟩
  · -- nothing is left to do
    obtain ⟨p, endpoint, u, f, hadm, hchosen, hsends, hreplies, ha', hf', hphase⟩ := h.returned a ha
    rw [hf, Option.some.injEq] at hf'
    subst hf'
    dsimp only at hphase
    subst hphase
    refine ⟨p, endpoint, u, _, hadm, hchosen, ?_, ?_, ha', rfl, ?_⟩
    · simp [Request.send, hf, hsends]
    · simp [Request.receive, hf, hreplies]
    · rcases move <;> rfl

/-- **The answer to a request that has been forwarded.** -/
theorem Request.Justified.finish (h : r.Justified fromSlice displayStatus history i sends replies)
    {args : ForwardArgs} {exit : ForwardExit} (hf : r.forward = some ⟨args, .returned exit⟩) :
    Request.Justified fromSlice displayStatus history i sends replies
      { r with
        call := (r.call.advance fromSlice w
          (.receive (exit.result displayStatus args.endpointUrl))).2 } := by
  have hhanded := h.isHanded_of_forward hf
  obtain ⟨⟨body, phase⟩, forward, dropped⟩ := r
  cases phase with
  | handed p url =>
      obtain ⟨f, hf', hargs, rfl, hreplies⟩ := h.forwarding p url rfl
      obtain ⟨hadm, endpoint, hchosen, rfl⟩ := h.phase
      rw [hf, Option.some.injEq] at hf'
      subst hf'
      dsimp only at hargs hreplies
      subst hargs
      obtain ⟨u, rfl, rfl⟩ : ∃ u, replies = [u] ∧ u.exit = exit := by
        simpa [ForwardPhase.bound, List.map_eq_singleton_iff] using hreplies
      refine ⟨trivial, fun hno => (by cases hno), fun _ _ hp => (by cases hp), fun a ha => ?_⟩
      cases ha
      exact ⟨p, endpoint, u, _, hadm, hchosen, rfl, rfl, rfl, hf, rfl⟩
  | returned a => exact h
  | _ => simp [RpcPhase.isHanded] at hhanded

/-- **Every step of a request is justified**, by the record of the step.
Source: `main.rs` `handle_rpc`; `forwarder.rs` `forward_request` -/
theorem Request.Justified.advance (h : r.Justified fromSlice displayStatus history i sends replies)
    (hsub : history ⊆ history') {t : ServiceStep M} (ht : t ∈ history') {move : RequestMove}
    (hevent : t.event = .request i move) (hr : t.before.requests[i]? = some r)
    (hleft : t.left = (r.advance fromSlice displayStatus t.world move).1) :
    (r.advance fromSlice displayStatus t.world move).2.Justified fromSlice displayStatus history' i
      (sends ++ r.send i move) (replies ++ (r.receive i move).map Prod.snd) := by
  have hidle : ∀ {sends' replies'}, sends' = [] → replies' = [] →
      r.Justified fromSlice displayStatus history' i (sends ++ sends') (replies ++ replies') := by
    rintro _ _ rfl rfl
    rw [List.append_nil, List.append_nil]
    exact h.mono hsub
  have hquiet : ∀ {r' : Request}, (∀ fm, move ≠ .forward fm) →
      r'.Justified fromSlice displayStatus history' i sends replies →
      r'.Justified fromSlice displayStatus history' i (sends ++ r.send i move)
        (replies ++ (r.receive i move).map Prod.snd) := by
    intro r' hno hr'
    have hsend : r.send i move = [] := by
      unfold Request.send
      split
      · exact absurd rfl (hno _)
      · rfl
    have hreceive : r.receive i move = [] := by
      unfold Request.receive
      split
      · exact absurd rfl (hno _)
      · rfl
    rw [hsend, hreceive, List.map_nil, List.append_nil, List.append_nil]
    exact hr'
  unfold Request.advance at hleft ⊢
  split
  · rename_i hdropped
    exact hidle (by simp [Request.send, hdropped]) (by simp [Request.receive, hdropped])
  rename_i hdropped
  rw [if_neg hdropped] at hleft
  rw [Bool.not_eq_true] at hdropped
  cases move with
  | handle move =>
      dsimp only at hleft ⊢
      split
      · exact hquiet (fun _ hm => (by cases hm)) (h.mono hsub)
      · rename_i hhanded
        rw [if_neg hhanded] at hleft
        exact hquiet (fun _ hm => (by cases hm)) (h.handle hsub ⟨ht, hevent, r, hr, hdropped, rfl⟩
          (Bool.eq_false_of_not_eq_true hhanded) hleft)
  | forward move =>
      dsimp only
      split
      · rename_i hf
        exact hidle (by simp [Request.send, hf]) (by simp [Request.receive, hf])
      · rename_i f hf
        exact (h.mono hsub).forward hf hdropped move
  | finish =>
      dsimp only
      split
      · rename_i args exit hf
        exact hquiet (fun _ hm => (by cases hm)) ((h.mono hsub).finish hf)
      · exact hquiet (fun _ hm => (by cases hm)) (h.mono hsub)
  | cancel | unwind =>
      dsimp only
      split
      · exact hquiet (fun _ hm => (by cases hm)) (h.mono hsub).drop
      · exact hquiet (fun _ hm => (by cases hm)) (h.mono hsub)

/-- What a step sends is its own request's. -/
theorem call_of_mem_send {move : RequestMove} {o : HandOver} (h : o ∈ r.send i move) : o.call = i := by
  unfold Request.send at h
  split at h
  · rw [List.mem_singleton] at h
    rw [h]
  · cases h

/-- What a step receives is for its own request. -/
theorem call_of_mem_receive {move : RequestMove} {o : ℕ × UpstreamCall} (h : o ∈ r.receive i move) :
    o.1 = i := by
  unfold Request.receive at h
  split at h
  · rw [List.mem_singleton] at h
    rw [h]
  · cases h

/-- A step keeps the body. -/
theorem body_requestAdvance (move : RequestMove) :
    (r.advance fromSlice displayStatus w move).2.call.body = r.call.body := by
  have hbody : ∀ m, (r.call.advance fromSlice w m).2.body = r.call.body := fun m =>
    (r.call.advance_spec fromSlice w 0 m).body
  unfold Request.advance
  split
  · rfl
  · split
    · split
      · rfl
      · exact hbody _
    · split <;> rfl
    · split
      · exact hbody _
      · rfl
    · split <;> rfl
    · split <;> rfl

end requests

/-! ## The service -/

section service

variable {P : Platform} {fromSlice : List UInt8 → Except String Json} {displayStatus : ℕ → String}
  {history : List (ServiceStep M)} {bodies : List (List UInt8)} {s : Service M} {i : ℕ}

/-- The invariant of the service. -/
structure Service.Sound (fromSlice : List UInt8 → Except String Json) (displayStatus : ℕ → String)
    (history : List (ServiceStep M)) (bodies : List (List UInt8)) (s : Service M) : Prop where
  bodies : (s.requests.map fun r => r.call.body) = bodies
  requests : ∀ i (r : Request), s.requests[i]? = some r →
    r.Justified fromSlice displayStatus history i (s.sentBy i) (s.repliesTo i)
  sent : ∀ h ∈ s.sent, h.call < s.requests.length
  replies : ∀ x ∈ s.replies, x.1 < s.requests.length

/-- The requests have just arrived. -/
theorem Service.sound_start (w : World M) (bodies : List (List UInt8)) :
    (Service.start w bodies).Sound fromSlice displayStatus [] bodies where
  bodies := by simp [Service.start, Function.comp_def]
  requests i r hi := by
    obtain ⟨body, -, rfl⟩ := List.mem_map.mp (List.mem_of_getElem? hi)
    exact ⟨trivial, fun _ => ⟨rfl, rfl, rfl⟩, fun _ _ h => (by cases h), fun _ h => (by cases h)⟩
  sent h hh := by cases hh
  replies x hx := by cases hx

/-- What has been sent by a request after the step of another. -/
theorem filter_append_of_ne {α : Type} {key : α → ℕ} {log new : List α} {j : ℕ} (hij : i ≠ j)
    (hnew : ∀ o ∈ new, key o = j) :
    (log ++ new).filter (fun o => key o = i) = log.filter fun o => key o = i := by
  have hnil : new.filter (fun o => key o = i) = [] := by
    rw [List.filter_eq_nil_iff]
    intro o ho
    simpa [hnew o ho] using Ne.symm hij
  rw [List.filter_append, hnil, List.append_nil]

/-- What has been sent by a request after its own step. -/
theorem filter_append_of_eq {α : Type} {key : α → ℕ} {log new : List α} (hnew : ∀ o ∈ new, key o = i) :
    (log ++ new).filter (fun o => key o = i) = (log.filter fun o => key o = i) ++ new := by
  have hall : new.filter (fun o => key o = i) = new := by
    rw [List.filter_eq_self]
    intro o ho
    simpa using hnew o ho
  rw [List.filter_append, hall]

/-- A request is justified after its own step. -/
theorem Service.Sound.advance (P : Platform) (h : s.Sound fromSlice displayStatus history bodies)
    {r : Request} (hi : s.requests[i]? = some r) (move : RequestMove) :
    (r.advance fromSlice displayStatus s.system.world move).2.Justified fromSlice displayStatus
      (history ++ [⟨s, .request i move, s.step P fromSlice displayStatus (.request i move)⟩]) i
      (s.sentBy i ++ r.send i move) (s.repliesTo i ++ (r.receive i move).map Prod.snd) := by
  rw [Service.step_request P fromSlice displayStatus hi]
  exact (h.requests i r hi).advance (List.subset_append_left _ _)
    (List.mem_append_right _ List.mem_cons_self) rfl hi rfl

/-- **Every step keeps the service sound.** -/
theorem Service.Sound.step (h : s.Sound fromSlice displayStatus history bodies) (e : ServiceEvent) :
    (s.step P fromSlice displayStatus e).Sound fromSlice displayStatus
      (history ++ [⟨s, e, s.step P fromSlice displayStatus e⟩]) bodies := by
  have hsub : history ⊆ history ++ [⟨s, e, s.step P fromSlice displayStatus e⟩] :=
    List.subset_append_left _ _
  have hstay : s.Sound fromSlice displayStatus
      (history ++ [⟨s, e, s.step P fromSlice displayStatus e⟩]) bodies :=
    ⟨h.bodies, fun i r hi => (h.requests i r hi).mono hsub, h.sent, h.replies⟩
  cases e with
  | environment e => exact ⟨hstay.bodies, hstay.requests, hstay.sent, hstay.replies⟩
  | request j move =>
      rcases hj : s.requests[j]? with _ | r
      · rw [Service.step_of_none P fromSlice displayStatus hj] at hstay ⊢
        exact hstay
      have hown := h.advance P hj move
      rw [Service.step_request P fromSlice displayStatus hj] at hsub hown ⊢
      have hlen : j < s.requests.length := (List.getElem?_eq_some_iff.mp hj).1
      refine ⟨?_, fun i r' hi => ?_, fun o ho => ?_, fun o ho => ?_⟩
      · exact (Runs.map_set_of_eq hj (body_requestAdvance move)).trans h.bodies
      · unfold Service.sentBy Service.repliesTo at hown ⊢
        dsimp only at hi ⊢
        rw [List.getElem?_set] at hi
        split at hi
        · rename_i hji
          subst hji
          rw [Option.some.injEq] at hi
          subst hi
          rw [filter_append_of_eq fun o => call_of_mem_send, filter_append_of_eq fun o => call_of_mem_receive,
            List.map_append]
          exact hown
        · rename_i hji
          rw [filter_append_of_ne (Ne.symm hji) fun o => call_of_mem_send,
            filter_append_of_ne (Ne.symm hji) fun o => call_of_mem_receive]
          exact (h.requests i r' hi).mono hsub
      · rw [List.length_set]
        rcases List.mem_append.mp ho with hold | hnew
        · exact h.sent o hold
        · rwa [call_of_mem_send hnew]
      · rw [List.length_set]
        rcases List.mem_append.mp ho with hold | hnew
        · exact h.replies o hold
        · rwa [call_of_mem_receive hnew]

/-- Every run keeps the service sound. -/
theorem Service.sound_run (P : Platform) (fromSlice : List UInt8 → Except String Json)
    (displayStatus : ℕ → String) (w : World M) (bodies : List (List UInt8)) (events : List ServiceEvent) :
    ((Service.start w bodies).run P fromSlice displayStatus events).Sound fromSlice displayStatus
      ((Service.start w bodies).history P fromSlice displayStatus events) bodies := by
  refine Runs.invariant_emitted
    (fun s history => Service.Sound fromSlice displayStatus history bodies s) ?_
    (Service.sound_start w bodies)
  intro events e ih
  rw [Runs.run_append, Runs.emitted_append]
  exact ih.step e

end service

/-- **Answers correspond.** For any number of requests with any bodies, and every interleaving of their steps
with each other, with health rounds and with reloads in flight, clients that leave and panics included:

* everything sent to an upstream is some request's, and everything an upstream answers is for some request;
* a request is sent at most once: its own body, after it has taken and passed every check under the limits in
  force at that step, to an endpoint that it has found available and whose limiter it has asked and been charged
  by;
* an answer without a sending is a refusal, for the reason it says;
* every other answer is what the reaction of the upstream to this very request comes to.

Source: `main.rs` `handle_rpc`; `balancer.rs` `get_next_endpoint`, `forward_raw_request`; `forwarder.rs`
`forward_request` -/
theorem answers_correspond (P : Platform) (fromSlice : List UInt8 → Except String Json)
    (displayStatus : ℕ → String) (w : World M) (bodies : List (List UInt8)) (events : List ServiceEvent) :
    let start := Service.start w bodies
    let s := start.run P fromSlice displayStatus events
    let history := start.history P fromSlice displayStatus events
    (∀ h ∈ s.sent, h.call < bodies.length) ∧ (∀ x ∈ s.replies, x.1 < bodies.length) ∧
      ∀ i r, s.requests[i]? = some r → bodies[i]? = some r.call.body ∧
        (s.sentBy i = [] ∨ ∃ p endpoint, Admitted fromSlice history i r.call.body p ∧
          Chosen history i p endpoint ∧
          s.sentBy i = [⟨i, r.call.body, endpoint.url, p.methodLabel⟩]) ∧
        (s.repliesTo i).length ≤ (s.sentBy i).length ∧
        ∀ a, r.answer? = some a →
          (s.sentBy i = [] ∧ Refused fromSlice history i r.call.body a) ∨
            ∃ p u, ∃ endpoint : RpcEndpoint, Admitted fromSlice history i r.call.body p ∧
              Chosen history i p endpoint ∧
              s.sentBy i = [⟨i, r.call.body, endpoint.url, p.methodLabel⟩] ∧ s.repliesTo i = [u] ∧
              a = answerOf p (u.exit.result displayStatus endpoint.url) := by
  intro start s history
  have hsound : s.Sound fromSlice displayStatus history bodies :=
    Service.sound_run P fromSlice displayStatus w bodies events
  have hlen : s.requests.length = bodies.length := by
    rw [← hsound.bodies, List.length_map]
  refine ⟨hlen ▸ hsound.sent, hlen ▸ hsound.replies, fun i r hi => ?_⟩
  have hbody : bodies[i]? = some r.call.body := by
    rw [← hsound.bodies, List.getElem?_map, hi, Option.map_some]
  have hj := hsound.requests i r hi
  by_cases hhanded : r.call.phase.isHanded
  · rcases hphase : r.call.phase with _ | _ | _ | _ | _ | _ | _ | _ | ⟨p, url⟩ | _ | a
    case handed =>
      obtain ⟨f, hf, hargs, hsends, hreplies⟩ := hj.forwarding p url hphase
      have hjust := hj.phase
      rw [hphase] at hjust
      obtain ⟨hadm, endpoint, hchosen, rfl⟩ := hjust
      refine ⟨hbody, ?_, ?_, fun a ha => ?_⟩
      · rw [hsends, ForwardCall.sends, hargs]
        split
        · exact Or.inr ⟨p, endpoint, hadm, hchosen, rfl⟩
        · exact Or.inl rfl
      · have hbound : (s.repliesTo i).length = f.phase.bound.toList.length := by
          rw [← hreplies, List.length_map]
        rw [hbound, hsends, ForwardCall.sends]
        rcases hb : f.phase.bound with _ | exit
        · exact Nat.zero_le _
        · rw [if_pos (isSent_of_bound (by rw [hb]; rfl))]
          exact le_rfl
      · rw [Request.answer?, hphase] at ha
        cases ha
    case returned =>
      obtain ⟨p, endpoint, u, f, hadm, hchosen, hsends, hreplies, ha, -⟩ := hj.returned a hphase
      rw [hsends, hreplies]
      refine ⟨hbody, Or.inr ⟨p, endpoint, hadm, hchosen, rfl⟩, le_rfl, fun a' ha' => Or.inr ?_⟩
      rw [Request.answer?, hphase] at ha'
      cases ha'
      exact ⟨p, u, endpoint, hadm, hchosen, rfl, rfl, ha⟩
    all_goals
      rw [hphase] at hhanded
      cases hhanded
  · obtain ⟨-, hsends, hreplies⟩ := hj.before (Bool.eq_false_of_not_eq_true hhanded)
    refine ⟨hbody, Or.inl hsends, by rw [hreplies]; exact Nat.zero_le _, fun a ha => Or.inl ⟨hsends, ?_⟩⟩
    have hjust := hj.phase
    unfold Request.answer? at ha
    split at ha
    · rename_i hphase
      rw [hphase] at hjust
      cases ha
      exact hjust
    · rename_i hphase
      rw [hphase] at hhanded
      exact absurd rfl hhanded
    · cases ha

end AzothBalancer
