import AzothBalancer.HandleRpc
import AzothBalancer.Lib.Runs
import AzothBalancer.Operation

/-!
# Concurrent requests

`handle_rpc` as a state machine, for any number of calls at the same time. A call runs in steps
between which every other call can run (`RpcPhase`, `RpcCall.advance`): the checks on the bytes, the
permit, the parse, the check of the size, the reading of the candidates, the sort of a tier, the
decision of one limiter, the stamp and the hand-over to `forward_request`. What a step takes from
outside is in its move (`RpcMove`): clock values, whether the semaphore is closed, the order a sort
ends in (its keys are atomics that other calls write meanwhile, so it can be any permutation), and
the result of the forwarding.

Between the steps of the calls the environment may run the other operations: marks, health rounds
and metrics updates. It may also run those that the read guards of a selection hold up; the results
hold for these runs as well.

`exists_runAlone` connects the machine to `handleRpc`: a call whose steps run with nothing in between
ends as `handleRpc` does, in the same world.
-/

namespace AzothBalancer

open JsonText (Json)

variable {M : Meter}

/-! ## Calls -/

/-- Where a call stands.
Source: `main.rs` `handle_rpc`; `balancer.rs` `get_next_endpoint`; `strategy.rs`
`select_best_endpoint` -/
inductive RpcPhase where
  | received
  /-- Waiting for a permit. -/
  | waiting
  | permitted
  | parsed (p : Payload)
  | checked (p : Payload)
  /-- In a selection; these tiers are still to be sorted and tried. -/
  | selecting (p : Payload) (tiers : List (List RpcEndpoint))
  /-- In a selection; these candidates of a tier are still to be tried, from rank `rank` on. -/
  | trying (p : Payload) (rank : ℕ) (candidates : List RpcEndpoint) (tiers : List (List RpcEndpoint))
  /-- The endpoint's limiter has granted the batch; the endpoint has not been stamped. -/
  | reserved (p : Payload) (endpoint : RpcEndpoint)
  /-- In `forward_request`. -/
  | handed (p : Payload) (url : String)
  /-- Answered without forwarding. -/
  | answered (a : RpcAnswer)
  /-- Answered with what the forwarding returned. -/
  | returned (a : RpcAnswer)

/-- A request and where its call stands. -/
structure RpcCall where
  body : List UInt8
  phase : RpcPhase := .received

/-- A step of a call, with what it takes from outside. -/
inductive RpcMove where
  /-- A step that takes nothing from outside. -/
  | proceed
  | acquire (closed : Bool)
  | collect (now : Instant)
  | sort (order : List RpcEndpoint)
  | reserve (now : Instant)
  | stamp (unixSecs : ℕ)
  | receive (result : Except LoadBalancerError (List UInt8))

/-- The call answers and drops its concurrency guard. -/
def RpcCall.answer (call : RpcCall) (w : World M) (a : RpcAnswer) : World M × RpcCall :=
  ({ w with prom := (countAnswer a w.prom).incBy .concurrencyActivePermits [] (-1) },
    { call with phase := .answered a })

/-- The candidates of the three tiers, unsorted.
Source: `strategy.rs` `select_best_endpoint`, `tiers` -/
def unsortedTiers (lb : LoadBalancer) (now : Instant) : List (List RpcEndpoint) :=
  [1, 2, 3].map fun tier =>
    (availableEndpoints lb now).filter fun ep => tierOf ep.weight = some tier

/-- One step of a call: the world and the call afterwards. A move that does not fit the phase does
nothing.
Source: `main.rs` `handle_rpc`; `balancer.rs` `get_next_endpoint`; `strategy.rs`
`select_best_endpoint` -/
def RpcCall.advance (fromSlice : List UInt8 → Except String Json) (w : World M) (call : RpcCall)
    (move : RpcMove) : World M × RpcCall :=
  match call.phase, move with
  | .received, .proceed =>
      let w := { w with prom := w.prom.incBy .concurrencyActivePermits [] 1 }
      match checkRaw w.lb.maxBatchSize call.body with
      | some a => call.answer w a
      | none => (w, { call with phase := .waiting })
  | .waiting, .acquire closed =>
      if closed then call.answer w .internalServerError
      else (w, { call with phase := .permitted })
  | .permitted, .proceed =>
      match parsePayload fromSlice call.body with
      | .error a => call.answer w a
      | .ok p => (w, { call with phase := .parsed p })
  | .parsed p, .proceed =>
      match checkParsed w.lb.maxBatchSize p with
      | some a => call.answer w a
      | none => (w, { call with phase := .checked p })
  | .checked p, .collect now =>
      if (availableEndpoints w.lb now).isEmpty then call.answer w .serviceUnavailable
      else (w, { call with phase := .selecting p (unsortedTiers w.lb now) })
  | .selecting p (tier :: tiers), .sort order =>
      if order.Perm tier then (w, { call with phase := .trying p 0 order tiers }) else (w, call)
  | .selecting _ [], .proceed =>
      call.answer { w with prom := w.prom.inc .allEndpointsRateLimited [] } .serviceUnavailable
  | .trying p rank (endpoint :: rest) tiers, .reserve now =>
      match reserveTokens w endpoint.url p.batchSize now with
      | (.ok (), w) =>
          ({ w with prom := logSelection endpoint rank w.prom },
            { call with phase := .reserved p endpoint })
      | (.error _, w) =>
          ({ w with prom := logRateLimited endpoint w.prom },
            { call with phase := .trying p (rank + 1) rest tiers })
  | .trying p _ [] tiers, .proceed => (w, { call with phase := .selecting p tiers })
  | .reserved p endpoint, .stamp unixSecs =>
      let metrics := w.metrics.modify endpoint.metrics fun m => { m with lastSelected := unixSecs }
      ({ w with metrics := metrics }, { call with phase := .handed p endpoint.url })
  | .handed p _, .receive result =>
      ({ w with prom := w.prom.incBy .concurrencyActivePermits [] (-1) },
        { call with phase := .returned (answerOf p result) })
  | _, _ => (w, call)

/-- The arguments a request is handed to `forward_request` with. -/
structure HandOver where
  /-- The position of the call. -/
  call : ℕ
  requestBody : List UInt8
  endpointUrl : String
  method : String

/-- What a step hands to `forward_request`.
Source: `main.rs` `handle_rpc` -/
def RpcCall.handOver (i : ℕ) (call : RpcCall) (move : RpcMove) : List HandOver :=
  match call.phase, move with
  | .reserved p endpoint, .stamp _ => [⟨i, call.body, endpoint.url, p.methodLabel⟩]
  | _, _ => []

/-! ## The system -/

/-- The world, the calls, and all that has been handed to `forward_request`. -/
structure RpcSystem (M : Meter) where
  world : World M
  calls : List RpcCall
  handed : List HandOver

/-- The requests have just arrived. -/
def RpcSystem.start (w : World M) (bodies : List (List UInt8)) : RpcSystem M :=
  ⟨w, bodies.map fun body => { body := body }, []⟩

/-- A step of an interleaving: of the call at a position, or of the environment. -/
inductive RpcEvent where
  | call (i : ℕ) (move : RpcMove)
  | environment (op : Operation)

/-- The step of an operation of the environment. Selections are made by the calls only. -/
def World.environmentStep (w : World M) : Operation → World M
  | .getNextEndpoint .. => w
  | op => (w.exec op).1

/-- One step of an interleaving. -/
def RpcSystem.step (fromSlice : List UInt8 → Except String Json) (s : RpcSystem M) :
    RpcEvent → RpcSystem M
  | .call i move =>
      match s.calls[i]? with
      | none => s
      | some call =>
          { world := (call.advance fromSlice s.world move).1
            calls := s.calls.set i (call.advance fromSlice s.world move).2
            handed := s.handed ++ call.handOver i move }
  | .environment op => { s with world := s.world.environmentStep op }

/-- The state after an interleaving. -/
def RpcSystem.run (fromSlice : List UInt8 → Except String Json) (s : RpcSystem M)
    (events : List RpcEvent) : RpcSystem M :=
  Runs.run (RpcSystem.step fromSlice) s events

/-- What the call at a position has been answered. -/
def RpcSystem.answer? (s : RpcSystem M) (i : ℕ) : Option RpcAnswer :=
  match s.calls[i]? with
  | some ⟨_, .answered a⟩ | some ⟨_, .returned a⟩ => some a
  | _ => none

/-! ## A call run alone -/

section alone

variable (fromSlice : List UInt8 → Except String Json)

/-- The steps of one call with nothing in between. -/
def runAlone (w : World M) (call : RpcCall) (moves : List RpcMove) : World M × RpcCall :=
  Runs.run (fun (s : World M × RpcCall) move => s.2.advance fromSlice s.1 move) (w, call) moves

/-- Where `handleRpc` leaves a call. -/
def RpcOutcome.phase : RpcOutcome → RpcPhase
  | .answered a => .answered a
  | .handed p url _ => .handed p url

variable {fromSlice}

/-- The first step of a call run alone. -/
theorem runAlone_cons (w : World M) (call : RpcCall) (move : RpcMove) (moves : List RpcMove) :
    runAlone fromSlice w call (move :: moves) =
      runAlone fromSlice (call.advance fromSlice w move).1 (call.advance fromSlice w move).2 moves :=
  rfl

/-- A call run alone in two parts. -/
theorem runAlone_append (w : World M) (call : RpcCall) (moves more : List RpcMove) :
    runAlone fromSlice w call (moves ++ more) =
      runAlone fromSlice (runAlone fromSlice w call moves).1 (runAlone fromSlice w call moves).2
        more :=
  Runs.run_append moves more

/-- Where a scan leaves the call: the endpoint is reserved, or `phase` is what follows. -/
def afterScan (p : Payload) (phase : RpcPhase) : Option RpcEndpoint → RpcPhase
  | some endpoint => .reserved p endpoint
  | none => phase

/-- The steps of the inner loop run as `scanCandidates` does. -/
theorem exists_runAlone_scanCandidates (p : Payload) (now : Instant) (body : List UInt8)
    (tiers : List (List RpcEndpoint)) :
    ∀ (candidates : List RpcEndpoint) (rank : ℕ) (w : World M), ∃ moves,
      runAlone fromSlice w ⟨body, .trying p rank candidates tiers⟩ moves =
        ((scanCandidates p.batchSize now rank candidates w).2,
          ⟨body, afterScan p (.selecting p tiers)
            (scanCandidates p.batchSize now rank candidates w).1⟩)
  | [], _, w => ⟨[.proceed], rfl⟩
  | ep :: rest, rank, w => by
      rcases hres : reserveTokens w ep.url p.batchSize now with ⟨_ | _, w₁⟩
      · obtain ⟨moves, hmoves⟩ := exists_runAlone_scanCandidates p now body tiers rest (rank + 1)
          { w₁ with prom := logRateLimited ep w₁.prom }
        refine ⟨.reserve now :: moves, ?_⟩
        rw [runAlone_cons, scanCandidates]
        simp only [RpcCall.advance, hres]
        exact hmoves
      · refine ⟨[.reserve now], ?_⟩
        rw [runAlone_cons, scanCandidates]
        simp only [RpcCall.advance, hres]
        rfl

/-- The steps of the outer loop run as `scanTiers` does, on tiers sorted the same way. -/
theorem exists_runAlone_scanTiers (p : Payload) (now : Instant) (body : List UInt8)
    {sorted unsorted : List (List RpcEndpoint)} (h : List.Forall₂ List.Perm sorted unsorted) :
    ∀ w : World M, ∃ moves,
      runAlone fromSlice w ⟨body, .selecting p unsorted⟩ moves =
        ((scanTiers p.batchSize now sorted w).2,
          ⟨body, afterScan p (.selecting p []) (scanTiers p.batchSize now sorted w).1⟩) := by
  induction h with
  | nil => exact fun w => ⟨[], rfl⟩
  | @cons order tier sorted unsorted hperm _ ih =>
      intro w
      obtain ⟨moves, hmoves⟩ : ∃ moves,
          runAlone fromSlice w ⟨body, .trying p 0 order unsorted⟩ moves = _ :=
        exists_runAlone_scanCandidates p now body unsorted order 0 w
      have hsort : runAlone fromSlice w ⟨body, .selecting p (tier :: unsorted)⟩
          (.sort order :: moves) =
          ((scanCandidates p.batchSize now 0 order w).2,
            ⟨body, afterScan p (.selecting p unsorted)
              (scanCandidates p.batchSize now 0 order w).1⟩) := by
        rw [runAlone_cons]
        simp only [RpcCall.advance, if_pos hperm]
        exact hmoves
      rw [scanTiers]
      rcases hscan : scanCandidates p.batchSize now 0 order w with ⟨_ | ep, w₁⟩
      · rw [hscan] at hsort
        obtain ⟨more, hmore⟩ := ih w₁
        refine ⟨.sort order :: moves ++ more, ?_⟩
        rw [runAlone_append, hsort]
        exact hmore
      · rw [hscan] at hsort
        exact ⟨.sort order :: moves, hsort⟩

/-- The tiers the strategy sorts. -/
theorem forall₂_perm_sortedTiers (w : World M) (now : Instant) :
    List.Forall₂ List.Perm (sortedTiers w now) (unsortedTiers w.lb now) := by
  have hperm : ∀ useCost candidates,
      (sortCandidates w.metricsOf useCost candidates).Perm candidates :=
    fun _ _ => List.perm_insertionSort _ _
  exact .cons (hperm ..) (.cons (hperm ..) (.cons (hperm ..) .nil))

/-- A selection run alone: stamped and handed over, or answered 503.
Source: `balancer.rs` `get_next_endpoint` -/
theorem exists_runAlone_getNextEndpoint (p : Payload) (clock : Clock) (body : List UInt8)
    (w : World M) : ∃ moves,
      runAlone fromSlice w ⟨body, .checked p⟩ moves =
        match getNextEndpoint w p.batchSize clock with
        | (some url, w) => (w, ⟨body, .handed p url⟩)
        | (none, w) => RpcCall.answer ⟨body, .checked p⟩ w .serviceUnavailable := by
  have hcollect : ∀ moves, (availableEndpoints w.lb clock.now).isEmpty = false →
      runAlone fromSlice w ⟨body, .checked p⟩ (.collect clock.now :: moves) =
        runAlone fromSlice w ⟨body, .selecting p (unsortedTiers w.lb clock.now)⟩ moves := by
    intro moves hne
    rw [runAlone_cons]
    simp [RpcCall.advance, hne]
  obtain ⟨moves, hmoves⟩ : ∃ moves,
      runAlone fromSlice w ⟨body, .selecting p (unsortedTiers w.lb clock.now)⟩ moves = _ :=
    exists_runAlone_scanTiers p clock.now body (forall₂_perm_sortedTiers w clock.now) w
  unfold getNextEndpoint selectBestEndpoint
  cases hempty : (availableEndpoints w.lb clock.now).isEmpty with
  | true =>
      refine ⟨[.collect clock.now], ?_⟩
      rw [runAlone_cons]
      simp only [RpcCall.advance, hempty, if_true]
      rfl
  | false =>
      simp only [Bool.false_eq_true, if_false]
      rcases hscan : scanTiers p.batchSize clock.now (sortedTiers w clock.now) w with ⟨_ | ep, w₁⟩
      · rw [hscan] at hmoves
        refine ⟨.collect clock.now :: (moves ++ [.proceed]), ?_⟩
        rw [hcollect _ hempty, runAlone_append, hmoves]
        rfl
      · rw [hscan] at hmoves
        refine ⟨.collect clock.now :: (moves ++ [.stamp clock.unixSecs]), ?_⟩
        rw [hcollect _ hempty, runAlone_append, hmoves]
        rfl

/-- **A call run alone** does what `handleRpc` does: some order of its steps ends in the same world,
with the same answer or hand-over.
Source: `main.rs` `handle_rpc` -/
theorem exists_runAlone (w : World M) (body : List UInt8) (closed : Bool) (clock : Clock) :
    ∃ moves, runAlone fromSlice w { body := body } moves =
      ((handleRpc fromSlice closed clock w body).2,
        { body := body, phase := (handleRpc fromSlice closed clock w body).1.phase }) := by
  unfold handleRpc
  dsimp only
  cases hraw : checkRaw w.lb.maxBatchSize body with
  | some a =>
      refine ⟨[.proceed], ?_⟩
      rw [runAlone_cons]
      simp only [RpcCall.advance, hraw]
      rfl
  | none =>
      have hreceived : ∀ moves, runAlone fromSlice w { body := body } (.proceed :: moves) =
          runAlone fromSlice { w with prom := w.prom.incBy .concurrencyActivePermits [] 1 }
            ⟨body, .waiting⟩ moves := by
        intro moves
        rw [runAlone_cons]
        simp only [RpcCall.advance, hraw]
      cases closed with
      | true =>
          refine ⟨[.proceed, .acquire true], ?_⟩
          rw [hreceived]
          rfl
      | false =>
          simp only [Bool.false_eq_true, if_false]
          have hpermitted : ∀ moves,
              runAlone fromSlice w { body := body } (.proceed :: .acquire false :: moves) =
                runAlone fromSlice { w with prom := w.prom.incBy .concurrencyActivePermits [] 1 }
                  ⟨body, .permitted⟩ moves := by
            intro moves
            rw [hreceived]
            rfl
          cases hparse : parsePayload fromSlice body with
          | error a =>
              refine ⟨[.proceed, .acquire false, .proceed], ?_⟩
              rw [hpermitted, runAlone_cons]
              simp only [RpcCall.advance, hparse]
              rfl
          | ok p =>
              have hparsed : ∀ moves, runAlone fromSlice w { body := body }
                  (.proceed :: .acquire false :: .proceed :: moves) =
                    runAlone fromSlice { w with prom := w.prom.incBy .concurrencyActivePermits [] 1 }
                      ⟨body, .parsed p⟩ moves := by
                intro moves
                rw [hpermitted, runAlone_cons]
                simp only [RpcCall.advance, hparse]
              cases hsize : checkParsed w.lb.maxBatchSize p with
              | some a =>
                  refine ⟨[.proceed, .acquire false, .proceed, .proceed], ?_⟩
                  rw [hparsed, runAlone_cons]
                  simp only [RpcCall.advance, hsize]
                  rfl
              | none =>
                  obtain ⟨moves, hmoves⟩ : ∃ moves, runAlone fromSlice
                      { w with prom := w.prom.incBy .concurrencyActivePermits [] 1 }
                      ⟨body, .checked p⟩ moves = _ :=
                    exists_runAlone_getNextEndpoint p clock body _
                  refine ⟨.proceed :: .acquire false :: .proceed :: .proceed :: moves, ?_⟩
                  rw [hparsed, runAlone_cons]
                  simp only [RpcCall.advance, hsize]
                  refine hmoves.trans ?_
                  rcases getNextEndpoint _ p.batchSize clock with ⟨_ | url, w₁⟩ <;> rfl

end alone

end AzothBalancer
