import AzothBalancer.RequestCounters
import AzothBalancer.Service

/-!
# The flow of requests

What the label-less counters and the concurrency gauge say about the requests of the service, in every state of
every interleaving with reloads, health rounds, leaving clients and panics.

* `Request.tally` — what a request is counted in, by where it stands.
* `value_requestAdvance` — a step of a request moves the registry by what it is then counted in; nothing else
  moves these series (`value_environmentStep`), the cleanup of a reload included.
* `flow_conserved` — no request is lost: each has not arrived, is underway, answered or dropped, and the registry
  shows how many.
-/

namespace AzothBalancer

open JsonText (Json)

variable {M : Meter}

/-! ## What a request is counted in -/

/-- The handler has been entered and has not ended. -/
def RpcPhase.underway : RpcPhase → Bool
  | .received | .answered _ | .returned _ => false
  | _ => true

/-- What a call of `handle_rpc` is counted in. -/
def RpcPhase.tally : RpcPhase → Family → ℕ
  | .answered .batchTooLarge, .batchSizeExceeded => 1
  | phase, .concurrencyActivePermits => phase.underway.toNat
  | _, _ => 0

/-- The handler has been entered and has not ended, the future exists. -/
def Request.underway (r : Request) : Bool := !r.dropped && r.call.phase.underway

/-- The request has been sent. -/
def Request.isSent (r : Request) : Bool := r.forward.any fun f => f.phase.isSent

/-- The request is counted and not sent yet. -/
def Request.leaving (r : Request) : Bool :=
  match r.forward with
  | some ⟨_, .counted⟩ => true
  | _ => false

/-- What a request is counted in. -/
def Request.tally (r : Request) : Family → ℕ
  | .concurrencyActivePermits => r.underway.toNat
  | .rpcRequestsTotal => r.isSent.toNat + r.leaving.toNat
  | f => r.call.phase.tally f

/-- The series the flow of requests is read off. -/
def flowFamilies : List Family := [.concurrencyActivePermits, .batchSizeExceeded, .rpcRequestsTotal]

section steps

variable {fromSlice : List UInt8 → Except String Json} {displayStatus : ℕ → String} {w : World M}
  {f : Family}

/-- An answer drops the guard, and may count a batch. -/
theorem value_answerFlow (call : RpcCall) {w w' : World M} {phase : RpcPhase} (a : RpcAnswer)
    (hf : f ∈ flowFamilies) (hvalue : w'.prom.value f [] + phase.tally f =
      w.prom.value f [] + RpcPhase.waiting.tally f) :
    (call.answer w' a).1.prom.value f [] + phase.tally f =
      w.prom.value f [] + (call.answer w' a).2.phase.tally f := by
  have hanswer : (call.answer w' a).1.prom.value f [] + RpcPhase.waiting.tally f =
      w'.prom.value f [] + (RpcPhase.answered a).tally f := by
    simp only [flowFamilies, List.mem_cons, List.not_mem_nil, or_false] at hf
    rcases hf with rfl | rfl | rfl <;> cases a <;>
      simp [RpcCall.answer, countAnswer, RpcPhase.tally, RpcPhase.underway]
  show _ = w.prom.value f [] + ((RpcPhase.answered a).tally f : ℤ)
  omega

/-- **A step of `handle_rpc` moves the registry by what the call is then counted in.**
Source: `main.rs` `handle_rpc` -/
theorem value_rpcAdvance (call : RpcCall) (move : RpcMove) (hf : f ∈ flowFamilies) :
    (call.advance fromSlice w move).1.prom.value f [] + call.phase.tally f =
      w.prom.value f [] + (call.advance fromSlice w move).2.phase.tally f := by
  obtain ⟨body, phase⟩ := call
  have hf' := hf
  simp only [flowFamilies, List.mem_cons, List.not_mem_nil, or_false] at hf'
  unfold RpcCall.advance
  dsimp only
  split
  · have harrive : (w.prom.incBy .concurrencyActivePermits [] 1).value f [] + RpcPhase.received.tally f =
        w.prom.value f [] + RpcPhase.waiting.tally f := by
      rcases hf' with rfl | rfl | rfl <;> simp [RpcPhase.tally, RpcPhase.underway]
    split
    · exact value_answerFlow _ _ hf harrive
    · exact harrive
  · split
    · exact value_answerFlow _ _ hf rfl
    · rcases hf' with rfl | rfl | rfl <;> rfl
  · split
    · exact value_answerFlow _ _ hf (by rcases hf' with rfl | rfl | rfl <;> rfl)
    · rcases hf' with rfl | rfl | rfl <;> rfl
  · split
    · exact value_answerFlow _ _ hf (by rcases hf' with rfl | rfl | rfl <;> rfl)
    · rcases hf' with rfl | rfl | rfl <;> rfl
  · split
    · exact value_answerFlow _ _ hf (by rcases hf' with rfl | rfl | rfl <;> rfl)
    · rcases hf' with rfl | rfl | rfl <;> rfl
  · split
    · rcases hf' with rfl | rfl | rfl <;> rfl
    · rfl
  · refine value_answerFlow _ _ hf ?_
    rcases hf' with rfl | rfl | rfl <;> simp [RpcPhase.tally, RpcPhase.underway]
  · rename_i p rank endpoint rest tiers now
    have hprom := reserveTokens_prom w endpoint.url p.batchSize now
    split
    · rename_i w' hw'
      rw [hw'] at hprom
      dsimp only at hprom
      rcases hf' with rfl | rfl | rfl <;>
        simp [logSelection, hprom, RpcPhase.tally, RpcPhase.underway]
    · rename_i w' hw'
      rw [hw'] at hprom
      dsimp only at hprom
      rcases hf' with rfl | rfl | rfl <;>
        simp [logRateLimited, hprom, RpcPhase.tally, RpcPhase.underway]
  · rcases hf' with rfl | rfl | rfl <;> rfl
  · rcases hf' with rfl | rfl | rfl <;> rfl
  · rcases hf' with rfl | rfl | rfl <;> simp [RpcPhase.tally, RpcPhase.underway]
  · rfl

/-- The call is answered that no endpoint can serve it. -/
def RpcPhase.unavailable : RpcPhase → Bool
  | .answered .serviceUnavailable => true
  | _ => false

/-- A scan that has found no endpoint answers so.
Source: `strategy.rs` `select_best_endpoint`, `ALL_ENDPOINTS_RATE_LIMITED` -/
theorem value_exhausted (call : RpcCall) (move : RpcMove) :
    (call.advance fromSlice w move).1.prom.value .allEndpointsRateLimited [] +
        call.phase.unavailable.toNat ≤
      w.prom.value .allEndpointsRateLimited [] +
        (call.advance fromSlice w move).2.phase.unavailable.toNat := by
  have hanswer : ∀ a : RpcAnswer,
      (call.answer w a).1.prom.value .allEndpointsRateLimited [] =
        w.prom.value .allEndpointsRateLimited [] := by
    intro a
    cases a <;> simp [RpcCall.answer, countAnswer]
  have hmono : ∀ {w' : World M} {call' : RpcCall},
      w'.prom.value .allEndpointsRateLimited [] = w.prom.value .allEndpointsRateLimited [] →
      call.phase.unavailable = false →
      w'.prom.value .allEndpointsRateLimited [] + (call.phase.unavailable.toNat : ℤ) ≤
        w.prom.value .allEndpointsRateLimited [] + call'.phase.unavailable.toNat := by
    intro w' call' hvalue hphase
    rw [hvalue, hphase]
    simp
  obtain ⟨body, phase⟩ := call
  unfold RpcCall.advance
  dsimp only
  split
  · split
    · rename_i a _
      refine hmono ?_ rfl
      cases a <;> simp [RpcCall.answer, countAnswer]
    · exact hmono (by simp) rfl
  · split
    · exact hmono (hanswer _) rfl
    · exact hmono rfl rfl
  · split
    · exact hmono (hanswer _) rfl
    · exact hmono rfl rfl
  · split
    · exact hmono (hanswer _) rfl
    · exact hmono rfl rfl
  · split
    · exact hmono (hanswer _) rfl
    · exact hmono rfl rfl
  · split
    · exact hmono rfl rfl
    · exact hmono rfl rfl
  · simp [RpcCall.answer, countAnswer, RpcPhase.unavailable]
  · rename_i p rank endpoint rest tiers now
    have hprom := reserveTokens_prom w endpoint.url p.batchSize now
    split
    · rename_i w' hw'
      rw [hw'] at hprom
      dsimp only at hprom
      exact hmono (by simp [logSelection, hprom]) rfl
    · rename_i w' hw'
      rw [hw'] at hprom
      dsimp only at hprom
      exact hmono (by simp [logRateLimited, hprom]) rfl
  · exact hmono rfl rfl
  · exact hmono rfl rfl
  · exact hmono (by simp) rfl
  · exact le_rfl

/-- Marks and health rounds write none of these series. -/
theorem not_markWrites (hf : f ∈ .allEndpointsRateLimited :: flowFamilies) (urls labels : List String) :
    ¬ MarkWrites urls f labels := by
  intro hw
  unfold MarkWrites at hw
  split at hw
  · exact absurd hf (by decide)
  · exact absurd hf (by decide)
  · exact hw

/-- What `forward_request` does not write. -/
theorem value_forwardAdvance_of_not_mem (call : ForwardCall) (move : ForwardMove)
    (hrequest : f ∉ requestFamilies) (hf : f ∈ .allEndpointsRateLimited :: flowFamilies)
    (labels : List String) : (call.advance w move).1.prom.value f labels = w.prom.value f labels := by
  have hop : ∀ op : Operation, w.OperationWrites op = MarkWrites w.urls →
      (w.exec op).1.prom.value f labels = w.prom.value f labels := by
    intro op hop
    refine (writes_exec w op).value ?_
    rw [hop]
    exact not_markWrites hf w.urls labels
  have hcount : ∀ f' ∈ requestFamilies, ∀ labels', (w.count f' labels').prom.value f labels =
      w.prom.value f labels := by
    intro f' hf' labels'
    have hne : f ≠ f' := fun h => hrequest (h ▸ hf')
    simp [World.count, hne]
  obtain ⟨args, phase⟩ := call
  unfold ForwardCall.advance
  dsimp only
  split
  · have hne : f ≠ .requestLatencyPerEndpoint := fun h => hrequest (h ▸ by decide)
    simp [hne]
  · exact hcount _ (by decide) _
  · exact hcount _ (by decide) _
  · rfl
  · exact hcount _ (by decide) _
  · exact hop (.updateMetrics ..) rfl
  · rename_i u now
    split
    · rename_i f' hcause
      exact hcount _ (cause_spec args hcause).1 _
    · rfl
  · split
    · rfl
    · exact hcount _ (bodyFamily_mem _) _
  · rename_i why now
    have hmark := hop (.markUnhealthy args.endpointUrl now) rfl
    simp only [World.exec] at hmark
    split <;> rename_i hw' <;> rw [hw'] at hmark <;> exact hmark
  · exact hcount _ (by decide) _
  · exact hcount _ (by decide) _
  · rename_i now
    have hmark := hop (.markRateLimited args.endpointUrl now) rfl
    simp only [World.exec] at hmark
    split <;> rename_i hw' <;> rw [hw'] at hmark <;> exact hmark
  · rfl
  · rfl

/-! ## A step of a request -/

variable {history : List (ServiceStep M)} {i : ℕ} {sends : List HandOver}
  {replies : List UpstreamCall} {r : Request}

/-- What a request has sent, by its record. -/
theorem Request.Justified.length_sends (h : r.Justified fromSlice displayStatus history i sends replies) :
    sends.length = r.isSent.toNat := by
  obtain ⟨⟨body, phase⟩, forward, dropped⟩ := r
  by_cases hhanded : phase.isHanded
  · cases phase with
    | handed p url =>
        obtain ⟨f, rfl, -, rfl, -⟩ := h.forwarding p url rfl
        unfold ForwardCall.sends
        rcases hs : f.phase.isSent with _ | _ <;> simp [Request.isSent, hs]
    | returned a =>
        obtain ⟨p, endpoint, u, f, -, -, rfl, -, -, rfl, hphase⟩ := h.returned a rfl
        simp [Request.isSent, hphase, ForwardPhase.isSent]
    | _ => cases hhanded
  · obtain ⟨rfl, rfl, -⟩ := h.before (Bool.eq_false_of_not_eq_true hhanded)
    rfl

/-- A request that awaits or has panicked is underway, if its future exists. -/
theorem Request.Justified.underway_of_drop
    (h : r.Justified fromSlice displayStatus history i sends replies)
    (hdrop : r.awaits = true ∨ r.panicked = true) :
    r.call.phase.underway = true ∧ (r.forward = none ∨ r.isSent = true) := by
  obtain ⟨⟨body, phase⟩, forward, dropped⟩ := r
  rcases hdrop with hawait | hpanic
  · unfold Request.awaits at hawait
    split at hawait
    · rename_i hphase
      dsimp only at hphase
      subst hphase
      exact ⟨rfl, Or.inl (h.before rfl).1⟩
    · rename_i hphase hf
      dsimp only at hphase hf
      subst hphase hf
      exact ⟨rfl, Or.inr rfl⟩
    · rename_i hphase hf
      dsimp only at hphase hf
      subst hphase hf
      exact ⟨rfl, Or.inr rfl⟩
    · cases hawait
  · unfold Request.panicked at hpanic
    have hsent : ∃ f, forward = some f ∧ f.phase.isSent = true ∧ ∀ exit, f.phase ≠ .returned exit := by
      split at hpanic
      · rename_i hf
        exact ⟨_, hf, rfl, fun _ hno => (by cases hno)⟩
      · rename_i hf
        exact ⟨_, hf, rfl, fun _ hno => (by cases hno)⟩
      · cases hpanic
    obtain ⟨f, rfl, hsent, hne⟩ := hsent
    have hhanded := h.isHanded_of_forward rfl
    refine ⟨?_, Or.inr hsent⟩
    cases phase with
    | handed p url => rfl
    | returned a =>
        obtain ⟨_, _, u, f', -, -, -, -, -, hf', hphase⟩ := h.returned a rfl
        cases hf'
        exact absurd hphase (hne _)
    | _ => cases hhanded

/-- The guard of a request that is dropped. -/
theorem value_dropGuard (w : World M) (f : Family) (labels : List String) :
    w.dropGuard.prom.value f labels =
      w.prom.value f labels - if f = .concurrencyActivePermits ∧ labels = [] then 1 else 0 := by
  unfold World.dropGuard
  rw [Registry.value_incBy]
  split <;> simp [Int.sub_eq_add_neg]

/-- A timer that is dropped observes in no series of the flow. -/
theorem value_observeDrop (r : Request) (m : Registry) (f : Family) :
    (r.observeDrop m).value f [] = m.value f [] := by
  unfold Request.observeDrop
  split
  · simp
  · rfl

/-- What a call of `forward_request` adds to the total. -/
theorem tally_rpcRequestsTotal (f : ForwardCall) :
    f.tally .rpcRequestsTotal [] =
      Request.tally { call := { body := [] }, forward := some f } .rpcRequestsTotal := by
  obtain ⟨args, phase⟩ := f
  cases phase with
  | returning exit | returned exit =>
      have htotal := (count_exit_causes exit).2
      simp [ForwardCall.tally, ForwardArgs.labels, ForwardPhase.written, commonFamilies, htotal,
        Request.tally, Request.isSent, Request.leaving, ForwardPhase.isSent]
  | failing why | marked why | unwound why =>
      cases why <;>
        simp [ForwardCall.tally, ForwardArgs.labels, ForwardPhase.written, commonFamilies,
          ForwardFailure.written, Request.tally, Request.isSent, Request.leaving, ForwardPhase.isSent]
  | _ =>
      simp [ForwardCall.tally, ForwardArgs.labels, ForwardPhase.written, commonFamilies,
        Request.tally, Request.isSent, Request.leaving, ForwardPhase.isSent]

/-- A step of `forward_request` moves the registry by what the request is then counted in. -/
theorem value_requestForward (hdropped : r.dropped = false) {call : ForwardCall}
    (hforward : r.forward = some call) (move : ForwardMove) (hf : f ∈ flowFamilies) :
    (call.advance w move).1.prom.value f [] + r.tally f =
      w.prom.value f [] + Request.tally { r with forward := some (call.advance w move).2 } f := by
  by_cases htotal : f = .rpcRequestsTotal
  · subst htotal
    have hvalue := value_forwardAdvance w call move
      (List.mem_cons_self : Family.rpcRequestsTotal ∈ requestFamilies) []
    rw [tally_rpcRequestsTotal, tally_rpcRequestsTotal] at hvalue
    obtain ⟨c, forward, dropped⟩ := r
    dsimp only at hforward
    subst hforward
    exact hvalue
  · have hout : f ∉ requestFamilies := by
      simp only [flowFamilies, List.mem_cons, List.not_mem_nil, or_false, htotal] at hf
      rcases hf with rfl | rfl <;> decide
    rw [value_forwardAdvance_of_not_mem call move hout (List.mem_cons_of_mem _ hf)]
    simp only [flowFamilies, List.mem_cons, List.not_mem_nil, or_false, htotal] at hf
    rcases hf with rfl | rfl <;> rfl

/-- **A step of a request moves the registry by what it is then counted in.**
Source: `main.rs` `handle_rpc`; `forwarder.rs` `forward_request` -/
theorem value_requestAdvance (h : r.Justified fromSlice displayStatus history i sends replies)
    (move : RequestMove) (hf : f ∈ flowFamilies) :
    (r.advance fromSlice displayStatus w move).1.prom.value f [] + r.tally f =
      w.prom.value f [] + (r.advance fromSlice displayStatus w move).2.tally f := by
  have hf' := hf
  simp only [flowFamilies, List.mem_cons, List.not_mem_nil, or_false] at hf'
  unfold Request.advance
  split
  · rfl
  rename_i hdropped
  rw [Bool.not_eq_true] at hdropped
  have hdrop : ∀ {prom : Registry}, prom.value f [] = w.prom.value f [] → r.call.phase.underway = true →
      (World.dropGuard { w with prom := prom }).prom.value f [] + r.tally f =
        w.prom.value f [] + Request.tally { r with dropped := true } f := by
    intro prom hprom hunderway
    rw [value_dropGuard]
    dsimp only
    rw [hprom]
    rcases hf' with rfl | rfl | rfl
    · simp [Request.tally, Request.underway, hdropped, hunderway]
    · simp [Request.tally]
    · simp [Request.tally, Request.isSent, Request.leaving]
  cases move with
  | handle move =>
      dsimp only
      split
      · rfl
      · rename_i hhanded
        obtain ⟨hnone, -⟩ := h.before (Bool.eq_false_of_not_eq_true hhanded)
        have hvalue : (r.call.advance fromSlice w move).1.prom.value f [] + _ = _ :=
          value_rpcAdvance r.call move hf
        rcases hf' with rfl | rfl | rfl
        · simpa [Request.tally, Request.underway, hdropped, RpcPhase.tally] using hvalue
        · simpa [Request.tally] using hvalue
        · have hafter : Request.tally
              { r with
                call := (r.call.advance fromSlice w move).2
                forward := (r.call.advance fromSlice w move).2.entered } .rpcRequestsTotal = 0 := by
            unfold Request.tally Request.isSent Request.leaving RpcCall.entered
            dsimp only
            split <;> rfl
          have hzero : ∀ phase : RpcPhase, phase.tally .rpcRequestsTotal = 0 := fun phase => by
            cases phase <;> first | rfl | (rename_i a; cases a <;> rfl)
          rw [hafter]
          simpa [Request.tally, Request.isSent, Request.leaving, hnone, hzero] using hvalue
  | forward move =>
      dsimp only
      split
      · rfl
      · rename_i call hforward
        exact value_requestForward hdropped hforward move hf
  | finish =>
      dsimp only
      split
      · rename_i args exit hforward
        have hvalue : (r.call.advance fromSlice w
            (.receive (exit.result displayStatus args.endpointUrl))).1.prom.value f [] + _ = _ :=
          value_rpcAdvance r.call _ hf
        rcases hf' with rfl | rfl | rfl
        · simpa [Request.tally, Request.underway, hdropped, RpcPhase.tally] using hvalue
        · simpa [Request.tally] using hvalue
        · have hzero : ∀ phase : RpcPhase, phase.tally .rpcRequestsTotal = 0 := fun phase => by
            cases phase <;> first | rfl | (rename_i a; cases a <;> rfl)
          simpa [Request.tally, Request.isSent, Request.leaving, hzero] using hvalue
      · rfl
  | cancel =>
      dsimp only
      split
      · rename_i hawaits
        exact hdrop (value_observeDrop r w.prom f) (h.underway_of_drop (Or.inl hawaits)).1
      · rfl
  | unwind =>
      dsimp only
      split
      · rename_i hpanicked
        exact hdrop rfl (h.underway_of_drop (Or.inr hpanicked)).1
      · rfl

/-- A step of a request counts an exhausted scan only where it answers so. -/
theorem value_requestExhausted (r : Request) (move : RequestMove) :
    (r.advance fromSlice displayStatus w move).1.prom.value .allEndpointsRateLimited [] +
        r.call.phase.unavailable.toNat ≤
      w.prom.value .allEndpointsRateLimited [] +
        (r.advance fromSlice displayStatus w move).2.call.phase.unavailable.toNat := by
  unfold Request.advance
  split
  · exact le_rfl
  cases move with
  | handle move =>
      dsimp only
      split
      · exact le_rfl
      · exact value_exhausted r.call move
  | forward move =>
      dsimp only
      split
      · exact le_rfl
      · rename_i call _
        rw [value_forwardAdvance_of_not_mem call move (by decide) List.mem_cons_self]
  | finish =>
      dsimp only
      split
      · exact value_exhausted r.call _
      · exact le_rfl
  | cancel =>
      dsimp only
      split
      · rw [value_dropGuard]
        simp [value_observeDrop]
      · exact le_rfl
  | unwind =>
      dsimp only
      split
      · rw [value_dropGuard]
        simp
      · exact le_rfl

/-- A request that is dropped was underway, and has not begun to be forwarded or has been sent. -/
def Request.DroppedRight (r : Request) : Prop :=
  r.dropped = true → r.call.phase.underway = true ∧ (r.forward = none ∨ r.isSent = true)

/-- Requests are dropped only where they await or panic. -/
theorem droppedRight_advance (h : r.Justified fromSlice displayStatus history i sends replies)
    (hright : r.DroppedRight) (move : RequestMove) :
    (r.advance fromSlice displayStatus w move).2.DroppedRight := by
  unfold Request.advance
  split
  · exact hright
  rename_i hdropped
  cases move with
  | handle move =>
      dsimp only
      split
      · exact hright
      · exact fun hno => absurd hno hdropped
  | forward move =>
      dsimp only
      split
      · exact hright
      · exact fun hno => absurd hno hdropped
  | finish =>
      dsimp only
      split
      · exact fun hno => absurd hno hdropped
      · exact hright
  | cancel =>
      dsimp only
      split
      · rename_i hawaits
        exact fun _ => h.underway_of_drop (Or.inl hawaits)
      · exact hright
  | unwind =>
      dsimp only
      split
      · rename_i hpanicked
        exact fun _ => h.underway_of_drop (Or.inr hpanicked)
      · exact hright

end steps

/-! ## Everything else -/

/-- No section of a reload writes the series of the flow; a cleanup removes labelled series only.
Source: `config_reloader.rs` `reload`, `cleanup_endpoint_metrics` -/
theorem value_execSection_nil (P : Platform) (c : Settings) (now : Instant) (w : World M)
    (frame : ReloadFrame) (sec : ReloadSection) {f : Family} (hf : f ∉ gaugeFamilies) :
    (execSection P c now w frame sec).1.prom.value f [] = w.prom.value f [] := by
  by_cases hsec : sec = .cleanup
  · subst hsec
    have hclean : ∀ (urls : List String) (m : Registry),
        (urls.foldl (fun m url => cleanupEndpointMetrics url m) m).value f [] = m.value f [] := by
      intro urls
      induction urls with
      | nil => exact fun m => rfl
      | cons url urls ih =>
          intro m
          rw [List.foldl_cons, ih]
          simp [cleanupEndpointMetrics, Registry.removeLabelValues, Registry.value, Registry.put]
    unfold execSection
    split
    · rfl
    · exact hclean _ _
  · exact value_execSection P c now w frame (fun h => absurd h hsec) hf []

/-- **Nothing but requests moves the series of the flow.** -/
theorem value_environmentStep (P : Platform) (s : System M) (e : SystemEvent) {f : Family}
    (hf : f ∈ .allEndpointsRateLimited :: flowFamilies) :
    (s.environmentStep P e).world.prom.value f [] = s.world.prom.value f [] := by
  have hgauge : f ∉ gaugeFamilies := by
    have hall : ∀ f ∈ Family.allEndpointsRateLimited :: flowFamilies, f ∉ gaugeFamilies := by decide
    exact hall f hf
  have hop : ∀ op : Operation, (∀ n clock, op ≠ .getNextEndpoint n clock) →
      (s.world.exec op).1.prom.value f [] = s.world.prom.value f [] := by
    intro op hne
    refine (writes_exec s.world op).value fun hw => ?_
    unfold World.OperationWrites at hw
    split at hw
    · exact hne _ _ rfl
    · exact absurd (hw ▸ hf) (by decide)
    · exact not_markWrites hf _ _ hw
  unfold System.environmentStep
  split
  · rfl
  · rename_i hne
    cases e with
    | operation op => exact hop op fun n clock h => hne n clock (h ▸ rfl)
    | startReload read now =>
        unfold System.step
        dsimp only
        split <;> rfl
    | reloadSection k =>
        rcases hk : s.reloads[k]? with _ | call
        · rw [System.step_reloadSection_of_none P hk]
        · rw [System.step_reloadSection P hk]
          unfold ReloadCall.advance
          split
          · rfl
          · exact value_execSection_nil P _ _ _ _ _ hgauge

/-! ## The service -/

/-- The number of requests with this property. -/
def Service.number (s : Service M) (q : Request → Bool) : ℕ := (s.requests.map fun r => (q r).toNat).sum

/-- What a label-less series shows. -/
def Service.shows (s : Service M) (f : Family) : ℤ := s.system.world.prom.value f []

/-- The registry shows what the requests are counted in. -/
structure Service.Tallied (s : Service M) : Prop where
  counted : ∀ f ∈ flowFamilies, s.shows f = (s.requests.map fun r => r.tally f).sum
  exhausted : s.shows .allEndpointsRateLimited ≤ s.number fun r => r.call.phase.unavailable
  sent : s.sent.length = s.number Request.isSent
  dropped : ∀ r ∈ s.requests, r.DroppedRight

section service

variable {P : Platform} {fromSlice : List UInt8 → Except String Json} {displayStatus : ℕ → String}
  {history : List (ServiceStep M)} {bodies : List (List UInt8)} {s : Service M}

/-- At startup nothing is counted. -/
theorem Service.tallied_start {lower : List Char → List Char} {config : Option Config} {path : String}
    {now : Instant} {w : World M} (hnew : LoadBalancer.new M lower config path now = some w)
    (bodies : List (List UInt8)) : (Service.start w bodies).Tallied where
  counted f hf := by
    have hgauge : f ∉ gaugeFamilies := by
      have hall : ∀ f ∈ flowFamilies, f ∉ gaugeFamilies := by decide
      exact hall f hf
    have hzero : (Service.start w bodies).shows f = 0 := value_of_new hnew hgauge []
    rw [hzero]
    simp only [flowFamilies, List.mem_cons, List.not_mem_nil, or_false] at hf
    rcases hf with rfl | rfl | rfl <;>
      simp [Service.start, Function.comp_def, Request.tally, Request.underway, RpcPhase.underway,
        RpcPhase.tally, Request.isSent, Request.leaving]
  exhausted := by
    have hzero : (Service.start w bodies).shows .allEndpointsRateLimited = 0 :=
      value_of_new hnew (by decide) []
    rw [hzero]
    exact Int.natCast_nonneg _
  sent := by simp [Service.start, Service.number, Function.comp_def, Request.isSent]
  dropped r hr := by
    obtain ⟨body, -, rfl⟩ := List.mem_map.mp hr
    exact fun h => (by cases h)

/-- **Every step keeps the tally.** -/
theorem Service.Tallied.step (h : s.Tallied) (hsound : s.Sound fromSlice displayStatus history bodies)
    (e : ServiceEvent) : (s.step P fromSlice displayStatus e).Tallied := by
  cases e with
  | environment e =>
      refine ⟨fun f hf => ?_, ?_, h.sent, h.dropped⟩
      · exact (value_environmentStep P s.system e (List.mem_cons_of_mem _ hf)).trans (h.counted f hf)
      · exact (value_environmentStep P s.system e List.mem_cons_self).trans_le h.exhausted
  | request i move =>
      rcases hi : s.requests[i]? with _ | r
      · rw [Service.step_of_none P fromSlice displayStatus hi]
        exact h
      have hr := hsound.requests i r hi
      have hafter := hsound.advance P hi move
      rw [Service.step_request P fromSlice displayStatus hi]
      have hsum : ∀ q : Request → ℕ, ((s.requests.set i
          (r.advance fromSlice displayStatus s.system.world move).2).map q).sum + q r =
            (s.requests.map q).sum + q (r.advance fromSlice displayStatus s.system.world move).2 :=
        fun q => Runs.sum_map_set q hi
      refine ⟨fun f hf => ?_, ?_, ?_, ?_⟩
      · have hvalue : (r.advance fromSlice displayStatus s.system.world move).1.prom.value f [] + _ = _ :=
          value_requestAdvance hr move hf
        have htotal := hsum fun r => r.tally f
        have hbefore := h.counted f hf
        simp only [Service.shows] at hbefore ⊢
        omega
      · have hvalue : (r.advance fromSlice displayStatus s.system.world move).1.prom.value
            .allEndpointsRateLimited [] + _ ≤ _ := value_requestExhausted r move
        have htotal := hsum fun r => r.call.phase.unavailable.toNat
        have hbefore := h.exhausted
        simp only [Service.shows, Service.number] at hbefore ⊢
        omega
      · have hlen := hr.length_sends
        have hlen' := hafter.length_sends
        have htotal := hsum fun r => r.isSent.toNat
        have hbefore := h.sent
        rw [List.length_append] at hlen' ⊢
        simp only [Service.number] at hbefore ⊢
        omega
      · intro r' hr'
        rcases List.mem_or_eq_of_mem_set hr' with hold | rfl
        · exact h.dropped r' hold
        · exact droppedRight_advance hr (h.dropped r (List.mem_of_getElem? hi)) move

/-- Every run keeps the tally. -/
theorem Service.tallied_run (P : Platform) (fromSlice : List UInt8 → Except String Json)
    (displayStatus : ℕ → String) {lower : List Char → List Char} {config : Option Config} {path : String}
    {now : Instant} {w : World M} (hnew : LoadBalancer.new M lower config path now = some w)
    (bodies : List (List UInt8)) (events : List ServiceEvent) :
    ((Service.start w bodies).run P fromSlice displayStatus events).Tallied ∧
      ((Service.start w bodies).run P fromSlice displayStatus events).Sound fromSlice displayStatus
        ((Service.start w bodies).history P fromSlice displayStatus events) bodies := by
  refine Runs.invariant_emitted
    (fun s history => Service.Tallied s ∧ Service.Sound fromSlice displayStatus history bodies s) ?_
    ⟨Service.tallied_start hnew bodies, Service.sound_start w bodies⟩
  intro events e ih
  rw [Runs.run_append, Runs.emitted_append]
  exact ⟨ih.1.step ih.2 e, ih.2.step e⟩

end service

/-! ## The result -/

/-- The handler has been entered. -/
def Request.hasArrived (r : Request) : Bool :=
  match r.call.phase with
  | .received => false
  | _ => true

/-- The request is answered with what became of its forwarding. -/
def Request.isServed (r : Request) : Bool :=
  match r.call.phase with
  | .returned _ => true
  | _ => false

/-- The conservation law of the service, for `total` requests. -/
structure Service.Conserved (s : Service M) (total : ℕ) : Prop where
  /-- Every request stands in exactly one place. -/
  partition : (s.number fun r => !r.hasArrived) + s.number Request.underway +
    (s.number fun r => r.answer?.isSome) + s.number Request.dropped = total
  gauge : s.shows .concurrencyActivePermits = s.number Request.underway
  refused : s.shows .batchSizeExceeded =
    (s.requests.map fun r => r.call.phase.tally .batchSizeExceeded).sum
  exhausted : s.shows .allEndpointsRateLimited ≤ s.number fun r => r.call.phase.unavailable
  counted : s.shows .rpcRequestsTotal = s.sent.length + s.number Request.leaving
  leaving_le : s.number Request.leaving ≤ s.number Request.underway
  served_le : s.number Request.isServed ≤ s.sent.length
  sent_le : s.sent.length ≤
    s.number Request.isServed + s.number Request.underway + s.number Request.dropped
  /-- No request is underway. -/
  settled : s.number Request.underway = 0 →
    s.shows .concurrencyActivePermits = 0 ∧ s.shows .rpcRequestsTotal = s.sent.length

section result

variable {fromSlice : List UInt8 → Except String Json} {displayStatus : ℕ → String}
  {history : List (ServiceStep M)} {i : ℕ} {sends : List HandOver}
  {replies : List UpstreamCall} {r : Request}

/-- Every request stands in exactly one place. -/
theorem Request.DroppedRight.place (h : r.DroppedRight) :
    (!r.hasArrived).toNat + r.underway.toNat + r.answer?.isSome.toNat + r.dropped.toNat = 1 := by
  obtain ⟨⟨body, phase⟩, forward, dropped⟩ := r
  cases dropped with
  | false => cases phase <;> rfl
  | true =>
      have hunderway := (h rfl).1
      cases phase <;> first | rfl | cases hunderway

/-- What a request that stands somewhere has sent. -/
theorem Request.Justified.place (h : r.Justified fromSlice displayStatus history i sends replies)
    (hright : r.DroppedRight) :
    r.leaving.toNat ≤ r.underway.toNat ∧ r.isServed.toNat ≤ r.isSent.toNat ∧
      r.isSent.toNat ≤ r.isServed.toNat + r.underway.toNat + r.dropped.toNat := by
  obtain ⟨⟨body, phase⟩, forward, dropped⟩ := r
  cases phase with
  | handed p url =>
      obtain ⟨f, rfl, -⟩ := h.forwarding p url rfl
      cases dropped with
      | false =>
          refine ⟨Bool.toNat_le _, Nat.zero_le _, ?_⟩
          exact (Bool.toNat_le _).trans (by simp [Request.underway, RpcPhase.underway])
      | true =>
          obtain ⟨-, hnone | hsent⟩ := hright rfl
          · cases hnone
          refine ⟨?_, Nat.zero_le _, ?_⟩
          · unfold Request.leaving
            split
            · rename_i hf
              cases hf
              cases hsent
            · exact Nat.zero_le _
          · exact (Bool.toNat_le _).trans (by simp)
  | returned a =>
      obtain ⟨_, _, u, f, -, -, -, -, -, rfl, hphase⟩ := h.returned a rfl
      obtain ⟨args, phase⟩ := f
      dsimp only at hphase
      subst hphase
      exact ⟨Nat.zero_le _, le_rfl, (Bool.toNat_le _).trans (by simp [Request.isServed, add_assoc])⟩
  | _ =>
      obtain ⟨rfl, -⟩ := h.before rfl
      exact ⟨Nat.zero_le _, Nat.zero_le _, Nat.zero_le _⟩

end result

/-- **Flow conservation.** From every startup, for any number of requests with any bodies and every interleaving
of their steps with health rounds and reloads in flight, clients that leave and panics included: every request
has not arrived, is underway, answered or dropped; the concurrency gauge shows how many are underway, and
`BATCH_SIZE_EXCEEDED` how many were refused for their size; an exhausted scan is counted at most once for a 503;
`RPC_REQUESTS_TOTAL` shows what has been sent and what is just being sent; and what was sent is served, underway
or dropped.
Source: `main.rs` `handle_rpc`, `ConcurrencyGuard`; `forwarder.rs` `forward_request`; `strategy.rs`
`select_best_endpoint` -/
theorem flow_conserved (P : Platform) (fromSlice : List UInt8 → Except String Json)
    (displayStatus : ℕ → String) {config : Option Config} {path : String} {now : Instant} {w : World M}
    (hnew : LoadBalancer.new M P.toLowercase config path now = some w) (bodies : List (List UInt8))
    (events : List ServiceEvent) :
    ((Service.start w bodies).run P fromSlice displayStatus events).Conserved bodies.length := by
  have hrun := (Service.tallied_run P fromSlice displayStatus hnew bodies events).1
  have hsound := Service.sound_run P fromSlice displayStatus w bodies events
  generalize (Service.start w bodies).run P fromSlice displayStatus events = s at hrun hsound ⊢
  have hlen : s.requests.length = bodies.length := by rw [← hsound.bodies, List.length_map]
  have hplace : ∀ r ∈ s.requests, r.leaving.toNat ≤ r.underway.toNat ∧ r.isServed.toNat ≤ r.isSent.toNat ∧
      r.isSent.toNat ≤ r.isServed.toNat + r.underway.toNat + r.dropped.toNat := by
    intro r hr
    obtain ⟨i, hi⟩ := List.mem_iff_getElem?.mp hr
    exact (hsound.requests i r hi).place (hrun.dropped r hr)
  have hgauge : s.shows .concurrencyActivePermits = s.number Request.underway :=
    hrun.counted _ (by decide)
  have hcounted : s.shows .rpcRequestsTotal = s.sent.length + s.number Request.leaving := by
    rw [hrun.counted _ (by decide), hrun.sent]
    simp only [Request.tally, List.sum_map_add, Service.number]
    push_cast
    rfl
  have hleaving : s.number Request.leaving ≤ s.number Request.underway :=
    List.sum_le_sum fun r hr => (hplace r hr).1
  refine ⟨?_, hgauge, hrun.counted _ (by decide), hrun.exhausted, hcounted, hleaving, ?_, ?_, fun hzero => ?_⟩
  · have hone : (s.requests.map fun r => (!r.hasArrived).toNat + r.underway.toNat +
        r.answer?.isSome.toNat + r.dropped.toNat).sum = s.requests.length := by
      rw [List.map_congr_left fun r hr => (hrun.dropped r hr).place]
      simp
    simp only [List.sum_map_add] at hone
    exact hone.trans hlen
  · rw [hrun.sent]
    exact List.sum_le_sum fun r hr => (hplace r hr).2.1
  · rw [hrun.sent]
    simp only [Service.number, ← List.sum_map_add]
    exact List.sum_le_sum fun r hr => (hplace r hr).2.2
  · rw [hgauge, hcounted, hzero]
    exact ⟨rfl, by omega⟩

/-- A request that is served, and one whose client leaves while it waits for a permit. -/
def sampleServiceEvents : List ServiceEvent := [
  .request 0 (.handle .proceed), .request 1 (.handle .proceed), .request 1 (.handle (.acquire false)),
  .request 0 .cancel, .request 1 (.handle .proceed), .request 1 (.handle .proceed),
  .request 1 (.handle (.collect 0)), .request 1 (.handle (.sort [])), .request 1 (.handle .proceed),
  .request 1 (.handle (.sort sampleWorld.lb.endpoints)), .request 1 (.handle (.reserve 0)),
  .request 1 (.handle (.stamp 1000)), .request 1 (.forward (.proceed 0)),
  .request 1 (.forward (.proceed 0)), .request 1 (.forward (.proceed 0)),
  .request 1 (.forward (.respond ⟨.response 200, 5, "", .ok []⟩)), .request 1 (.forward (.proceed 1)),
  .request 1 (.forward (.proceed 1)), .request 1 (.forward (.proceed 1)),
  .request 1 (.forward (.proceed 1)), .request 1 (.forward (.proceed 1)), .request 1 .finish]

/-- `flow_conserved` for the two requests. -/
theorem flow_conserved_sample : ((Service.start sampleWorld [sampleBody, sampleBody]).run samplePlatform
    parseSample (fun _ => "") sampleServiceEvents).Conserved 2 :=
  flow_conserved samplePlatform parseSample (fun _ => "") new_sampleWorld [sampleBody, sampleBody] _

/-- The one request is served. -/
example : ((Service.start sampleWorld [sampleBody, sampleBody]).run samplePlatform parseSample (fun _ => "")
    sampleServiceEvents).number Request.isServed = 1 := by decide +kernel

end AzothBalancer
