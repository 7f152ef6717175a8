import AzothBalancer.OwnLimiters
import AzothBalancer.RpcSystem

/-!
# Token accounting

Cells are taken from a limiter in the middle of a selection, before the endpoint is stamped and the
request handed over. `token_accounting` is the account over every interleaving of calls: what the
limiter of a URL has granted is the batches handed to that URL, and those of the calls that stand
between the grant and the hand-over (`RpcSystem.gapCells`).

What one step of a call can do is said once (`RpcCall.Advanced`): only the registry changes, or a
batch is reserved, or an endpoint is stamped and the request handed over. The invariant
(`RpcSystem.Balanced`) and the absence of traces of a refused call both rest on it.
-/

namespace AzothBalancer

open JsonText (Json)

variable {M : Meter}

/-! ## What is counted -/

/-- The cells the limiter under a URL has granted. -/
def World.granted (w : World M) (url : String) : ℕ :=
  ((w.limiter? url).map RateLimiter.granted).getD 0

/-- The number of requests in a body: the length of an array, or one.
Source: `main.rs` `handle_rpc`, `batch_size` -/
def requestsIn : Json → ℕ
  | .array arr => arr.length
  | _ => 1

/-- The batch size of a body; a body that does not parse has none. -/
def batchSizeOf (fromSlice : List UInt8 → Except String Json) (body : List UInt8) : ℕ :=
  match fromSlice body with
  | .ok value => requestsIn value
  | .error _ => 0

/-- The payload and the endpoint of a call between the grant and the hand-over. -/
def RpcPhase.gap : RpcPhase → Option (Payload × RpcEndpoint)
  | .reserved p endpoint => some (p, endpoint)
  | _ => none

/-- The request has been handed over. -/
def RpcPhase.isHanded : RpcPhase → Bool
  | .handed .. | .returned _ => true
  | _ => false

/-- A call in this phase carries the batch size of its body, and endpoints with these URLs; what it was
answered after forwarding has the status `200`. -/
def RpcPhase.Fits (batchSize : ℕ) (urls : List String) : RpcPhase → Prop
  | .parsed p | .checked p => p.batchSize = batchSize
  | .selecting p tiers =>
      p.batchSize = batchSize ∧ ∀ tier ∈ tiers, ∀ ep ∈ tier, ep.url ∈ urls
  | .trying p _ candidates tiers =>
      p.batchSize = batchSize ∧ (∀ ep ∈ candidates, ep.url ∈ urls) ∧
        ∀ tier ∈ tiers, ∀ ep ∈ tier, ep.url ∈ urls
  | .reserved p endpoint => p.batchSize = batchSize ∧ endpoint.url ∈ urls
  | .returned a => a.status = 200
  | _ => True

section counts

variable (fromSlice : List UInt8 → Except String Json)

/-- The cells a call has taken under a URL without having handed its request over. -/
def RpcCall.gapCells (call : RpcCall) (url : String) : ℕ :=
  match call.phase.gap with
  | some (_, endpoint) => if endpoint.url = url then batchSizeOf fromSlice call.body else 0
  | none => 0

/-- The cells taken under a URL by calls between the grant and the hand-over. -/
def RpcSystem.gapCells (s : RpcSystem M) (url : String) : ℕ :=
  (s.calls.map fun call => call.gapCells fromSlice url).sum

/-- The batch sizes of the requests handed to a URL. -/
def RpcSystem.handedCells (s : RpcSystem M) (url : String) : ℕ :=
  ((s.handed.filter fun h => h.endpointUrl = url).map fun h =>
    batchSizeOf fromSlice h.requestBody).sum

end counts

/-! ## What a grant changes -/

/-- A reservation under a URL charges its limiter, and no other URL's. -/
theorem granted_of_reserved {w : World M} {url : String} {n : ℕ} {now : Instant}
    {heap : RefHeap (RateLimiter M)} (h : Reserved w url n now heap)
    (hown : Unshared w.lb.rateLimiters) (hlim : (w.limiter? url).isSome) {w' : World M}
    (hlb : w'.lb = w.lb) (hheap : w'.limiters = heap) (url' : String) :
    w'.granted url' = w.granted url' + if url = url' then n else 0 := by
  unfold World.granted World.limiter?
  rw [hlb, hheap]
  cases h with
  | unlimited hnone =>
      rw [hnone] at hlim
      cases hlim
  | nothing hn => simp [hn]
  | @charged r l hr hg _ hok =>
      by_cases hurl : url = url'
      · subst hurl
        simp [hr, hg, RateLimiter.granted_of_checkN hok]
      · rw [if_neg hurl, Nat.add_zero]
        cases hr' : w.lb.rateLimiters url' with
        | none => rfl
        | some r' =>
            have hne : r' ≠ r := fun e => hurl (hown _ _ _ hr (e ▸ hr'))
            simp [RefHeap.get?_modify_of_ne hne]

/-- With the same balancer and the same limiters, the same has been granted. -/
theorem World.granted_congr {w w' : World M} (hlb : w'.lb.rateLimiters = w.lb.rateLimiters)
    (hlim : w'.limiters = w.limiters) (url : String) : w'.granted url = w.granted url := by
  unfold World.granted World.limiter?
  rw [hlb, hlim]

/-! ## One step of a call -/

/-- The phase fits the call's body and the endpoints of the world. -/
def RpcCall.Fits (fromSlice : List UInt8 → Except String Json) (w : World M) (call : RpcCall) : Prop :=
  call.phase.Fits (batchSizeOf fromSlice call.body) (w.lb.endpoints.map RpcEndpoint.url)

/-- A parsed payload has the batch size of the body.
Source: `main.rs` `handle_rpc` -/
theorem batchSize_of_parsePayload {fromSlice : List UInt8 → Except String Json} {body : List UInt8}
    {p : Payload} (h : parsePayload fromSlice body = .ok p) :
    p.batchSize = batchSizeOf fromSlice body := by
  unfold parsePayload at h
  unfold batchSizeOf
  split at h
  · cases h
  · rename_i value hvalue
    rw [hvalue]
    cases value <;> simp only [requestsIn] at h ⊢ <;> split at h <;> cases h <;> rfl

/-- The candidates of a selection are endpoints of the world. -/
theorem url_mem_of_unsortedTiers {lb : LoadBalancer} {now : Instant} :
    ∀ tier ∈ unsortedTiers lb now, ∀ ep ∈ tier, ep.url ∈ lb.endpoints.map RpcEndpoint.url := by
  intro tier ht ep hep
  obtain ⟨k, -, rfl⟩ := List.mem_map.mp ht
  exact List.mem_map_of_mem (List.mem_of_mem_filter (List.mem_of_mem_filter hep))

/-- What is answered after forwarding has the status `200`.
Source: `main.rs` `handle_rpc` -/
theorem status_answerOf (p : Payload) (result : Except LoadBalancerError (List UInt8)) :
    (answerOf p result).status = 200 := by
  cases result <;> rfl

/-- What a step of the call at position `i` does: the world and the call afterwards, and what is
handed over. -/
inductive RpcCall.Advanced (fromSlice : List UInt8 → Except String Json) (w : World M) (i : ℕ)
    (call : RpcCall) : World M → RpcCall → List HandOver → Prop where
  /-- Only the registry and the phase change. -/
  | quiet {w' : World M} {phase : RpcPhase} : w.SameStore w' → phase.gap = call.phase.gap →
      phase.isHanded = call.phase.isHanded →
      (call.Fits fromSlice w → RpcCall.Fits fromSlice w { call with phase := phase }) →
      Advanced fromSlice w i call w' { call with phase := phase } []
  /-- The limiter of a candidate grants the batch. -/
  | reserve {w' : World M} {p : Payload} {rank : ℕ} {endpoint : RpcEndpoint}
      {rest : List RpcEndpoint} {tiers : List (List RpcEndpoint)} {now : Instant} :
      call.phase = .trying p rank (endpoint :: rest) tiers → w'.lb = w.lb → w'.metrics = w.metrics →
      Reserved w endpoint.url p.batchSize now w'.limiters →
      Advanced fromSlice w i call w' { call with phase := .reserved p endpoint } []
  /-- The endpoint is stamped and the request handed over. -/
  | stamp {p : Payload} {endpoint : RpcEndpoint} {f : EndpointMetrics → EndpointMetrics} :
      call.phase = .reserved p endpoint →
      Advanced fromSlice w i call { w with metrics := w.metrics.modify endpoint.metrics f }
        { call with phase := .handed p endpoint.url }
        [⟨i, call.body, endpoint.url, p.methodLabel⟩]

/-- **Every step of a call.**
Source: `main.rs` `handle_rpc`; `balancer.rs` `get_next_endpoint`; `strategy.rs`
`select_best_endpoint` -/
theorem RpcCall.advance_spec (fromSlice : List UInt8 → Except String Json) (w : World M) (i : ℕ)
    (call : RpcCall) (move : RpcMove) :
    call.Advanced fromSlice w i (call.advance fromSlice w move).1
      (call.advance fromSlice w move).2 (call.handOver i move) := by
  obtain ⟨body, phase⟩ := call
  have hidle : RpcCall.Advanced fromSlice w i ⟨body, phase⟩ w ⟨body, phase⟩ [] :=
    .quiet (.refl w) rfl rfl id
  have hprom : ∀ prom : Registry, w.SameStore { w with prom := prom } := fun _ => ⟨rfl, rfl, rfl⟩
  cases phase with
  | received =>
      cases move with
      | proceed =>
          simp only [advance]
          split
          · exact .quiet (hprom _) rfl rfl fun _ => trivial
          · exact .quiet (hprom _) rfl rfl fun _ => trivial
      | _ => exact hidle
  | waiting =>
      cases move with
      | acquire closed =>
          simp only [advance]
          split
          · exact .quiet (hprom _) rfl rfl fun _ => trivial
          · exact .quiet (.refl w) rfl rfl fun _ => trivial
      | _ => exact hidle
  | permitted =>
      cases move with
      | proceed =>
          simp only [advance]
          split
          · exact .quiet (hprom _) rfl rfl fun _ => trivial
          · rename_i p hp
            exact .quiet (.refl w) rfl rfl fun _ => batchSize_of_parsePayload hp
      | _ => exact hidle
  | parsed p =>
      cases move with
      | proceed =>
          simp only [advance]
          split
          · exact .quiet (hprom _) rfl rfl fun _ => trivial
          · exact .quiet (.refl w) rfl rfl id
      | _ => exact hidle
  | checked p =>
      cases move with
      | collect now =>
          simp only [advance]
          split
          · exact .quiet (hprom _) rfl rfl fun _ => trivial
          · exact .quiet (.refl w) rfl rfl fun h => ⟨h, url_mem_of_unsortedTiers⟩
      | _ => exact hidle
  | selecting p tiers =>
      cases tiers with
      | nil =>
          cases move with
          | proceed => exact .quiet (hprom _) rfl rfl fun _ => trivial
          | _ => exact hidle
      | cons tier tiers =>
          cases move with
          | sort order =>
              simp only [advance]
              split
              · rename_i hperm
                refine .quiet (.refl w) rfl rfl fun h => ⟨h.1, fun ep hep => ?_, fun t ht => ?_⟩
                · exact h.2 tier List.mem_cons_self ep (hperm.mem_iff.mp hep)
                · exact h.2 t (List.mem_cons_of_mem _ ht)
              · exact hidle
          | _ => exact hidle
  | trying p rank candidates tiers =>
      cases candidates with
      | nil =>
          cases move with
          | proceed => exact .quiet (.refl w) rfl rfl fun h => ⟨h.1, h.2.2⟩
          | _ => exact hidle
      | cons endpoint rest =>
          cases move with
          | reserve now =>
              simp only [advance]
              rcases reserveTokens_spec w endpoint.url p.batchSize now with ⟨e, he⟩ | ⟨heap, hres, heq⟩
              · rw [he]
                refine .quiet (hprom _) rfl rfl fun h => ⟨h.1, fun ep hep => ?_, h.2.2⟩
                exact h.2.1 ep (List.mem_cons_of_mem _ hep)
              · rw [heq]
                exact .reserve rfl rfl rfl hres
          | _ => exact hidle
  | reserved p endpoint =>
      cases move with
      | stamp unixSecs => exact .stamp rfl
      | _ => exact hidle
  | handed p url =>
      cases move with
      | receive result => exact .quiet (hprom _) rfl rfl fun _ => status_answerOf p result
      | _ => exact hidle
  | answered a => exact hidle
  | returned a => exact hidle

/-! ## The environment -/

/-- A cooldown grants nothing. -/
theorem limiters_cooldownEndpoint (w : World M) (ep : RpcEndpoint)
    (prepare : RpcEndpoint → RpcEndpoint) (base max_ : ℕ) (now : Instant) :
    (cooldownEndpoint w ep prepare base max_ now).1.limiters = w.limiters := by
  unfold cooldownEndpoint
  dsimp only
  split <;> rfl

/-- A probe result grants nothing.
Source: `utils/health.rs` `perform_health_checks` -/
theorem limiters_applyProbe (base max_ timeoutMs : ℕ) (now : Instant) (w : World M)
    (result : String × Bool) :
    (applyProbe base max_ timeoutMs now w result).1.limiters = w.limiters := by
  unfold applyProbe
  dsimp only
  split
  · rfl
  · split
    · split <;> rfl
    · split
      · exact limiters_cooldownEndpoint ..
      · rfl

/-- Probe results grant nothing. -/
theorem limiters_applyProbes (base max_ timeoutMs : ℕ) (now : Instant) :
    ∀ (results : List (String × Bool)) (w : World M),
      (applyProbes base max_ timeoutMs now results w).1.limiters = w.limiters
  | [], _ => rfl
  | result :: rest, w => by
      have hprobe := limiters_applyProbe base max_ timeoutMs now w result
      rw [applyProbes]
      split
      · rename_i w' hw'
        rw [hw'] at hprobe
        exact hprobe
      · rename_i w' hw'
        rw [hw'] at hprobe
        exact (limiters_applyProbes base max_ timeoutMs now rest w').trans hprobe

/-- **Only selections touch limiters.** -/
theorem limiters_environmentStep (w : World M) (op : Operation) :
    (w.environmentStep op).limiters = w.limiters := by
  cases op with
  | getNextEndpoint batchSize clock => rfl
  | markUnhealthy url now =>
      show (AzothBalancer.markUnhealthy w url now).1.limiters = w.limiters
      unfold AzothBalancer.markUnhealthy
      split
      · rfl
      · split
        · exact limiters_cooldownEndpoint ..
        · rfl
  | markRateLimited url now =>
      show (AzothBalancer.markRateLimited w url now).1.limiters = w.limiters
      unfold AzothBalancer.markRateLimited
      split
      · rfl
      · exact limiters_cooldownEndpoint ..
  | applyHealthResults results timeoutMs now => exact limiters_applyProbes ..
  | updateHealthyCount now => rfl
  | updateMetrics url result elapsedMs =>
      show (AzothBalancer.updateMetrics w url result elapsedMs).limiters = w.limiters
      unfold AzothBalancer.updateMetrics
      split <;> rfl

/-- The environment stays in the frame of an operation. -/
theorem keeps_environmentStep (w : World M) (op : Operation) : w.Keeps (w.environmentStep op) := by
  cases op with
  | getNextEndpoint batchSize clock => exact .refl w
  | _ => exact keeps_exec w _

/-! ## The account is balanced -/

section ledger

variable {fromSlice : List UInt8 → Except String Json} {w : World M} {bodies : List (List UInt8)}
  {s : RpcSystem M} {i : ℕ} {call : RpcCall} {move : RpcMove}

/-- The step of the call at a position. -/
theorem RpcSystem.step_call (h : s.calls[i]? = some call) :
    s.step fromSlice (.call i move) = ⟨(call.advance fromSlice s.world move).1,
      s.calls.set i (call.advance fromSlice s.world move).2, s.handed ++ call.handOver i move⟩ := by
  unfold RpcSystem.step
  dsimp only
  rw [h]

/-- The step of a call that does not exist. -/
theorem RpcSystem.step_call_of_none (h : s.calls[i]? = none) :
    s.step fromSlice (.call i move) = s := by
  unfold RpcSystem.step
  dsimp only
  rw [h]

/-- The account of a system started in the world `w` with these bodies. -/
structure RpcSystem.Balanced (fromSlice : List UInt8 → Except String Json) (w : World M)
    (bodies : List (List UInt8)) (s : RpcSystem M) : Prop where
  keeps : w.Keeps s.world
  bodies : s.calls.map RpcCall.body = bodies
  fits : ∀ call ∈ s.calls, call.Fits fromSlice w
  granted : ∀ url, s.world.granted url =
    w.granted url + s.handedCells fromSlice url + s.gapCells fromSlice url
  nodup : (s.handed.map HandOver.call).Nodup
  handed : ∀ h ∈ s.handed, ∃ call, s.calls[h.call]? = some call ∧
    call.body = h.requestBody ∧ call.phase.isHanded

/-- Requests that have just arrived have taken nothing. -/
theorem balanced_start : (RpcSystem.start w bodies).Balanced fromSlice w bodies where
  keeps := .refl w
  bodies := by simp [RpcSystem.start, Function.comp_def]
  fits call hcall := by
    obtain ⟨body, -, rfl⟩ := List.mem_map.mp hcall
    trivial
  granted url := by
    have hgap : (RpcSystem.start w bodies).gapCells fromSlice url = 0 := by
      simp [RpcSystem.gapCells, RpcSystem.start, RpcCall.gapCells, RpcPhase.gap, Function.comp_def]
    rw [hgap]
    rfl
  nodup := List.nodup_nil
  handed h hh := by cases hh

/-- A phase fits the world a call was started in as it fits the current one. -/
theorem World.Keeps.fits_iff {w' : World M} (h : w.Keeps w') :
    call.Fits fromSlice w' ↔ call.Fits fromSlice w := by
  unfold RpcCall.Fits
  rw [h.urls]

/-- The frame of a call's step.
Source: `main.rs` `handle_rpc` -/
theorem RpcCall.Advanced.keeps {w' : World M} {call' : RpcCall} {out : List HandOver}
    (h : call.Advanced fromSlice w i w' call' out) : w.Keeps w' := by
  cases h with
  | quiet hs _ _ _ => exact hs.keeps
  | reserve _ hlb hmet hres =>
      exact ⟨by rw [hlb], by rw [hlb], fun r => by rw [hmet], params_of_reserved hres⟩
  | stamp _ => exact keeps_metrics ..

/-- A call keeps its body. -/
theorem RpcCall.Advanced.body {w' : World M} {call' : RpcCall} {out : List HandOver}
    (h : call.Advanced fromSlice w i w' call' out) : call'.body = call.body := by
  cases h <;> rfl

/-- A step keeps the phase fitting. -/
theorem RpcCall.Advanced.fits {w' : World M} {call' : RpcCall} {out : List HandOver}
    (h : call.Advanced fromSlice w i w' call' out) (hfits : call.Fits fromSlice w) :
    call'.Fits fromSlice w := by
  cases h with
  | quiet _ _ _ hkeep => exact hkeep hfits
  | reserve hphase _ _ _ =>
      unfold RpcCall.Fits at hfits
      rw [hphase] at hfits
      exact ⟨hfits.1, hfits.2.1 _ List.mem_cons_self⟩
  | stamp _ => exact trivial

/-- A request that has been handed over stays so. -/
theorem RpcCall.Advanced.isHanded {w' : World M} {call' : RpcCall} {out : List HandOver}
    (h : call.Advanced fromSlice w i w' call' out) (hh : call.phase.isHanded) :
    call'.phase.isHanded := by
  cases h with
  | quiet _ _ hkeep _ => exact hkeep ▸ hh
  | reserve hphase _ _ _ =>
      rw [hphase] at hh
      cases hh
  | stamp _ => rfl

/-- **The account of one step**: what is granted under a URL is handed over or stands in the gap. -/
theorem RpcCall.Advanced.granted {w' : World M} {call' : RpcCall} {out : List HandOver}
    (h : call.Advanced fromSlice w i w' call' out) (hfits : call.Fits fromSlice w)
    (hown : Unshared w.lb.rateLimiters) (hlim : ∀ ep ∈ w.lb.endpoints, (w.limiter? ep.url).isSome)
    (url : String) :
    w'.granted url + call.gapCells fromSlice url = w.granted url + call'.gapCells fromSlice url +
      ((out.filter fun h => h.endpointUrl = url).map fun h =>
        batchSizeOf fromSlice h.requestBody).sum := by
  cases h with
  | quiet hs hgap _ _ =>
      rw [World.granted_congr (by rw [hs.lb]) hs.limiters]
      unfold RpcCall.gapCells
      rw [hgap]
      rfl
  | @reserve _ p rank endpoint rest tiers now hphase hlb _ hres =>
      unfold RpcCall.Fits at hfits
      rw [hphase] at hfits
      have hsome : (w.limiter? endpoint.url).isSome := by
        obtain ⟨ep, hep, hurl⟩ := List.mem_map.mp (hfits.2.1 endpoint List.mem_cons_self)
        exact hurl ▸ hlim ep hep
      have hbefore : call.gapCells fromSlice url = 0 := by
        unfold RpcCall.gapCells
        rw [hphase]
        rfl
      have hsize : p.batchSize = batchSizeOf fromSlice call.body := hfits.1
      rw [granted_of_reserved hres hown hsome hlb rfl, hbefore, hsize]
      simp [RpcCall.gapCells, RpcPhase.gap]
  | @stamp p endpoint f hphase =>
      have hgranted : World.granted { w with metrics := w.metrics.modify endpoint.metrics f } url =
          w.granted url := World.granted_congr rfl rfl url
      have hbefore : call.gapCells fromSlice url =
          if endpoint.url = url then batchSizeOf fromSlice call.body else 0 := by
        unfold RpcCall.gapCells
        rw [hphase]
        rfl
      rw [hgranted, hbefore]
      by_cases hurl : endpoint.url = url
      · simp [RpcCall.gapCells, RpcPhase.gap, hurl]
      · simp [RpcCall.gapCells, RpcPhase.gap, hurl]

/-- Only a reserved call hands over: its own body, under its own position. -/
theorem RpcCall.Advanced.handOver {w' : World M} {call' : RpcCall} {out : List HandOver}
    (h : call.Advanced fromSlice w i w' call' out) :
    out = [] ∨ ∃ o, out = [o] ∧ o.call = i ∧ o.requestBody = call.body ∧
      ¬ call.phase.isHanded ∧ call'.phase.isHanded := by
  cases h with
  | quiet _ _ _ _ => exact Or.inl rfl
  | reserve _ _ _ _ => exact Or.inl rfl
  | stamp hphase =>
      refine Or.inr ⟨_, rfl, rfl, rfl, ?_, rfl⟩
      rw [hphase]
      exact Bool.false_ne_true

/-- **A step of a call keeps the account balanced.** -/
theorem RpcSystem.Balanced.step_call (hown : Unshared w.lb.rateLimiters)
    (hlim : ∀ ep ∈ w.lb.endpoints, (w.limiter? ep.url).isSome)
    (h : s.Balanced fromSlice w bodies) (hi : s.calls[i]? = some call) :
    (s.step fromSlice (.call i move)).Balanced fromSlice w bodies := by
  have hadv := call.advance_spec fromSlice s.world i move
  rw [RpcSystem.step_call hi]
  generalize call.advance fromSlice s.world move = after at hadv
  generalize call.handOver i move = out at hadv
  obtain ⟨w', call'⟩ := after
  dsimp only at hadv ⊢
  have hmem : call ∈ s.calls := List.mem_of_getElem? hi
  have hfits : call.Fits fromSlice s.world := h.keeps.fits_iff.mpr (h.fits call hmem)
  have hown' : Unshared s.world.lb.rateLimiters := h.keeps.rateLimiters ▸ hown
  have hlim' : ∀ ep ∈ s.world.lb.endpoints, (s.world.limiter? ep.url).isSome := by
    intro ep hep
    have hurl : ep.url ∈ w.lb.endpoints.map RpcEndpoint.url :=
      h.keeps.urls ▸ List.mem_map_of_mem hep
    obtain ⟨ep₀, hep₀, heq⟩ := List.mem_map.mp hurl
    have hparams := h.keeps.limiterParams ep.url
    have hsome := hlim ep₀ hep₀
    rw [heq] at hsome
    unfold World.limiterParams at hparams
    rw [← Option.isSome_map, hparams, Option.isSome_map]
    exact hsome
  have hset : ∀ {Q : RpcCall → Prop} {j : ℕ}, (Q call → Q call') →
      (∃ c, s.calls[j]? = some c ∧ Q c) → ∃ c, (s.calls.set i call')[j]? = some c ∧ Q c :=
    fun hQ hj => Runs.getElem?_set_of_imp hi hQ hj
  refine ⟨h.keeps.trans hadv.keeps, ?_, ?_, ?_, ?_, ?_⟩
  · exact (Runs.map_set_of_eq hi hadv.body).trans h.bodies
  · intro c hc
    rcases List.mem_or_eq_of_mem_set hc with hold | rfl
    · exact h.fits c hold
    · exact h.keeps.fits_iff.mp (hadv.fits hfits)
  · intro url
    have hstep := hadv.granted hfits hown' hlim' url
    have htotal := Runs.sum_map_set (b := call') (fun c => c.gapCells fromSlice url) hi
    have hbefore := h.granted url
    simp only [RpcSystem.handedCells, RpcSystem.gapCells, List.filter_append, List.map_append,
      List.sum_append] at hbefore ⊢
    omega
  · rcases hadv.handOver with rfl | ⟨o, rfl, ho, -, hnot, -⟩
    · rw [List.append_nil]
      exact h.nodup
    · rw [List.map_append, List.map_singleton, List.nodup_append]
      refine ⟨h.nodup, List.nodup_singleton _, ?_⟩
      rintro j hj j' hj' rfl
      rw [List.mem_singleton] at hj'
      -- a request handed over before is not in the gap
      obtain ⟨o', ho', rfl⟩ := List.mem_map.mp hj
      obtain ⟨c, hc, -, hc'⟩ := h.handed o' ho'
      rw [hj', ho, hi, Option.some.injEq] at hc
      exact hnot (hc ▸ hc')
  · intro o ho
    rcases List.mem_append.mp ho with hold | hnew
    · apply hset (Q := fun c => c.body = o.requestBody ∧ c.phase.isHanded) _ (h.handed o hold)
      exact fun hc => ⟨hadv.body.trans hc.1, hadv.isHanded hc.2⟩
    · rcases hadv.handOver with rfl | ⟨o', rfl, ho', hbody, -, hafter⟩
      · cases hnew
      · rw [List.mem_singleton] at hnew
        subst hnew
        obtain ⟨hlt, -⟩ := List.getElem?_eq_some_iff.mp hi
        refine ⟨call', ?_, hadv.body.trans hbody.symm, hafter⟩
        rw [ho']
        exact List.getElem?_set_self hlt

/-- **Every event keeps the account balanced.** -/
theorem RpcSystem.Balanced.step (hown : Unshared w.lb.rateLimiters)
    (hlim : ∀ ep ∈ w.lb.endpoints, (w.limiter? ep.url).isSome)
    (h : s.Balanced fromSlice w bodies) (e : RpcEvent) :
    (s.step fromSlice e).Balanced fromSlice w bodies := by
  cases e with
  | call i move =>
      cases hi : s.calls[i]? with
      | none =>
          rw [RpcSystem.step_call_of_none hi]
          exact h
      | some call => exact h.step_call hown hlim hi
  | environment op =>
      have hkeeps := keeps_environmentStep s.world op
      refine ⟨h.keeps.trans hkeeps, h.bodies, h.fits, ?_, h.nodup, h.handed⟩
      intro url
      have hgranted := World.granted_congr hkeeps.rateLimiters (limiters_environmentStep s.world op) url
      exact hgranted.trans (h.granted url)

/-! ## A refused call leaves no trace -/

/-- The event is a step of the call at this position. -/
def RpcEvent.IsOf (i : ℕ) : RpcEvent → Prop
  | .call j _ => j = i
  | .environment _ => False

/-- The call at this position has taken cells. -/
def RpcSystem.Committed (s : RpcSystem M) (i : ℕ) : Prop :=
  ∃ call, s.calls[i]? = some call ∧ (call.phase.gap.isSome ∨ call.phase.isHanded)

/-- A step of a call that changes more than the registry, or follows one that did, leaves the call
with cells taken. -/
theorem RpcCall.Advanced.committed {w' : World M} {call' : RpcCall} {out : List HandOver}
    (h : call.Advanced fromSlice w i w' call' out)
    (hc : ¬ w.SameStore w' ∨ call.phase.gap.isSome ∨ call.phase.isHanded) :
    call'.phase.gap.isSome ∨ call'.phase.isHanded := by
  cases h with
  | quiet hs hgap hhanded _ =>
      rcases hc with hc | hc
      · exact absurd hs hc
      · rw [hgap, hhanded]
        exact hc
  | reserve _ _ _ _ => exact Or.inl rfl
  | stamp _ => exact Or.inr rfl

/-- A step of a call that changes more than the registry takes cells. -/
theorem committed_of_not_sameStore {e : RpcEvent}
    (h : ¬ (e.IsOf i → s.world.SameStore (s.step fromSlice e).world)) :
    (s.step fromSlice e).Committed i := by
  rw [Classical.not_imp] at h
  obtain ⟨hof, hstore⟩ := h
  cases e with
  | environment op => cases hof
  | call j move =>
      cases hof
      cases hi : s.calls[i]? with
      | none =>
          rw [RpcSystem.step_call_of_none hi] at hstore
          exact absurd (.refl _) hstore
      | some call =>
          rw [RpcSystem.step_call hi] at hstore ⊢
          obtain ⟨hlt, -⟩ := List.getElem?_eq_some_iff.mp hi
          refine ⟨_, List.getElem?_set_self hlt, ?_⟩
          exact (call.advance_spec fromSlice s.world i move).committed (Or.inl hstore)

/-- A call that has taken cells goes on to hand its request over. -/
theorem RpcSystem.Committed.step (h : s.Committed i) (e : RpcEvent) :
    (s.step fromSlice e).Committed i := by
  cases e with
  | environment op => exact h
  | call j move =>
      cases hj : s.calls[j]? with
      | none =>
          rw [RpcSystem.step_call_of_none hj]
          exact h
      | some call =>
          rw [RpcSystem.step_call hj]
          apply Runs.getElem?_set_of_imp hj _ h
          exact fun hc => (call.advance_spec fromSlice s.world j move).committed (Or.inr hc)

/-- A call answered with another status than `200` has taken nothing. -/
theorem not_committed_of_answer {a : RpcAnswer} (hfits : ∀ call ∈ s.calls, call.Fits fromSlice w)
    (h : s.answer? i = some a) (ha : a.status ≠ 200) : ¬ s.Committed i := by
  rintro ⟨⟨body, phase⟩, hi, hc⟩
  unfold RpcSystem.answer? at h
  rw [hi] at h
  cases phase with
  | answered a' => simp [RpcPhase.gap, RpcPhase.isHanded] at hc
  | returned a' =>
      cases h
      exact ha (hfits _ (List.mem_of_getElem? hi))
  | _ => cases h

end ledger

/-! ## The result -/

/-- **Token accounting.** In a world in which every endpoint has a limiter of its own, for any number
of requests with any bodies and every interleaving of their steps:

* what the limiter of a URL has granted is the batch sizes of the requests handed to that URL, and
  those of the calls that stand between the grant and the hand-over; when no call does, it is the
  batch sizes of the requests handed to it;
* every request is handed over at most once, with its own body;
* a request answered 400, 413, 500 or 503 has not been handed over, and none of its steps has changed
  a limiter, a metrics object or the balancer.

Source: `main.rs` `handle_rpc`; `balancer.rs` `get_next_endpoint`; `strategy.rs`
`select_best_endpoint`, `reserve_tokens` -/
theorem token_accounting (fromSlice : List UInt8 → Except String Json) {w : World M}
    (hown : Unshared w.lb.rateLimiters)
    (hlim : ∀ ep ∈ w.lb.endpoints, (w.limiter? ep.url).isSome)
    (bodies : List (List UInt8)) (events : List RpcEvent) :
    let start := RpcSystem.start w bodies
    let s := start.run fromSlice events
    (∀ url, s.world.granted url =
        w.granted url + s.handedCells fromSlice url + s.gapCells fromSlice url) ∧
      ((∀ call ∈ s.calls, call.phase.gap = none) →
        ∀ url, s.world.granted url = w.granted url + s.handedCells fromSlice url) ∧
      (s.handed.map HandOver.call).Nodup ∧
      (∀ h ∈ s.handed, bodies[h.call]? = some h.requestBody) ∧
      ∀ i a, s.answer? i = some a → a.status ∈ [400, 413, 500, 503] →
        i ∉ s.handed.map HandOver.call ∧
        Runs.Along (RpcSystem.step fromSlice)
          (fun s e => e.IsOf i → s.world.SameStore (s.step fromSlice e).world) start events := by
  intro start s
  have hbal : s.Balanced fromSlice w bodies :=
    Runs.invariant (RpcSystem.Balanced fromSlice w bodies) (fun _ => True)
      (fun _ e _ h => h.step hown hlim e) (fun _ _ => trivial) balanced_start
  refine ⟨hbal.granted, ?_, hbal.nodup, ?_, ?_⟩
  · intro hquiet url
    have hgap : s.gapCells fromSlice url = 0 := by
      apply List.sum_eq_zero
      intro n hn
      obtain ⟨call, hcall, rfl⟩ := List.mem_map.mp hn
      unfold RpcCall.gapCells
      rw [hquiet call hcall]
    rw [hbal.granted url, hgap, Nat.add_zero]
  · intro h hh
    obtain ⟨call, hcall, hbody, -⟩ := hbal.handed h hh
    rw [← hbal.bodies, List.getElem?_map, hcall, Option.map_some, hbody]
  · intro i a ha hstatus
    have hne : a.status ≠ 200 := by
      intro h
      rw [h] at hstatus
      exact absurd hstatus (by decide)
    have hnot : ¬ s.Committed i := not_committed_of_answer hbal.fits ha hne
    constructor
    · intro hmem
      obtain ⟨h, hh, rfl⟩ := List.mem_map.mp hmem
      obtain ⟨call, hcall, -, hhanded⟩ := hbal.handed h hh
      exact hnot ⟨call, hcall, Or.inr hhanded⟩
    · apply Runs.along_of_not_final (fun s : RpcSystem M => s.Committed i) _ _ hnot
      · exact fun s e h => committed_of_not_sameStore h
      · exact fun s e h => h.step e

/-- A body with a request for a batch of one. -/
def sampleBody : List UInt8 := "[{}]".toUTF8.toList

/-- A parser that takes every body for an array with one object. -/
def parseSample (_ : List UInt8) : Except String Json := .ok (.array [.object []])

/-- Two requests: the first finds the semaphore closed, between the steps of the second, which is
handed to the sample world's endpoint. -/
def sampleEvents : List RpcEvent := [
  .call 0 .proceed, .call 1 .proceed, .call 1 (.acquire false), .call 0 (.acquire true),
  .call 1 .proceed, .call 1 .proceed, .call 1 (.collect 0), .call 1 (.sort []), .call 1 .proceed,
  .call 1 (.sort sampleWorld.lb.endpoints), .call 1 (.reserve 0), .call 1 (.stamp 1000)]

/-- `token_accounting` for the two requests. -/
theorem token_accounting_sample :
    let start := RpcSystem.start sampleWorld [sampleBody, sampleBody]
    let s := start.run parseSample sampleEvents
    (∀ url, s.world.granted url =
        sampleWorld.granted url + s.handedCells parseSample url + s.gapCells parseSample url) ∧
      ((∀ call ∈ s.calls, call.phase.gap = none) →
        ∀ url, s.world.granted url = sampleWorld.granted url + s.handedCells parseSample url) ∧
      (s.handed.map HandOver.call).Nodup ∧
      (∀ h ∈ s.handed, [sampleBody, sampleBody][h.call]? = some h.requestBody) ∧
      ∀ i a, s.answer? i = some a → a.status ∈ [400, 413, 500, 503] →
        i ∉ s.handed.map HandOver.call ∧
        Runs.Along (RpcSystem.step parseSample)
          (fun s e => e.IsOf i → s.world.SameStore (s.step parseSample e).world) start
          sampleEvents :=
  token_accounting parseSample (unshared_of_new new_sampleWorld) (by decide) _ _

/-- The request handed over was one cell. -/
example : ((RpcSystem.start sampleWorld [sampleBody, sampleBody]).run parseSample
    sampleEvents).world.granted "http://a" = 1 := by decide +kernel

end AzothBalancer
