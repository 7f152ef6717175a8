import AzothBalancer.BatchService
import AzothBalancer.Lib.Shaping
import AzothBalancer.TokenLedger

/-!
# The rate cap

What the limiters are for: no endpoint is sent more than its rate and its burst allow. Of the limiter it is
assumed that it is a leaky bucket (`Meter.LeakyBuckets`), the interval of a cell being the period over the
capacity; asked at times that do not go back, it then grants a batch exactly if the contract of the bucket is
kept by it (`Meter.LeakyBuckets.polices`).

`RpcSystem.decisions` are the decisions of the limiters in a step of the concurrent requests.

* `Meter.Admitted` — the state of a limiter as the outcome of the batches it has granted.
* `RpcSystem.Policed` — the invariant: every limiter has granted what the record of its decisions says, and
  every request handed over stands in that record.
* `rate_cap` — what reaches an endpoint in any window of time, and when a limiter refuses.
-/

namespace AzothBalancer

open JsonText (Json)

variable {M : Meter}

/-! ## The contract -/

/-- The state `l` is that of the limiter `l₀` after it has granted the batches of the log, at times that do not
go back. -/
inductive Meter.Admitted (M : Meter) (l₀ : M.Limiter) : List (Instant × ℕ) → M.Limiter → Prop where
  | created : M.Admitted l₀ [] l₀
  | granted {log : List (Instant × ℕ)} {l : M.Limiter} {now : Instant} {n : ℕ} : M.Admitted l₀ log l →
      (∀ a ∈ log, a.1 ≤ now) → (M.checkN l now n).1 = true →
      M.Admitted l₀ (log ++ [(now, n)]) (M.checkN l now n).2

/-- A log of batches in the unit of time: every cell takes one interval. -/
def weighed (interval : ℕ) (log : List (Instant × ℕ)) : List (ℕ × ℕ) :=
  log.map fun a => (a.1, interval * a.2)

/-- The interval of a cell. -/
def cellInterval (burstSize rateLimitPerSec : ℕ) : ℕ := periodNanos burstSize rateLimitPerSec / burstSize

/-- The contract of an endpoint: in no window of time more than one period and the length of the window. -/
def KeepsContract (burstSize rateLimitPerSec : ℕ) (log : List (Instant × ℕ)) : Prop :=
  Shaping.Conforms (periodNanos burstSize rateLimitPerSec)
    (weighed (cellInterval burstSize rateLimitPerSec) log)

/-- A limiter grants exactly what keeps the contract. -/
structure Meter.Polices (M : Meter) : Prop where
  grants_iff : ∀ {burst rate : ℕ} {log : List (Instant × ℕ)} {l : M.Limiter}, 0 < burst → 0 < rate →
    M.Admitted (M.new burst (periodNanos burst rate)) log l → ∀ now n, (∀ a ∈ log, a.1 ≤ now) →
      ((M.checkN l now n).1 = true ↔ KeepsContract burst rate (log ++ [(now, n)]))

/-- What a policing limiter has granted keeps the contract. -/
theorem Meter.Polices.keepsContract (hM : M.Polices) {burst rate : ℕ} (hb : 0 < burst) (hr : 0 < rate)
    {log : List (Instant × ℕ)} {l : M.Limiter}
    (h : M.Admitted (M.new burst (periodNanos burst rate)) log l) : KeepsContract burst rate log := by
  cases h with
  | created => exact Shaping.conforms_nil _
  | granted hadm htimes hok => exact (hM.grants_iff hb hr hadm _ _ htimes).mp hok

/-! ## Leaky buckets -/

/-- The limiters are leaky buckets: the level drains with time, and a batch is granted and fills the bucket if
it fits. -/
structure Meter.LeakyBuckets (M : Meter) where
  full : M.Limiter → ℕ
  tokenInterval : M.Limiter → ℕ
  bucket : M.Limiter → Shaping.Bucket ℕ
  full_new : ∀ capacity periodNanos, full (M.new capacity periodNanos) = periodNanos
  tokenInterval_new : ∀ capacity periodNanos,
    tokenInterval (M.new capacity periodNanos) = periodNanos / capacity
  bucket_new : ∀ capacity periodNanos, bucket (M.new capacity periodNanos) = ⟨0, 0⟩
  granted_iff : ∀ l now n, (M.checkN l now n).1 = true ↔
    (bucket l).drained now + tokenInterval l * n ≤ full l
  granted : ∀ l now n, (M.checkN l now n).1 = true →
    full (M.checkN l now n).2 = full l ∧ tokenInterval (M.checkN l now n).2 = tokenInterval l ∧
      bucket (M.checkN l now n).2 = (bucket l).fill now (tokenInterval l * n)

section leaky

variable {burst rate : ℕ} {log : List (Instant × ℕ)} {l : M.Limiter}

/-- A longer log in the unit of time. -/
theorem weighed_append (interval : ℕ) (log : List (Instant × ℕ)) (now : Instant) (n : ℕ) :
    weighed interval (log ++ [(now, n)]) = weighed interval log ++ [(now, interval * n)] := by
  simp [weighed]

/-- The bucket of a limiter represents what the limiter has granted. -/
structure Meter.LeakyBuckets.Holds (B : M.LeakyBuckets) (burst rate : ℕ) (log : List (Instant × ℕ))
    (l : M.Limiter) : Prop where
  full : B.full l = periodNanos burst rate
  tokenInterval : B.tokenInterval l = cellInterval burst rate
  represents : (B.bucket l).Represents (weighed (cellInterval burst rate) log)
  keeps : KeepsContract burst rate log
  lastUpdate : ∀ now, (∀ a ∈ log, a.1 ≤ now) → (B.bucket l).lastUpdate ≤ now

/-- A batch that is granted keeps the contract, and no other. -/
theorem Meter.LeakyBuckets.Holds.granted_iff {B : M.LeakyBuckets} (h : B.Holds burst rate log l)
    {now : Instant} (hnow : ∀ a ∈ log, a.1 ≤ now) (n : ℕ) :
    (M.checkN l now n).1 = true ↔ KeepsContract burst rate (log ++ [(now, n)]) := by
  rw [B.granted_iff, h.full, h.tokenInterval, KeepsContract, weighed_append]
  exact Shaping.Bucket.admit_iff h.represents h.keeps (h.lastUpdate now hnow)

/-- After every batch granted. -/
theorem Meter.LeakyBuckets.holds (B : M.LeakyBuckets)
    (h : M.Admitted (M.new burst (periodNanos burst rate)) log l) : B.Holds burst rate log l := by
  induction h with
  | created =>
      refine ⟨B.full_new _ _, B.tokenInterval_new _ _, ?_, Shaping.conforms_nil _, fun now _ => ?_⟩
      · rw [B.bucket_new]
        exact Shaping.Bucket.represents_nil
      · rw [B.bucket_new]
        exact Nat.zero_le _
  | @granted log l now n _ htimes hok ih =>
      obtain ⟨hfull, hinterval, hbucket⟩ := B.granted l now n hok
      refine ⟨hfull.trans ih.full, hinterval.trans ih.tokenInterval, ?_,
        (ih.granted_iff htimes n).mp hok, fun later hlater => ?_⟩
      · rw [hbucket, ih.tokenInterval, weighed_append]
        exact ih.represents.fill (ih.lastUpdate now htimes)
      · rw [hbucket]
        exact hlater (now, n) (by simp)

/-- **Leaky buckets police.** -/
theorem Meter.LeakyBuckets.polices (B : M.LeakyBuckets) : M.Polices where
  grants_iff _ _ h _ n hnow := (B.holds h).granted_iff hnow n

end leaky

/-! ## Decisions -/

/-- A decision of a limiter for a call. -/
structure LimiterDecision where
  call : ℕ
  url : String
  now : Instant
  cells : ℕ
  granted : Bool

/-- The decision of a step, if it asks a limiter.
Source: `strategy.rs` `reserve_tokens` -/
def RpcSystem.decisions (s : RpcSystem M) : RpcEvent → List LimiterDecision
  | .call i (.reserve now) =>
      match s.calls[i]? with
      | some ⟨_, .trying p _ (endpoint :: _) _⟩ =>
          [⟨i, endpoint.url, now, p.batchSize,
            (reserveTokens s.world endpoint.url p.batchSize now).1.isOk⟩]
      | _ => []
  | _ => []

/-- The decisions of a run, in order. -/
def RpcSystem.record (fromSlice : List UInt8 → Except String Json) (s : RpcSystem M)
    (events : List RpcEvent) : List LimiterDecision :=
  Runs.emitted (RpcSystem.step fromSlice) RpcSystem.decisions s events

/-- The batches granted under a URL. -/
def grantedAt (url : String) (ds : List LimiterDecision) : List (Instant × ℕ) :=
  (ds.filter fun d => d.granted && d.url = url).map fun d => (d.now, d.cells)

/-- The clock the limiters read does not go back. -/
def ClockAdvances (ds : List LimiterDecision) : Prop := ds.Pairwise fun d d' => d.now ≤ d'.now

instance (ds : List LimiterDecision) : Decidable (ClockAdvances ds) :=
  inferInstanceAs (Decidable (ds.Pairwise fun d d' => d.now ≤ d'.now))

section grantedAt

variable {url : String} {ds : List LimiterDecision} {d : LimiterDecision}

/-- A decision that is not a grant under the URL. -/
theorem grantedAt_append_of_not (h : (d.granted && d.url = url) = false) :
    grantedAt url (ds ++ [d]) = grantedAt url ds := by
  simp [grantedAt, h]

/-- A grant under the URL. -/
theorem grantedAt_append_of_granted (hg : d.granted = true) (hu : d.url = url) :
    grantedAt url (ds ++ [d]) = grantedAt url ds ++ [(d.now, d.cells)] := by
  simp [grantedAt, hg, hu]

/-- Earlier grants are not later than a decision. -/
theorem times_grantedAt (h : ClockAdvances (ds ++ [d])) : ∀ a ∈ grantedAt url ds, a.1 ≤ d.now := by
  intro a ha
  obtain ⟨d', hd', rfl⟩ := List.mem_map.mp ha
  exact (List.pairwise_append.mp h).2.2 d' (List.mem_of_mem_filter hd') d (by simp)

end grantedAt

/-! ## Steps without a decision -/

/-- The payload of a call, once it is parsed. -/
def RpcPhase.payload? : RpcPhase → Option Payload
  | .parsed p | .checked p | .selecting p _ | .trying p _ _ _ | .reserved p _ | .handed p _ => some p
  | _ => none

/-- The call is about to ask a limiter. -/
def RpcCall.asks (call : RpcCall) (move : RpcMove) : Option (Payload × RpcEndpoint × Instant) :=
  match call.phase, move with
  | .trying p _ (endpoint :: _) _, .reserve now => some (p, endpoint, now)
  | _, _ => none

/-- What a step leaves alone that asks no limiter. -/
structure RpcCall.Undecided (fromSlice : List UInt8 → Except String Json) (w w' : World M)
    (call call' : RpcCall) : Prop where
  limiters : w'.limiters = w.limiters
  gap : call'.phase.gap.isSome → call'.phase.gap = call.phase.gap
  payload : ∀ p, call'.phase.payload? = some p →
    call.phase.payload? = some p ∨ parsePayload fromSlice call.body = .ok p

/-- **A step that asks no limiter.**
Source: `main.rs` `handle_rpc`; `strategy.rs` `select_best_endpoint` -/
theorem RpcCall.undecided_advance (fromSlice : List UInt8 → Except String Json) (w : World M)
    {call : RpcCall} {move : RpcMove} (h : call.asks move = none) :
    call.Undecided fromSlice w (call.advance fromSlice w move).1 (call.advance fromSlice w move).2 := by
  obtain ⟨body, phase⟩ := call
  have hanswer : ∀ (w' : World M) (a : RpcAnswer), w'.limiters = w.limiters →
      RpcCall.Undecided fromSlice w (RpcCall.answer ⟨body, phase⟩ w' a).1 ⟨body, phase⟩
        (RpcCall.answer ⟨body, phase⟩ w' a).2 := fun w' a hlim =>
    ⟨hlim, fun hg => (by cases hg), fun p hp => (by cases hp)⟩
  have hmove : ∀ (w' : World M) (phase' : RpcPhase), w'.limiters = w.limiters → phase'.gap = none →
      (∀ p, phase'.payload? = some p → phase.payload? = some p ∨ parsePayload fromSlice body = .ok p) →
      RpcCall.Undecided fromSlice w w' ⟨body, phase⟩ ⟨body, phase'⟩ := fun w' phase' hlim hgap hp =>
    ⟨hlim, fun hg => (by rw [hgap] at hg; cases hg), hp⟩
  unfold RpcCall.advance
  dsimp only
  split
  · split
    · exact hanswer _ _ rfl
    · exact hmove _ _ rfl rfl fun p hp => by cases hp
  · split
    · exact hanswer _ _ rfl
    · exact hmove _ _ rfl rfl fun p hp => by cases hp
  · split
    · exact hanswer _ _ rfl
    · rename_i p hparse
      refine hmove _ _ rfl rfl fun p' hp' => Or.inr ?_
      cases hp'
      exact hparse
  · split
    · exact hanswer _ _ rfl
    · exact hmove _ _ rfl rfl fun p hp => Or.inl hp
  · split
    · exact hanswer _ _ rfl
    · exact hmove _ _ rfl rfl fun p hp => Or.inl hp
  · split
    · exact hmove _ _ rfl rfl fun p hp => Or.inl hp
    · exact ⟨rfl, fun _ => rfl, fun p hp => Or.inl hp⟩
  · exact hanswer _ _ rfl
  · cases h
  · exact hmove _ _ rfl rfl fun p hp => Or.inl hp
  · exact hmove _ _ rfl rfl fun p hp => Or.inl hp
  · exact hmove _ _ rfl rfl fun p hp => by cases hp
  · exact ⟨rfl, fun _ => rfl, fun p hp => Or.inl hp⟩

/-! ## Steps with a decision -/

section reserve

variable {w : World M} {url : String} {l : RateLimiter M} {n : ℕ} {now : Instant}

/-- The decision is the limiter's.
Source: `strategy.rs` `reserve_tokens` -/
theorem isOk_reserveTokens (hl : w.limiter? url = some l) (hn : 0 < n) (hsmall : n ≤ u32Max) :
    (reserveTokens w url n now).1.isOk = (M.checkN l.state now n).1 := by
  obtain ⟨r, hr, hg⟩ := Option.bind_eq_some_iff.mp hl
  have hcheck : (l.checkN now n).1 = (M.checkN l.state now n).1 := rfl
  unfold reserveTokens
  rw [if_neg (Nat.not_lt.mpr hsmall), hr]
  dsimp only
  rw [if_neg hn.ne', hg]
  dsimp only
  rw [hcheck]
  split
  · rename_i hok
    rw [hok]
    rfl
  · rename_i hok
    rw [Bool.eq_false_of_not_eq_true hok]
    rfl

/-- A refusal changes nothing. -/
theorem reserveTokens_of_refused (h : (reserveTokens w url n now).1.isOk = false) :
    (reserveTokens w url n now).2 = w := by
  rcases reserveTokens_spec w url n now with ⟨e, he⟩ | ⟨heap, -, heq⟩
  · rw [he]
  · rw [heq] at h
    cases h

/-- A grant moves the limiter that was asked, and no other. -/
theorem limiter?_of_granted (hown : Unshared w.lb.rateLimiters) (hl : w.limiter? url = some l) (hn : 0 < n)
    (h : (reserveTokens w url n now).1.isOk = true) :
    (M.checkN l.state now n).1 = true ∧ (reserveTokens w url n now).2.lb = w.lb ∧
      ∀ url', (reserveTokens w url n now).2.limiter? url' =
        if url' = url then some (l.checkN now n).2 else w.limiter? url' := by
  rcases reserveTokens_spec w url n now with ⟨e, he⟩ | ⟨heap, hres, heq⟩
  · rw [he] at h
    cases h
  · rw [heq]
    cases hres with
    | unlimited hnone =>
        rw [hnone] at hl
        cases hl
    | nothing hzero => exact absurd hzero hn.ne'
    | @charged r l' hr hg _ hok =>
        have hll : l' = l := by
          rw [World.limiter?, hr] at hl
          exact Option.some.inj (hg.symm.trans hl)
        subst hll
        refine ⟨hok, rfl, fun url' => ?_⟩
        unfold World.limiter?
        dsimp only
        by_cases hu : url' = url
        · rw [if_pos hu, hu, hr, Option.bind_eq_bind, Option.bind_some, RefHeap.get?_modify_self, hg]
          rfl
        · rw [if_neg hu]
          rcases hr' : w.lb.rateLimiters url' with _ | r'
          · rfl
          · have hne : r' ≠ r := fun e => hu (hown url' url r' hr' (e ▸ hr))
            simp only [Option.bind_eq_bind, Option.bind_some]
            exact RefHeap.get?_modify_of_ne hne

end reserve

/-! ## The invariant -/

section policed

variable {fromSlice : List UInt8 → Except String Json} {w : World M} {bodies : List (List UInt8)}
  {s : RpcSystem M} {ds : List LimiterDecision}

/-- The decision is a grant for this call, this URL and these cells. -/
def LimiterDecision.IsGrant (d : LimiterDecision) (call : ℕ) (url : String) (cells : ℕ) : Prop :=
  d.granted = true ∧ d.call = call ∧ d.url = url ∧ d.cells = cells

/-- Every limiter has granted what the record says, and every request that has been handed over, or is about to
be, stands in the record. -/
structure RpcSystem.Policed (fromSlice : List UInt8 → Except String Json) (w : World M)
    (bodies : List (List UInt8)) (s : RpcSystem M) (ds : List LimiterDecision) : Prop where
  balanced : s.Balanced fromSlice w bodies
  positive : ∀ call ∈ s.calls, ∀ p, call.phase.payload? = some p → 0 < p.batchSize
  admitted : ∀ ep ∈ w.lb.endpoints, ∃ l, s.world.limiter? ep.url = some l ∧
    M.Admitted (M.new ep.burstSize (periodNanos ep.burstSize ep.rateLimitPerSec)) (grantedAt ep.url ds)
      l.state
  exact : ∀ pre d post, ds = pre ++ d :: post → ∀ ep ∈ w.lb.endpoints, d.url = ep.url →
    d.cells ≤ u32Max → (d.granted = true ↔
      KeepsContract ep.burstSize ep.rateLimitPerSec (grantedAt ep.url pre ++ [(d.now, d.cells)]))
  committed : ∀ d ∈ ds, d.granted = true → s.Committed d.call
  nodup : ((ds.filter LimiterDecision.granted).map LimiterDecision.call).Nodup
  reserved : ∀ i call p endpoint, s.calls[i]? = some call → call.phase.gap = some (p, endpoint) →
    ∃ d ∈ ds, d.IsGrant i endpoint.url (batchSizeOf fromSlice call.body)
  handed : ∀ h ∈ s.handed, ∃ d ∈ ds, d.IsGrant h.call h.endpointUrl (batchSizeOf fromSlice h.requestBody)

/-- A payload that has been parsed has a request. -/
theorem positive_of_parsePayload {body : List UInt8} {p : Payload}
    (h : parsePayload fromSlice body = .ok p) : 0 < p.batchSize := by
  unfold parsePayload at h
  split at h
  · cases h
  · split at h
    split at h
    · cases h
    · rename_i hne
      cases h
      exact Nat.pos_of_ne_zero hne

/-- Nothing has been asked yet. -/
theorem policed_start {lower : List Char → List Char} {config : Option Config} {path : String}
    {started : Instant} (hnew : LoadBalancer.new M lower config path started = some w) :
    (RpcSystem.start w bodies).Policed fromSlice w bodies [] where
  balanced := balanced_start
  positive call hcall p hp := by
    obtain ⟨body, -, rfl⟩ := List.mem_map.mp hcall
    cases hp
  admitted ep hep := by
    obtain ⟨-, -, c, -, -, -, hw⟩ := started_of_new hnew
    obtain ⟨r, l, hr, hl, hcreate⟩ := hw.limiters ep hep
    refine ⟨l, by simp [RpcSystem.start, World.limiter?, hr, hl], ?_⟩
    rw [state_of_createRateLimiter hcreate]
    exact .created
  exact pre d post h := by simp at h
  committed d hd := by cases hd
  nodup := List.nodup_nil
  reserved i call p endpoint hi hgap := by
    obtain ⟨body, -, rfl⟩ := List.mem_map.mp (List.mem_of_getElem? hi)
    cases hgap
  handed h hh := by cases hh

/-- **A step that asks no limiter.** -/
theorem RpcSystem.Policed.step_undecided (h : s.Policed fromSlice w bodies ds) {i : ℕ} {call : RpcCall}
    {move : RpcMove} (hi : s.calls[i]? = some call) (hask : call.asks move = none)
    (hbal : (s.step fromSlice (.call i move)).Balanced fromSlice w bodies) :
    (s.step fromSlice (.call i move)).Policed fromSlice w bodies ds := by
  have hund := call.undecided_advance fromSlice s.world hask
  have hadv := call.advance_spec fromSlice s.world i move
  rw [RpcSystem.step_call hi] at hbal ⊢
  have hmap : s.world.lb.rateLimiters =
      (call.advance fromSlice s.world move).1.lb.rateLimiters := hadv.keeps.rateLimiters.symm
  refine ⟨hbal, ?_, ?_, h.exact, ?_, h.nodup, ?_, ?_⟩
  · intro c hc p hp
    rcases List.mem_or_eq_of_mem_set hc with hold | rfl
    · exact h.positive c hold p hp
    · rcases hund.payload p hp with hbefore | hparse
      · exact h.positive call (List.mem_of_getElem? hi) p hbefore
      · exact positive_of_parsePayload hparse
  · intro ep hep
    obtain ⟨l, hl, hadm⟩ := h.admitted ep hep
    refine ⟨l, ?_, hadm⟩
    unfold World.limiter? at hl ⊢
    dsimp only
    rwa [← hmap, hund.limiters]
  · intro d hd hg
    have hstep : (s.step fromSlice (.call i move)).Committed d.call := (h.committed d hd hg).step _
    rwa [RpcSystem.step_call hi] at hstep
  · intro j c p endpoint hj hgap
    rw [List.getElem?_set] at hj
    split at hj
    · rename_i hij
      subst hij
      split at hj
      · cases hj
        have hsome : (call.advance fromSlice s.world move).2.phase.gap.isSome := by
          rw [hgap]
          rfl
        rw [hund.gap hsome] at hgap
        rw [hadv.body]
        exact h.reserved i call p endpoint hi hgap
      · cases hj
    · exact h.reserved j c p endpoint hj hgap
  · intro o ho
    rcases List.mem_append.mp ho with hold | hnew
    · exact h.handed o hold
    · -- what is handed over was reserved before
      unfold RpcCall.handOver at hnew
      split at hnew
      · rename_i p endpoint _ hphase
        rw [List.mem_singleton] at hnew
        subst hnew
        exact h.reserved i call p endpoint hi (by rw [hphase]; rfl)
      · cases hnew

/-- The decision of a call that asks. -/
def RpcSystem.decisionOf (s : RpcSystem M) (i : ℕ) (p : Payload) (endpoint : RpcEndpoint) (now : Instant) :
    LimiterDecision :=
  ⟨i, endpoint.url, now, p.batchSize, (reserveTokens s.world endpoint.url p.batchSize now).1.isOk⟩

/-- The step of a call that asks: the world is that after the reservation, up to the registry.
Source: `strategy.rs` `select_best_endpoint`, the inner loop -/
theorem advance_asking (fromSlice : List UInt8 → Except String Json) (s : RpcSystem M)
    (body : List UInt8) (p : Payload) (rank : ℕ) (endpoint : RpcEndpoint) (rest : List RpcEndpoint)
    (tiers : List (List RpcEndpoint)) (now : Instant) : ∃ prom,
    RpcCall.advance fromSlice s.world ⟨body, .trying p rank (endpoint :: rest) tiers⟩ (.reserve now) =
      ({ (reserveTokens s.world endpoint.url p.batchSize now).2 with prom := prom },
        ⟨body, if (reserveTokens s.world endpoint.url p.batchSize now).1.isOk then .reserved p endpoint
          else .trying p (rank + 1) rest tiers⟩) := by
  simp only [RpcCall.advance]
  rcases reserveTokens s.world endpoint.url p.batchSize now with ⟨_ | _, w'⟩
  · exact ⟨_, rfl⟩
  · exact ⟨_, rfl⟩

/-- The limiters after a decision, and the batches they have granted. -/
theorem RpcSystem.Policed.admitted_decided (h : s.Policed fromSlice w bodies ds)
    (hown : Unshared w.lb.rateLimiters) {i : ℕ} {p : Payload} {endpoint : RpcEndpoint} {now : Instant}
    (hurl : endpoint.url ∈ w.lb.endpoints.map RpcEndpoint.url) (hpos : 0 < p.batchSize)
    (hclock : ClockAdvances (ds ++ [s.decisionOf i p endpoint now])) : ∀ ep ∈ w.lb.endpoints, ∃ l,
      (reserveTokens s.world endpoint.url p.batchSize now).2.limiter? ep.url = some l ∧
      M.Admitted (M.new ep.burstSize (periodNanos ep.burstSize ep.rateLimitPerSec))
        (grantedAt ep.url (ds ++ [s.decisionOf i p endpoint now])) l.state := by
  intro ep hep
  obtain ⟨l, hl, hadm⟩ := h.admitted ep hep
  rcases hgrant : (reserveTokens s.world endpoint.url p.batchSize now).1.isOk with _ | _
  · -- a refusal leaves the limiters and what they have granted
    refine ⟨l, ?_, ?_⟩
    · rw [reserveTokens_of_refused hgrant]
      exact hl
    · rwa [grantedAt_append_of_not]
      simp [RpcSystem.decisionOf, hgrant]
  · obtain ⟨ep₀, hep₀, hurl₀⟩ := List.mem_map.mp hurl
    obtain ⟨l₀, hl₀, hadm₀⟩ := h.admitted ep₀ hep₀
    rw [hurl₀] at hl₀ hadm₀
    obtain ⟨hok, -, hlimiters⟩ :=
      limiter?_of_granted (h.balanced.keeps.rateLimiters ▸ hown) hl₀ hpos hgrant
    rw [hlimiters]
    by_cases hu : ep.url = endpoint.url
    · rw [hu] at hl hadm
      have hll : l = l₀ := Option.some.inj (hl.symm.trans hl₀)
      subst hll
      refine ⟨(l.checkN now p.batchSize).2, if_pos hu, ?_⟩
      rw [grantedAt_append_of_granted hgrant hu.symm, hu]
      refine Meter.Admitted.granted hadm (fun a ha => ?_) hok
      exact times_grantedAt hclock a ha
    · refine ⟨l, (if_neg hu).trans hl, ?_⟩
      rwa [grantedAt_append_of_not]
      simp [RpcSystem.decisionOf, Ne.symm hu]

/-- **A decision is exact**: the limiter grants the batch if and only if the contract is kept by it. -/
theorem RpcSystem.Policed.exact_decided (h : s.Policed fromSlice w bodies ds) (hM : M.Polices)
    (hparams : ∀ ep ∈ w.lb.endpoints, 0 < ep.burstSize ∧ 0 < ep.rateLimitPerSec) {i : ℕ} {p : Payload}
    {endpoint : RpcEndpoint} {now : Instant} (hpos : 0 < p.batchSize)
    (hclock : ClockAdvances (ds ++ [s.decisionOf i p endpoint now])) {ep : RpcEndpoint}
    (hep : ep ∈ w.lb.endpoints) (hurl : endpoint.url = ep.url) (hsmall : p.batchSize ≤ u32Max) :
    (s.decisionOf i p endpoint now).granted = true ↔
      KeepsContract ep.burstSize ep.rateLimitPerSec (grantedAt ep.url ds ++ [(now, p.batchSize)]) := by
  obtain ⟨l, hl, hadm⟩ := h.admitted ep hep
  obtain ⟨hb, hr⟩ := hparams ep hep
  show (reserveTokens s.world endpoint.url p.batchSize now).1.isOk = true ↔ _
  rw [hurl, isOk_reserveTokens hl hpos hsmall]
  exact hM.grants_iff hb hr hadm now p.batchSize (times_grantedAt hclock)

/-- **A step that asks a limiter.** -/
theorem RpcSystem.Policed.step_decided (h : s.Policed fromSlice w bodies ds) (hM : M.Polices)
    (hown : Unshared w.lb.rateLimiters)
    (hparams : ∀ ep ∈ w.lb.endpoints, 0 < ep.burstSize ∧ 0 < ep.rateLimitPerSec) {i : ℕ}
    {body : List UInt8} {p : Payload} {rank : ℕ} {endpoint : RpcEndpoint} {rest : List RpcEndpoint}
    {tiers : List (List RpcEndpoint)} {now : Instant}
    (hi : s.calls[i]? = some ⟨body, .trying p rank (endpoint :: rest) tiers⟩)
    (hbal : (s.step fromSlice (.call i (.reserve now))).Balanced fromSlice w bodies)
    (hclock : ClockAdvances (ds ++ [s.decisionOf i p endpoint now])) :
    (s.step fromSlice (.call i (.reserve now))).Policed fromSlice w bodies
      (ds ++ [s.decisionOf i p endpoint now]) := by
  have hmem := List.mem_of_getElem? hi
  have hpos : 0 < p.batchSize := h.positive _ hmem p rfl
  obtain ⟨hsize, hfits, -⟩ := h.balanced.fits _ hmem
  have hurl := hfits endpoint List.mem_cons_self
  obtain ⟨prom, hadv⟩ := advance_asking fromSlice s body p rank endpoint rest tiers now
  have hcommitted : ∀ d ∈ ds, d.granted = true →
      (s.step fromSlice (.call i (.reserve now))).Committed d.call := fun d hd hg =>
    (h.committed d hd hg).step _
  rw [RpcSystem.step_call hi, hadv] at hbal hcommitted ⊢
  obtain ⟨hlt, -⟩ := List.getElem?_eq_some_iff.mp hi
  refine ⟨hbal, ?_, h.admitted_decided hown hurl hpos hclock, ?_, ?_, ?_, ?_, ?_⟩
  · intro c hc q hq
    rcases List.mem_or_eq_of_mem_set hc with hold | rfl
    · exact h.positive c hold q hq
    · dsimp only at hq
      split at hq <;> cases hq <;> exact hpos
  · intro pre d post hds ep hep hu hsmall
    rcases List.eq_nil_or_concat post with rfl | ⟨post', d', rfl⟩
    · obtain ⟨rfl, hd⟩ := List.append_inj' hds rfl
      rw [List.cons.injEq] at hd
      obtain ⟨rfl, -⟩ := hd
      exact h.exact_decided hM hparams hpos hclock hep hu hsmall
    · rw [List.concat_eq_append, ← List.cons_append, ← List.append_assoc] at hds
      obtain ⟨hpre, -⟩ := List.append_inj' hds rfl
      exact h.exact pre d post' hpre ep hep hu hsmall
  · intro d hd hg
    rcases List.mem_append.mp hd with hold | hnew
    · exact hcommitted d hold hg
    · rw [List.mem_singleton] at hnew
      subst hnew
      have hgrant : (reserveTokens s.world endpoint.url p.batchSize now).1.isOk = true := hg
      exact ⟨_, List.getElem?_set_self hlt, Or.inl (by simp [hgrant, RpcPhase.gap])⟩
  · rw [List.filter_append, List.map_append]
    rcases hgrant : (s.decisionOf i p endpoint now).granted with _ | _
    · simpa [hgrant] using h.nodup
    · rw [List.filter_cons_of_pos hgrant, List.nodup_append]
      refine ⟨h.nodup, by simp, ?_⟩
      rintro j hj j' hj' rfl
      -- a call that still asks has not been granted anything
      obtain ⟨d, hd, hcall⟩ := List.mem_map.mp hj
      obtain ⟨hold, hg⟩ := List.mem_filter.mp hd
      have hji : j = i := by simpa [RpcSystem.decisionOf] using hj'
      obtain ⟨c, hc, hcom⟩ := h.committed d hold hg
      rw [hcall, hji, hi, Option.some.injEq] at hc
      subst hc
      simp [RpcPhase.gap, RpcPhase.isHanded] at hcom
  · intro j c q ep hj hgap
    rw [List.getElem?_set] at hj
    split at hj
    · rename_i hij
      subst hij
      rw [Option.some.injEq] at hj
      subst hj
      dsimp only at hgap
      split at hgap
      · rename_i hgrant
        cases hgap
        exact ⟨_, List.mem_append_right _ List.mem_cons_self, hgrant, rfl, rfl, hsize⟩
      · cases hgap
    · obtain ⟨d, hd, hgranted⟩ := h.reserved j c q ep hj hgap
      exact ⟨d, List.mem_append_left _ hd, hgranted⟩
  · intro o ho
    rcases List.mem_append.mp ho with hold | hnew
    · obtain ⟨d, hd, hgranted⟩ := h.handed o hold
      exact ⟨d, List.mem_append_left _ hd, hgranted⟩
    · cases hnew

/-- **Every step keeps the record and the limiters together.** -/
theorem RpcSystem.Policed.step (h : s.Policed fromSlice w bodies ds) (hM : M.Polices)
    (hown : Unshared w.lb.rateLimiters)
    (hparams : ∀ ep ∈ w.lb.endpoints, 0 < ep.burstSize ∧ 0 < ep.rateLimitPerSec) (e : RpcEvent)
    (hclock : ClockAdvances (ds ++ s.decisions e)) :
    (s.step fromSlice e).Policed fromSlice w bodies (ds ++ s.decisions e) := by
  have hlim : ∀ ep ∈ w.lb.endpoints, (w.limiter? ep.url).isSome := by
    intro ep hep
    obtain ⟨l, hl, -⟩ := h.admitted ep hep
    have hparam := h.balanced.keeps.limiterParams ep.url
    unfold World.limiterParams at hparam
    rw [← Option.isSome_map, ← hparam, hl]
    rfl
  have hbal := h.balanced.step hown hlim e
  cases e with
  | environment op =>
      have hnone : ds ++ s.decisions (.environment op) = ds := List.append_nil ds
      rw [hnone]
      have hmap : (s.world.environmentStep op).lb.rateLimiters = s.world.lb.rateLimiters :=
        (keeps_environmentStep s.world op).rateLimiters
      refine ⟨hbal, h.positive, fun ep hep => ?_, h.exact, h.committed, h.nodup, h.reserved, h.handed⟩
      obtain ⟨l, hl, hadm⟩ := h.admitted ep hep
      refine ⟨l, ?_, hadm⟩
      unfold World.limiter? at hl ⊢
      show (s.world.environmentStep op).lb.rateLimiters ep.url >>= _ = _
      rw [hmap]
      show s.world.lb.rateLimiters ep.url >>= (s.world.environmentStep op).limiters.get? = _
      rw [limiters_environmentStep]
      exact hl
  | call i move =>
      rcases hi : s.calls[i]? with _ | call
      · have hnone : s.decisions (.call i move) = [] := by
          cases move <;> simp [RpcSystem.decisions, hi]
        rw [hnone, List.append_nil, RpcSystem.step_call_of_none hi]
        exact h
      · rcases hask : call.asks move with _ | ⟨p, endpoint, now⟩
        · have hnone : s.decisions (.call i move) = [] := by
            obtain ⟨body, phase⟩ := call
            unfold RpcSystem.decisions
            split
            · rename_i hmove
              cases hmove
              rw [hi]
              split
              · rename_i hcall
                cases hcall
                cases hask
              · rfl
            · rfl
          rw [hnone, List.append_nil]
          exact h.step_undecided hi hask hbal
        · obtain ⟨body, phase⟩ := call
          unfold RpcCall.asks at hask
          split at hask
          · rename_i hphase
            dsimp only at hphase
            subst hphase
            cases hask
            have hone : s.decisions (.call i (.reserve now)) = [s.decisionOf i p endpoint now] := by
              simp [RpcSystem.decisions, hi, RpcSystem.decisionOf]
            rw [hone] at hclock ⊢
            exact h.step_decided hM hown hparams hi hbal hclock
          · cases hask

end policed

/-! ## The cap -/

section cap

variable {burst rate : ℕ}

/-- The period of an endpoint within the configured limits does not wrap around. -/
theorem periodNanos_eq (hb : burst ≤ maxBurstSize) : periodNanos burst rate = nanosPerSec * burst / rate := by
  have hnanos : nanosPerSec = 1000000000 := rfl
  have hmax : maxBurstSize = 10000 := rfl
  unfold periodNanos wrappingMul64
  rw [Nat.mod_eq_of_lt]
  rw [hnanos]
  omega

/-- A cell takes its share of a second. -/
theorem cellInterval_eq (hb : 0 < burst) (hb' : burst ≤ maxBurstSize) :
    cellInterval burst rate = nanosPerSec / rate := by
  rw [cellInterval, periodNanos_eq hb', Nat.div_div_eq_div_mul, Nat.mul_comm rate burst,
    Nat.mul_comm nanosPerSec burst, Nat.mul_div_mul_left _ _ hb]

/-- The cells granted between two times. -/
def cellsBetween (from_ to_ : Instant) (log : List (Instant × ℕ)) : ℕ :=
  ((log.filter fun a => from_ ≤ a.1 ∧ a.1 ≤ to_).map Prod.snd).sum

/-- The time that the cells of a window take. -/
theorem total_window_weighed (interval : ℕ) (from_ to_ : Instant) (log : List (Instant × ℕ)) :
    Shaping.total (Shaping.window from_ to_ (weighed interval log)) =
      interval * cellsBetween from_ to_ log := by
  have hsum : ∀ log : List (Instant × ℕ), Shaping.total (weighed interval log) =
      interval * (log.map Prod.snd).sum := by
    intro log
    induction log with
    | nil => rfl
    | cons a log ih =>
        simp only [Shaping.total, weighed, List.map_cons, List.sum_cons] at ih ⊢
        rw [ih, Nat.mul_add]
  rw [cellsBetween, ← hsum, Shaping.window, weighed, List.filter_map]
  rfl

/-- The endpoints of a startup are within the configured limits.
Source: `balancer.rs` `LoadBalancer::new`; `config.rs` `validate_and_dedupe_endpoints` -/
theorem params_of_new {lower : List Char → List Char} {config : Option Config} {path : String}
    {started : Instant} {w : World M} (hnew : LoadBalancer.new M lower config path started = some w) :
    ∀ ep ∈ w.lb.endpoints,
      (0 < ep.burstSize ∧ 0 < ep.rateLimitPerSec) ∧ ep.burstSize ≤ maxBurstSize := by
  intro ep hep
  obtain ⟨finalized, b, c, hfin, hb, hc, hw⟩ := started_of_new hnew
  have hfinal : (config.getD {}).FinalizesTo lower c := ⟨finalized, b, hfin, hb, hc⟩
  obtain ⟨e, he, weight, r, -, -, rfl⟩ := KeyedList.exists_left_of_forall₂ hw.records hep
  have hvalid := hw.valid.endpoint e he
  exact ⟨⟨hvalid.burst, hvalid.rate⟩, (hfinal.inRange e he).burst⟩

end cap

/-- **The rate cap.** From every startup, for any number of requests with any bodies and every interleaving of
their steps with marks, health rounds and metrics updates, if the clock the limiters read does not go back:

* in every window of time an endpoint is granted no more cells than fit into the time of its burst and the
  length of the window; a cell takes a `rate`-th of a second and the burst as many, each rounded down to whole
  nanoseconds, so that a little more than the rate can pass where 10⁹ is no multiple of it;
* a limiter grants a batch exactly if the contract of the endpoint is kept by it, so it refuses no batch that
  the rate and the burst allow;
* every request handed over was granted to its call, for its URL and all its cells, and no call is granted
  anything twice.

Source: `main.rs` `handle_rpc`; `strategy.rs` `select_best_endpoint`, `reserve_tokens`; `config_reloader.rs`
`create_rate_limiter` -/
theorem rate_cap (fromSlice : List UInt8 → Except String Json) (B : M.LeakyBuckets)
    {lower : List Char → List Char} {config : Option Config} {path : String} {started : Instant}
    {w : World M} (hnew : LoadBalancer.new M lower config path started = some w)
    (bodies : List (List UInt8)) (events : List RpcEvent)
    (hclock : ClockAdvances ((RpcSystem.start w bodies).record fromSlice events)) :
    let s := (RpcSystem.start w bodies).run fromSlice events
    let ds := (RpcSystem.start w bodies).record fromSlice events
    (∀ ep ∈ w.lb.endpoints, ∀ from_ to_, from_ ≤ to_ →
        nanosPerSec / ep.rateLimitPerSec * cellsBetween from_ to_ (grantedAt ep.url ds) ≤
          nanosPerSec * ep.burstSize / ep.rateLimitPerSec + (to_ - from_)) ∧
      (∀ pre d post, ds = pre ++ d :: post → ∀ ep ∈ w.lb.endpoints, d.url = ep.url → d.cells ≤ u32Max →
        (d.granted = true ↔ KeepsContract ep.burstSize ep.rateLimitPerSec
          (grantedAt ep.url pre ++ [(d.now, d.cells)]))) ∧
      (∀ h ∈ s.handed, ∃ d ∈ ds, d.IsGrant h.call h.endpointUrl (batchSizeOf fromSlice h.requestBody)) ∧
      ((ds.filter LimiterDecision.granted).map LimiterDecision.call).Nodup := by
  intro s ds
  have hM := B.polices
  have hparams := params_of_new hnew
  have hown := unshared_of_new hnew
  have hrun : ClockAdvances ds → s.Policed fromSlice w bodies ds := by
    refine Runs.invariant_emitted
      (fun s ds => ClockAdvances ds → RpcSystem.Policed fromSlice w bodies s ds) ?_
      fun _ => policed_start hnew
    intro ls e ih hadvances
    rw [Runs.emitted_append] at hadvances ⊢
    rw [Runs.run_append]
    have hold := ih (hadvances.sublist (List.sublist_append_left _ _))
    have hone : ∀ s : RpcSystem M, Runs.emitted (RpcSystem.step fromSlice) RpcSystem.decisions s [e] =
        s.decisions e := fun s => List.append_nil _
    rw [hone] at hadvances ⊢
    exact hold.step hM hown (fun ep hep => (hparams ep hep).1) e hadvances
  have hpoliced := hrun hclock
  refine ⟨fun ep hep from_ to_ hle => ?_, hpoliced.exact, hpoliced.handed, hpoliced.nodup⟩
  obtain ⟨⟨hb, hr⟩, hbmax⟩ := hparams ep hep
  obtain ⟨l, -, hadm⟩ := hpoliced.admitted ep hep
  have hwindow := hM.keepsContract hb hr hadm from_ to_ hle
  rwa [total_window_weighed, cellInterval_eq hb hbmax, periodNanos_eq hbmax] at hwindow

/-- The leaky bucket of the crate, read as a bucket. -/
def leakyBucket_buckets : leakyBucket.LeakyBuckets where
  full := LeakyBucket.full
  tokenInterval := LeakyBucket.tokenInterval
  bucket b := ⟨b.level, b.lastUpdate⟩
  full_new _ _ := rfl
  tokenInterval_new _ _ := rfl
  bucket_new _ _ := rfl
  granted_iff b now n := by
    simp only [leakyBucket]
    split
    · rename_i hfits
      exact ⟨fun _ => hfits, fun _ => rfl⟩
    · rename_i hfull
      exact ⟨(nomatch ·), fun hfits => absurd hfits hfull⟩
  granted b now n h := by
    simp only [leakyBucket] at h ⊢
    split at h
    · rename_i hfits
      rw [if_pos hfits]
      exact ⟨rfl, rfl, rfl⟩
    · cases h

/-- Two requests for the one endpoint of the sample world. -/
theorem rate_cap_sample :
    let start := RpcSystem.start sampleWorld [sampleBody, sampleBody]
    let ds := start.record parseSample sampleEvents
    (∀ ep ∈ sampleWorld.lb.endpoints, ∀ from_ to_, from_ ≤ to_ →
        nanosPerSec / ep.rateLimitPerSec * cellsBetween from_ to_ (grantedAt ep.url ds) ≤
          nanosPerSec * ep.burstSize / ep.rateLimitPerSec + (to_ - from_)) ∧
      (∀ pre d post, ds = pre ++ d :: post → ∀ ep ∈ sampleWorld.lb.endpoints, d.url = ep.url →
        d.cells ≤ u32Max → (d.granted = true ↔ KeepsContract ep.burstSize ep.rateLimitPerSec
          (grantedAt ep.url pre ++ [(d.now, d.cells)]))) ∧
      (∀ h ∈ (start.run parseSample sampleEvents).handed, ∃ d ∈ ds,
        d.IsGrant h.call h.endpointUrl (batchSizeOf parseSample h.requestBody)) ∧
      ((ds.filter LimiterDecision.granted).map LimiterDecision.call).Nodup :=
  rate_cap parseSample leakyBucket_buckets new_sampleWorld _ _ (by decide +kernel)

end AzothBalancer
