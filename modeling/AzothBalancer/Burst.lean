import AzothBalancer.Lib.Pools
import AzothBalancer.RateCap

/-!
# A burst of requests

What the balancer can serve at one instant, it serves. Of the limiters it is assumed that they are leaky buckets;
the room of one (`Meter.LeakyBuckets.room`) is the number of cells it can still grant at an instant, and the
endpoints that can be used are pools of that room (`Lib/Pools`).

The calls ask the limiters one at a time, in interleaved scans and in whatever order their sorts have ended. While
the clock stands still a limiter that refuses a batch refuses it for good, so a scan that has come to its end has
found every pool too empty.

* `RpcCall.advance_burst` — one step of a call: it charges one pool, or none.
* `RpcSystem.Bursting` — the invariant: what is left and what has been granted is what there was.
* `burst_served` — nothing is wasted: for every interleaving.
-/

namespace AzothBalancer

open JsonText (Json)

variable {M : Meter}

/-! ## Room -/

section room

variable (B : M.LeakyBuckets) {l : M.Limiter} {now : Instant} {n : ℕ}

/-- The cells that a limiter can still grant at an instant. -/
def Meter.LeakyBuckets.room (l : M.Limiter) (now : Instant) : ℕ∞ :=
  if B.full l < (B.bucket l).drained now then 0
  else if B.tokenInterval l = 0 then ⊤
  else ((B.full l - (B.bucket l).drained now) / B.tokenInterval l : ℕ)

/-- A limiter grants what it has room for. -/
theorem Meter.LeakyBuckets.granted_iff_room (hn : 0 < n) :
    (M.checkN l now n).1 = true ↔ (n : ℕ∞) ≤ B.room l now := by
  rw [B.granted_iff]
  unfold room
  split
  · have hpos : (n : ℕ∞) ≠ 0 := Nat.cast_ne_zero.mpr hn.ne'
    simp only [nonpos_iff_eq_zero, hpos, iff_false, not_le]
    omega
  · rename_i hfits
    split
    · rename_i hzero
      simp only [hzero, Nat.zero_mul, Nat.add_zero, le_top, iff_true]
      omega
    · rename_i hpos
      rw [Nat.cast_le, Nat.le_div_iff_mul_le (Nat.pos_of_ne_zero hpos), Nat.mul_comm n]
      omega

/-- A grant takes its cells from the room. -/
theorem Meter.LeakyBuckets.room_of_granted (h : (M.checkN l now n).1 = true) :
    B.room (M.checkN l now n).2 now + n = B.room l now := by
  obtain ⟨hfull, hinterval, hbucket⟩ := B.granted l now n h
  have hfits := (B.granted_iff l now n).mp h
  have hlevel : (B.bucket (M.checkN l now n).2).drained now =
      (B.bucket l).drained now + B.tokenInterval l * n := by
    rw [hbucket]
    simp [Shaping.Bucket.fill, Shaping.Bucket.drained]
  have hbefore : ¬ B.full l < (B.bucket l).drained now := Nat.not_lt.mpr (le_self_add.trans hfits)
  unfold room
  rw [hfull, hinterval, hlevel, if_neg (Nat.not_lt.mpr hfits), if_neg hbefore]
  split
  · exact top_add _
  · rename_i hpos
    have hn : n ≤ (B.full l - (B.bucket l).drained now) / B.tokenInterval l := by
      rw [Nat.le_div_iff_mul_le (Nat.pos_of_ne_zero hpos), Nat.mul_comm n]
      omega
    rw [← Nat.cast_add, Nat.cast_inj, ← Nat.sub_sub, Nat.sub_mul_div, Nat.sub_add_cancel hn]

/-- The room under a URL. A URL without limiter is never refused.
Source: `strategy.rs` `reserve_tokens` -/
def World.room (w : World M) (now : Instant) (url : String) : ℕ∞ :=
  match w.limiter? url with
  | none => ⊤
  | some l => B.room l.state now

variable {w w' : World M} {url : String}

/-- What is granted under a URL.
Source: `strategy.rs` `reserve_tokens` -/
theorem grants_iff_room (hn : 0 < n) :
    w.Grants n now url ↔ n ≤ u32Max ∧ (n : ℕ∞) ≤ w.room B now url := by
  unfold World.Grants World.room
  rcases w.limiter? url with _ | l
  · simp
  · have hcheck : (l.checkN now n).1 = (M.checkN l.state now n).1 := rfl
    simp only [Option.mem_some_iff, forall_eq', hcheck, B.granted_iff_room hn, hn.ne', false_or]

/-- The rooms depend on the limiters under the URLs. -/
theorem room_congr (hlb : w'.lb = w.lb) (hlim : w'.limiters = w.limiters) : w'.room B now = w.room B now := by
  funext url
  unfold World.room World.limiter?
  rw [hlb, hlim]

/-- A reservation that succeeds is one for which there is room.
Source: `strategy.rs` `reserve_tokens` -/
theorem isOk_reserveTokens_iff : (reserveTokens w url n now).1.isOk = true ↔ w.Grants n now url := by
  rw [← lets_iff]
  unfold World.lets
  rcases (reserveTokens w url n now).1 with _ | _ <;> rfl

/-- **A reservation that succeeds charges the pool of its URL.**
Source: `strategy.rs` `reserve_tokens` -/
theorem charged_reserveTokens (hown : Unshared w.lb.rateLimiters) (hn : 0 < n)
    (h : (reserveTokens w url n now).1.isOk = true) : (reserveTokens w url n now).2.lb = w.lb ∧
      Pools.Charged (w.room B now) ((reserveTokens w url n now).2.room B now) url n := by
  rcases hl : w.limiter? url with _ | l
  · rcases reserveTokens_spec w url n now with ⟨e, he⟩ | ⟨heap, hres, heq⟩
    · rw [he] at h
      cases h
    · rw [heq]
      have hheap : heap = w.limiters := by
        rcases hres with _ | _ | ⟨hr, hg, _, _⟩
        · rfl
        · rfl
        · simp [World.limiter?, hr, hg] at hl
      have hroom : World.room B { w with limiters := heap } now = w.room B now := room_congr B rfl hheap
      refine ⟨rfl, ?_, fun url' _ => by rw [hroom]⟩
      rw [hroom, World.room, hl]
      exact top_add _
  · obtain ⟨hok, hlb, hlimiters⟩ := limiter?_of_granted hown hl hn h
    refine ⟨hlb, ?_, fun url' hne => ?_⟩
    · unfold World.room
      rw [hlimiters, if_pos rfl, hl]
      exact B.room_of_granted hok
    · unfold World.room
      rw [hlimiters, if_neg hne]

end room

/-! ## One step of a call -/

/-- The clock readings of the move are `now`. -/
def RpcMove.IsAt (now : Instant) : RpcMove → Prop
  | .collect t | .reserve t => t = now
  | _ => True

/-- The clock stands at `now`, and the event leaves health and cooldowns alone. -/
def RpcEvent.IsAt (now : Instant) : RpcEvent → Prop
  | .call _ move => move.IsAt now
  | .environment op => op.events = []

/-- The call has been granted its cells. -/
def RpcCall.isGranted (call : RpcCall) : Bool := call.phase.gap.isSome || call.phase.isHanded

/-- The endpoints that can be used are still to be asked for the batch (`rest`), or cannot grant it any more. -/
structure Payload.Asking (p : Payload) (w : World M) (now : Instant) (rest : List RpcEndpoint) : Prop where
  usable : ∀ ep ∈ rest, ep ∈ availableEndpoints w.lb now
  refused : ∀ ep ∈ availableEndpoints w.lb now, ep ∈ rest ∨ ¬ w.Grants p.batchSize now ep.url

section step

variable {fromSlice : List UInt8 → Except String Json} {w w' : World M} {now : Instant} {call : RpcCall}
  {move : RpcMove}

/-- Where a call may stand: with the payload of its body, and in a selection with what it has still to ask. -/
def RpcCall.Bursting (fromSlice : List UInt8 → Except String Json) (w : World M) (now : Instant) (call : RpcCall) :
    Prop :=
  match call.phase with
  | .parsed p | .checked p | .reserved p _ => parsePayload fromSlice call.body = .ok p
  | .selecting p tiers => parsePayload fromSlice call.body = .ok p ∧ p.Asking w now tiers.flatten
  | .trying p _ rest tiers => parsePayload fromSlice call.body = .ok p ∧ p.Asking w now (rest ++ tiers.flatten)
  | .answered .serviceUnavailable => ∃ p, parsePayload fromSlice call.body = .ok p ∧ p.Asking w now []
  | .returned a => a.status = 200
  | _ => True

/-- In the world `w'` nothing more can be granted than in `w`. -/
structure World.Drains (w w' : World M) (now : Instant) : Prop where
  lb : w'.lb = w.lb
  grants : ∀ n url, 0 < n → w'.Grants n now url → w.Grants n now url

/-- Nothing is granted without the limiters. -/
theorem World.drains_of_eq (hlb : w'.lb = w.lb) (hlim : w'.limiters = w.limiters) : w.Drains w' now where
  lb := hlb
  grants n url _ h := by
    unfold World.Grants World.limiter? at h ⊢
    rwa [hlb, hlim] at h

/-- A charge leaves less. -/
theorem World.drains_of_charged (B : M.LeakyBuckets) {url : String} {n : ℕ} (hlb : w'.lb = w.lb)
    (h : Pools.Charged (w.room B now) (w'.room B now) url n) : w.Drains w' now where
  lb := hlb
  grants k url' hk hg := by
    rw [grants_iff_room B hk] at hg ⊢
    refine ⟨hg.1, hg.2.trans ?_⟩
    by_cases hu : url' = url
    · subst hu
      rw [← h.self]
      exact le_self_add
    · rw [h.others url' hu]

/-- What refuses a batch goes on refusing it. -/
theorem Payload.Asking.drains {p : Payload} {rest : List RpcEndpoint} (hpos : 0 < p.batchSize)
    (h : p.Asking w now rest) (hd : w.Drains w' now) : p.Asking w' now rest where
  usable ep hep := by
    rw [hd.lb]
    exact h.usable ep hep
  refused ep hep := by
    rw [hd.lb] at hep
    exact (h.refused ep hep).imp id fun hnot hg => hnot (hd.grants _ _ hpos hg)

/-- Another call's step leaves a call where it may stand. -/
theorem RpcCall.Bursting.drains (h : call.Bursting fromSlice w now) (hd : w.Drains w' now) :
    call.Bursting fromSlice w' now := by
  unfold RpcCall.Bursting at h ⊢
  split at h
  · exact h
  · exact h
  · exact h
  · exact ⟨h.1, h.2.drains (positive_of_parsePayload h.1) hd⟩
  · exact ⟨h.1, h.2.drains (positive_of_parsePayload h.1) hd⟩
  · obtain ⟨p, hp, hask⟩ := h
    exact ⟨p, hp, hask.drains (positive_of_parsePayload hp) hd⟩
  · exact h
  · trivial

/-- What a step of a call does to the pools and to the call. -/
inductive RpcCall.Charging (B : M.LeakyBuckets) (fromSlice : List UInt8 → Except String Json) (w w' : World M)
    (now : Instant) (call call' : RpcCall) : Prop where
  /-- No pool is charged. -/
  | none : w'.limiters = w.limiters → call'.isGranted = call.isGranted → Charging B fromSlice w w' now call call'
  /-- The pool of a usable endpoint is charged with the batch. -/
  | one {p : Payload} {endpoint : RpcEndpoint} : parsePayload fromSlice call.body = .ok p →
      endpoint ∈ availableEndpoints w.lb now → call.isGranted = false → call'.isGranted = true →
      Pools.Charged (w.room B now) (w'.room B now) endpoint.url p.batchSize →
      Charging B fromSlice w w' now call call'

/-- The balancer stays, and so does the body of the call; the call stands where it may. -/
structure RpcCall.Burst (fromSlice : List UInt8 → Except String Json) (w w' : World M) (now : Instant)
    (call call' : RpcCall) : Prop where
  lb : w'.lb = w.lb
  body : call'.body = call.body
  bursting : call'.Bursting fromSlice w' now

/-- The candidates of a selection are all the endpoints that can be used.
Source: `strategy.rs` `select_best_endpoint`, `tiers` -/
theorem mem_flatten_unsortedTiers {lb : LoadBalancer} {ep : RpcEndpoint} :
    ep ∈ (unsortedTiers lb now).flatten ↔ ep ∈ availableEndpoints lb now := by
  simp only [unsortedTiers, List.mem_flatten, List.mem_map]
  constructor
  · rintro ⟨tier, ⟨k, -, rfl⟩, hep⟩
    exact List.mem_of_mem_filter hep
  · intro hep
    have hweight : 0 < ep.weight := by
      have := (List.mem_filter.mp hep).2
      simp_all
    obtain ⟨k, hk, hmem⟩ : ∃ k, tierOf ep.weight = some k ∧ k ∈ [1, 2, 3] := by
      unfold tierOf tier1MinWeight tier2MinWeight tier3MinWeight
      split
      · exact ⟨1, rfl, by decide⟩
      · split
        · exact ⟨2, rfl, by decide⟩
        · rw [if_pos (by omega)]
          exact ⟨3, rfl, by decide⟩
    exact ⟨_, ⟨k, hmem, rfl⟩, List.mem_filter.mpr ⟨hep, by simpa using hk⟩⟩

/-- **One step of a call** while the clock stands still.
Source: `main.rs` `handle_rpc`; `strategy.rs` `select_best_endpoint` -/
theorem RpcCall.advance_burst (B : M.LeakyBuckets) (hown : Unshared w.lb.rateLimiters) (hat : move.IsAt now)
    (h : call.Bursting fromSlice w now) :
    call.Burst fromSlice w (call.advance fromSlice w move).1 now (call.advance fromSlice w move).2 ∧
      RpcCall.Charging B fromSlice w (call.advance fromSlice w move).1 now call
        (call.advance fromSlice w move).2 := by
  obtain ⟨body, phase⟩ := call
  -- a step that leaves the limiters alone
  have hmove : ∀ (w' : World M) (phase' : RpcPhase), w'.lb = w.lb → w'.limiters = w.limiters →
      RpcCall.isGranted ⟨body, phase'⟩ = RpcCall.isGranted ⟨body, phase⟩ →
      RpcCall.Bursting fromSlice w now ⟨body, phase'⟩ →
      RpcCall.Burst fromSlice w w' now ⟨body, phase⟩ ⟨body, phase'⟩ ∧
        RpcCall.Charging B fromSlice w w' now ⟨body, phase⟩ ⟨body, phase'⟩ :=
    fun w' phase' hlb hlim hsame hb => ⟨⟨hlb, rfl, hb.drains (World.drains_of_eq hlb hlim)⟩, .none hlim hsame⟩
  have hanswer : ∀ (w' : World M) (a : RpcAnswer), w'.lb = w.lb → w'.limiters = w.limiters →
      RpcCall.isGranted ⟨body, phase⟩ = false →
      (a = .serviceUnavailable → ∃ p, parsePayload fromSlice body = .ok p ∧ p.Asking w now []) →
      RpcCall.Burst fromSlice w (RpcCall.answer ⟨body, phase⟩ w' a).1 now ⟨body, phase⟩
          (RpcCall.answer ⟨body, phase⟩ w' a).2 ∧
        RpcCall.Charging B fromSlice w (RpcCall.answer ⟨body, phase⟩ w' a).1 now ⟨body, phase⟩
          (RpcCall.answer ⟨body, phase⟩ w' a).2 := by
    intro w' a hlb hlim hfree ha
    refine hmove _ _ hlb hlim hfree.symm ?_
    cases a with
    | serviceUnavailable => exact ha rfl
    | _ => trivial
  unfold RpcCall.advance
  dsimp only
  split
  · split
    · rename_i hraw
      refine hanswer _ _ rfl rfl rfl fun ha => ?_
      rw [ha] at hraw
      unfold checkRaw at hraw
      split at hraw
      · cases hraw
      · split at hraw <;> cases hraw
    · exact hmove _ _ rfl rfl rfl trivial
  · split
    · exact hanswer _ _ rfl rfl rfl fun ha => (by cases ha)
    · exact hmove _ _ rfl rfl rfl trivial
  · split
    · rename_i hparse
      refine hanswer _ _ rfl rfl rfl fun ha => ?_
      rw [ha] at hparse
      unfold parsePayload at hparse
      split at hparse
      · cases hparse
      · split at hparse
        split at hparse <;> cases hparse
    · rename_i hparse
      exact hmove _ _ rfl rfl rfl hparse
  · split
    · rename_i hcheck
      refine hanswer _ _ rfl rfl rfl fun ha => ?_
      rw [ha] at hcheck
      unfold checkParsed at hcheck
      split at hcheck <;> cases hcheck
    · exact hmove _ _ rfl rfl rfl h
  · -- the candidates are read
    rename_i p t
    obtain rfl : t = now := hat
    split
    · rename_i hempty
      refine hanswer _ _ rfl rfl rfl fun _ => ⟨p, h, fun ep hep => (by cases hep), fun ep hep => ?_⟩
      rw [List.isEmpty_iff.mp hempty] at hep
      cases hep
    · exact hmove _ _ rfl rfl rfl ⟨h, fun ep hep => mem_flatten_unsortedTiers.mp hep,
        fun ep hep => Or.inl (mem_flatten_unsortedTiers.mpr hep)⟩
  · -- a tier is sorted
    rename_i p tier tiers order
    split
    · rename_i hperm
      have hmem : ∀ ep, ep ∈ order ++ tiers.flatten ↔ ep ∈ (tier :: tiers).flatten := fun ep => by
        rw [List.flatten_cons, List.mem_append, List.mem_append, hperm.mem_iff]
      exact hmove _ _ rfl rfl rfl ⟨h.1, fun ep hep => h.2.usable ep ((hmem ep).mp hep),
        fun ep hep => (h.2.refused ep hep).imp (hmem ep).mpr id⟩
    · exact hmove _ _ rfl rfl rfl h
  · -- all have been asked
    rename_i p
    exact hanswer _ _ rfl rfl rfl fun _ => ⟨p, h⟩
  · -- one is asked
    rename_i p rank endpoint rest tiers t
    obtain rfl : t = now := hat
    have hpos := positive_of_parsePayload h.1
    rcases hres : reserveTokens w endpoint.url p.batchSize t with ⟨_ | _, w'⟩
    · have hrefused : (reserveTokens w endpoint.url p.batchSize t).1.isOk = false := by rw [hres]; rfl
      have hsame : w' = w := by
        have hw := reserveTokens_of_refused hrefused
        rwa [hres] at hw
      subst hsame
      refine hmove _ _ rfl rfl rfl ⟨h.1, fun ep hep => h.2.usable ep (List.mem_cons_of_mem _ hep), fun ep hep => ?_⟩
      rcases h.2.refused ep hep with hin | hnot
      · rcases List.mem_cons.mp hin with rfl | hin
        · right
          rw [← isOk_reserveTokens_iff, hrefused]
          exact Bool.false_ne_true
        · exact Or.inl hin
      · exact Or.inr hnot
    · have hgranted : (reserveTokens w endpoint.url p.batchSize t).1.isOk = true := by rw [hres]; rfl
      obtain ⟨hlb, hcharged⟩ := charged_reserveTokens B hown hpos hgranted
      rw [hres] at hlb hcharged
      exact ⟨⟨hlb, rfl, h.1⟩, .one h.1 (h.2.usable endpoint List.mem_cons_self) rfl rfl hcharged⟩
  · exact hmove _ _ rfl rfl rfl h
  · exact hmove _ _ rfl rfl rfl trivial
  · rename_i p _ result
    exact hmove _ _ rfl rfl rfl (status_answerOf p result)
  · exact hmove _ _ rfl rfl rfl h

end step

/-! ## The invariant -/

/-- The URLs of the endpoints that can be used. -/
def World.usable (w : World M) (now : Instant) : List String :=
  (availableEndpoints w.lb now).map RpcEndpoint.url

/-- What the calls have been granted, each granted call counting as `gain` says of its body. -/
def RpcSystem.gained (gain : List UInt8 → ℕ) (s : RpcSystem M) : ℕ :=
  (s.calls.map fun call => if call.isGranted then gain call.body else 0).sum

section run

variable {B : M.LeakyBuckets} {fromSlice : List UInt8 → Except String Json} {w : World M} {now : Instant}
  {bodies : List (List UInt8)} {s : RpcSystem M} {call call' : RpcCall} {i : ℕ}

/-- The bodies of the requests parse to batches of `n` only. -/
def Uniform (fromSlice : List UInt8 → Except String Json) (n : ℕ) (bodies : List (List UInt8)) : Prop :=
  ∀ body ∈ bodies, ∀ p, parsePayload fromSlice body = .ok p → p.batchSize = n

/-- The pools and the calls: what is left, and what has been granted, is what there was. -/
structure RpcSystem.Bursting (B : M.LeakyBuckets) (fromSlice : List UInt8 → Except String Json) (w : World M)
    (bodies : List (List UInt8)) (now : Instant) (s : RpcSystem M) : Prop where
  lb : s.world.lb = w.lb
  started : s.calls.map RpcCall.body = bodies
  calls : ∀ call ∈ s.calls, call.Bursting fromSlice s.world now
  cells : Pools.left (s.world.room B now) (w.usable now) + s.gained (batchSizeOf fromSlice) =
    Pools.left (w.room B now) (w.usable now)
  claims : ∀ n, 0 < n → Uniform fromSlice n bodies →
    Pools.claims n (s.world.room B now) (w.usable now) + s.gained (fun _ => 1) =
      Pools.claims n (w.room B now) (w.usable now)

/-- Usable endpoints have different URLs. -/
theorem World.WellFormed.nodup_usable (hw : w.WellFormed) : (w.usable now).Nodup :=
  hw.nodup.sublist (List.filter_sublist.map RpcEndpoint.url)

/-- Requests that have just arrived have been granted nothing. -/
theorem bursting_start : (RpcSystem.start w bodies).Bursting B fromSlice w bodies now := by
  have hnone : ∀ gain, (RpcSystem.start w bodies).gained gain = 0 := by
    intro gain
    simp [RpcSystem.gained, RpcSystem.start, Function.comp_def, RpcCall.isGranted, RpcPhase.gap,
      RpcPhase.isHanded]
  refine ⟨rfl, by simp [RpcSystem.start, Function.comp_def], fun call hcall => ?_, ?_, fun n _ _ => ?_⟩
  · obtain ⟨body, -, rfl⟩ := List.mem_map.mp hcall
    trivial
  · rw [hnone, Nat.cast_zero, add_zero]
    rfl
  · rw [hnone, Nat.cast_zero, add_zero]
    rfl

/-- **A step of a call.** -/
theorem RpcSystem.Bursting.step_call (hw : w.WellFormed) (hown : Unshared w.lb.rateLimiters)
    (h : s.Bursting B fromSlice w bodies now) {move : RpcMove} (hat : move.IsAt now)
    (hi : s.calls[i]? = some call) :
    (s.step fromSlice (.call i move)).Bursting B fromSlice w bodies now := by
  have hmem : call ∈ s.calls := List.mem_of_getElem? hi
  obtain ⟨hburst, hcharge⟩ := call.advance_burst B (h.lb ▸ hown) hat (h.calls call hmem)
  rw [RpcSystem.step_call hi]
  generalize (call.advance fromSlice s.world move).1 = w' at hburst hcharge ⊢
  generalize (call.advance fromSlice s.world move).2 = call' at hburst hcharge ⊢
  have hbodies : (s.calls.set i call').map RpcCall.body = bodies :=
    (Runs.map_set_of_eq hi hburst.body).trans h.started
  have hothers : s.world.Drains w' now → ∀ c ∈ s.calls.set i call', c.Bursting fromSlice w' now := by
    intro hd c hc
    rcases List.mem_or_eq_of_mem_set hc with hold | rfl
    · exact (h.calls c hold).drains hd
    · exact hburst.bursting
  have hgained : ∀ gain : List UInt8 → ℕ,
      RpcSystem.gained gain ⟨w', s.calls.set i call', s.handed ++ call.handOver i move⟩ +
        (if call.isGranted then gain call.body else 0) =
          s.gained gain + if call'.isGranted then gain call.body else 0 := by
    intro gain
    have hsum : RpcSystem.gained gain ⟨w', s.calls.set i call', s.handed ++ call.handOver i move⟩ +
        (if call.isGranted then gain call.body else 0) =
          s.gained gain + if call'.isGranted then gain call'.body else 0 := Runs.sum_map_set _ hi
    rwa [hburst.body] at hsum
  rcases hcharge with ⟨hlim, hsame⟩ | ⟨hparse, hep, hfree, hgranted, hcharged⟩
  · have hrooms : w'.room B now = s.world.room B now := room_congr B hburst.lb hlim
    have hkeep : ∀ gain, RpcSystem.gained gain ⟨w', s.calls.set i call', s.handed ++ call.handOver i move⟩ =
        s.gained gain := by
      intro gain
      have hone := hgained gain
      rw [hsame] at hone
      exact Nat.add_right_cancel hone
    refine ⟨hburst.lb.trans h.lb, hbodies, hothers (World.drains_of_eq hburst.lb hlim), ?_, fun n hn hu => ?_⟩
    · rw [hkeep, hrooms]
      exact h.cells
    · rw [hkeep, hrooms]
      exact h.claims n hn hu
  · have hone : ∀ gain : List UInt8 → ℕ,
        RpcSystem.gained gain ⟨w', s.calls.set i call', s.handed ++ call.handOver i move⟩ =
          s.gained gain + gain call.body := by
      intro gain
      have hsum := hgained gain
      rw [hfree, hgranted] at hsum
      simpa using hsum
    have hmemUrl : _ ∈ w.usable now := List.mem_map_of_mem (h.lb ▸ hep)
    have hpos := positive_of_parsePayload hparse
    refine ⟨hburst.lb.trans h.lb, hbodies, hothers (World.drains_of_charged B hburst.lb hcharged), ?_,
      fun n hn hu => ?_⟩
    · rw [hone, ← batchSize_of_parsePayload hparse, ← h.cells,
        ← Pools.left_of_charged hw.nodup_usable hmemUrl hcharged]
      push_cast
      ring
    · have hsize := hu call.body (h.started ▸ List.mem_map_of_mem hmem) _ hparse
      rw [hsize] at hcharged
      rw [hone, ← h.claims n hn hu, ← Pools.claims_of_charged hw.nodup_usable hmemUrl hn hcharged]
      push_cast
      ring

/-- An operation that leaves health and cooldowns alone leaves the balancer. -/
theorem lb_environmentStep {op : Operation} (h : op.events = []) (w : World M) :
    (w.environmentStep op).lb = w.lb := by
  cases op with
  | getNextEndpoint n clock => rfl
  | markUnhealthy url t => cases h
  | markRateLimited url t => cases h
  | applyHealthResults results timeoutMs t =>
      obtain rfl := List.map_eq_nil_iff.mp h
      rfl
  | updateHealthyCount t => rfl
  | updateMetrics url result elapsedMs =>
      show (AzothBalancer.updateMetrics w url result elapsedMs).lb = w.lb
      unfold AzothBalancer.updateMetrics
      split <;> rfl

/-- **Every step at the instant keeps the invariant.** -/
theorem RpcSystem.Bursting.step (hw : w.WellFormed) (hown : Unshared w.lb.rateLimiters)
    (h : s.Bursting B fromSlice w bodies now) {e : RpcEvent} (hat : e.IsAt now) :
    (s.step fromSlice e).Bursting B fromSlice w bodies now := by
  cases e with
  | environment op =>
      have hlb : (s.world.environmentStep op).lb = s.world.lb := lb_environmentStep hat s.world
      have hlim := limiters_environmentStep s.world op
      have hrooms : (s.world.environmentStep op).room B now = s.world.room B now := room_congr B hlb hlim
      refine ⟨hlb.trans h.lb, h.started,
        fun call hcall => (h.calls call hcall).drains (World.drains_of_eq hlb hlim), ?_, fun n hn hu => ?_⟩
      · show Pools.left ((s.world.environmentStep op).room B now) _ + _ = _
        rw [hrooms]
        exact h.cells
      · show Pools.claims n ((s.world.environmentStep op).room B now) _ + _ = _
        rw [hrooms]
        exact h.claims n hn hu
  | call i move =>
      rcases hi : s.calls[i]? with _ | call
      · rw [RpcSystem.step_call_of_none hi]
        exact h
      · exact h.step_call hw hown hat hi

/-- A call that has been answered 503 has found every pool too empty.
Source: `strategy.rs` `select_best_endpoint` -/
theorem RpcSystem.Bursting.refused (h : s.Bursting B fromSlice w bodies now)
    (ha : s.answer? i = some .serviceUnavailable) : ∃ call p, s.calls[i]? = some call ∧
      parsePayload fromSlice call.body = .ok p ∧ 0 < p.batchSize ∧
        (p.batchSize ≤ u32Max → ∀ url ∈ w.usable now, s.world.room B now url < p.batchSize) := by
  unfold RpcSystem.answer? at ha
  split at ha
  · rename_i body a hi
    obtain rfl := Option.some.inj ha
    obtain ⟨p, hparse, hask⟩ := h.calls _ (List.mem_of_getElem? hi)
    have hpos := positive_of_parsePayload hparse
    refine ⟨_, p, hi, hparse, hpos, fun hsmall url hurl => ?_⟩
    obtain ⟨ep, hep, rfl⟩ := List.mem_map.mp hurl
    rw [← h.lb] at hep
    rcases hask.refused ep hep with hin | hnot
    · cases hin
    · rw [grants_iff_room B hpos] at hnot
      exact not_le.mp fun hle => hnot ⟨hsmall, hle⟩
  · rename_i body a hi
    obtain rfl := Option.some.inj ha
    have hstatus : RpcAnswer.serviceUnavailable.status = 200 := h.calls _ (List.mem_of_getElem? hi)
    cases hstatus
  · cases ha

end run

/-- **A burst is served as far as the limiters reach.** From every reachable state, for any number of requests
with any bodies and every interleaving of their steps at one instant, beside metrics updates and counts: what is
granted comes out of the cells the usable endpoints have left, each cell once. Once a request of `n` calls has
been answered 503, no usable endpoint has `n` cells left, so that fewer than `n` for each of them remain; and if
all requests are of `n` calls, no more are granted than fit, and a 503 means that as many have been granted as
fit. Both are about batches whose size fits `u32`: a larger one is refused whatever is left.
Source: `main.rs` `handle_rpc`; `strategy.rs` `select_best_endpoint`, `reserve_tokens` -/
theorem burst_served (B : M.LeakyBuckets) (fromSlice : List UInt8 → Except String Json) {P : Platform}
    {w : World M} (hw : w.Reachable P) (bodies : List (List UInt8)) {now : Instant} {events : List RpcEvent}
    (hat : ∀ e ∈ events, e.IsAt now) :
    let s := (RpcSystem.start w bodies).run fromSlice events
    let left := Pools.left (w.room B now) (w.usable now)
    Pools.left (s.world.room B now) (w.usable now) + s.gained (batchSizeOf fromSlice) = left ∧
      (∀ i, s.answer? i = some .serviceUnavailable → ∃ body p, bodies[i]? = some body ∧
        parsePayload fromSlice body = .ok p ∧ (p.batchSize ≤ u32Max →
          (∀ url ∈ w.usable now, s.world.room B now url < p.batchSize) ∧
          left ≤ s.gained (batchSizeOf fromSlice) + (w.usable now).length * (p.batchSize - 1 : ℕ))) ∧
      ∀ n, 0 < n → n ≤ u32Max → Uniform fromSlice n bodies →
        s.gained (fun _ => 1) ≤ Pools.claims n (w.room B now) (w.usable now) ∧
          ∀ i, s.answer? i = some .serviceUnavailable →
            s.gained (fun _ => 1) = Pools.claims n (w.room B now) (w.usable now) := by
  intro s left
  have hburst : s.Bursting B fromSlice w bodies now :=
    Runs.invariant (RpcSystem.Bursting B fromSlice w bodies now) (fun e => e.IsAt now)
      (fun _ _ he h => h.step hw.wellFormed hw.unshared he) hat bursting_start
  refine ⟨hburst.cells, fun i hi => ?_, fun n hn hsmall hu => ⟨?_, fun i hi => ?_⟩⟩
  · obtain ⟨call, p, hcall, hparse, hpos, hroom⟩ := hburst.refused hi
    refine ⟨call.body, p, ?_, hparse, fun hsmall => ?_⟩
    · rw [← hburst.started, List.getElem?_map, hcall]
      rfl
    · refine ⟨hroom hsmall, ?_⟩
      show Pools.left _ _ ≤ _
      rw [← hburst.cells, add_comm]
      exact add_le_add_right (Pools.left_le_of_refused (hroom hsmall)) _
  · rw [← hburst.claims n hn hu]
    exact le_add_self
  · obtain ⟨call, p, hcall, hparse, hpos, hroom⟩ := hburst.refused hi
    have hsize : p.batchSize = n :=
      hu call.body (hburst.started ▸ List.mem_map_of_mem (List.mem_of_getElem? hcall)) p hparse
    rw [hsize] at hroom
    rw [← hburst.claims n hn hu, (Pools.claims_eq_zero_iff hn).mpr (hroom hsmall), zero_add]

/-- Two requests for the one endpoint of the sample world, which has room for twenty-five cells. -/
theorem burst_served_sample :
    let s := (RpcSystem.start sampleWorld [sampleBody, sampleBody]).run parseSample sampleEvents
    let left := Pools.left (sampleWorld.room leakyBucket_buckets 0) (sampleWorld.usable 0)
    Pools.left (s.world.room leakyBucket_buckets 0) (sampleWorld.usable 0) + s.gained (batchSizeOf parseSample) =
        left ∧
      (∀ i, s.answer? i = some .serviceUnavailable → ∃ body p, [sampleBody, sampleBody][i]? = some body ∧
        parsePayload parseSample body = .ok p ∧ (p.batchSize ≤ u32Max →
          (∀ url ∈ sampleWorld.usable 0, s.world.room leakyBucket_buckets 0 url < p.batchSize) ∧ left ≤
            s.gained (batchSizeOf parseSample) + (sampleWorld.usable 0).length * (p.batchSize - 1 : ℕ))) ∧
      ∀ n, 0 < n → n ≤ u32Max → Uniform parseSample n [sampleBody, sampleBody] →
        s.gained (fun _ => 1) ≤ Pools.claims n (sampleWorld.room leakyBucket_buckets 0) (sampleWorld.usable 0) ∧
          ∀ i, s.answer? i = some .serviceUnavailable → s.gained (fun _ => 1) =
            Pools.claims n (sampleWorld.room leakyBucket_buckets 0) (sampleWorld.usable 0) :=
  burst_served leakyBucket_buckets parseSample (World.reachable_of_new new_sampleWorld) _ (by
    simp [sampleEvents, RpcEvent.IsAt, RpcMove.IsAt, Operation.events])

/-- Its room. -/
example : sampleWorld.room leakyBucket_buckets 0 "http://a" = 25 := by decide +kernel

end AzothBalancer
