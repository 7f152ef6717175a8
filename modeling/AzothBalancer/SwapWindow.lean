import AzothBalancer.System

/-!
# Selections during a reload

The endpoint list and the limiter map are published one after the other. A selection that falls
between the two reads the new list with the old map: an endpoint the reload added has no limiter
there, and is not limited at all (`unlimited_selection`); an endpoint whose rate or burst the reload
changed is charged on the limiter of its old rate and burst.

Where the limiters matched the endpoints to begin with, `charged_iff_known` says when every selection
is charged on the right limiter: exactly if no selection in that window lets an endpoint through that
the reload added or re-rated before any other. The invariant (`SwapInvariant`) says for each phase of
the reload which list fits which map.
-/

namespace AzothBalancer

variable {M : Meter}

/-! ## Charged selections -/

/-- `n` cells have been charged, from `w` to `w'`, on a limiter created from the burst and rate of
`ep`. -/
def Charged (w w' : World M) (ep : RpcEndpoint) (n : ℕ) : Prop :=
  ∃ r l l', w.lb.rateLimiters ep.url = some r ∧ w.limiters.get? r = some l ∧
    l.params = (ep.burstSize, ep.rateLimitPerSec) ∧ w'.limiters.get? r = some l' ∧
    l'.params = l.params ∧ l'.granted = l.granted + n

/-- If `get_next_endpoint(n)` selects an endpoint, it answers the endpoint's URL and has charged it. -/
def SelectionCharged (w : World M) (n : ℕ) (clock : Clock) : Prop :=
  ∀ ep, (selectBestEndpoint w n clock.now).1 = some ep →
    ∃ w', getNextEndpoint w n clock = (some ep.url, w') ∧ Charged w w' ep n

/-- A selection is charged exactly if the selected endpoint has a limiter of its burst and rate.
Source: `strategy.rs` `reserve_tokens` -/
theorem selectionCharged_iff {w : World M} {n : ℕ} {clock : Clock} (hn : 0 < n) :
    SelectionCharged w n clock ↔ ∀ ep, (selectBestEndpoint w n clock.now).1 = some ep →
      w.limiterParams ep.url = some (ep.burstSize, ep.rateLimitPerSec) := by
  constructor
  · intro h ep hsel
    obtain ⟨w', -, r, l, l', hr, hl, hparams, -⟩ := h ep hsel
    unfold World.limiterParams World.limiter?
    rw [hr]
    simp [hl, hparams]
  · intro h ep hsel
    have hparams := h ep hsel
    rcases getNextEndpoint_spec w n clock with ⟨w', hw', -⟩ | ⟨ep', w', hw', hsel', hep, -, hres, -⟩
    · exfalso
      unfold getNextEndpoint at hw'
      rcases hs : selectBestEndpoint w n clock.now with ⟨o, w''⟩
      rw [hs] at hsel hw'
      have ho : o = some ep := hsel
      rw [ho] at hw'
      have hne := congrArg Prod.fst hw'
      cases hne
    · rw [hsel'] at hsel
      cases hsel
      refine ⟨w', hw', ?_⟩
      unfold World.limiterParams at hparams
      unfold Charged
      generalize w'.limiters = heap at hres ⊢
      cases hres with
      | unlimited hnone =>
          rw [hnone] at hparams
          cases hparams
      | nothing hzero => omega
      | @charged r l hr hl _ hok =>
          have hlim : w.limiter? ep.url = some l := by
            unfold World.limiter?
            rw [hr]
            exact hl
          rw [hlim] at hparams
          refine ⟨r, l, (l.checkN clock.now n).2, hr, hl, Option.some.inj hparams, ?_, ?_, ?_⟩
          · rw [RefHeap.get?_modify_self, hl]
            rfl
          · exact RateLimiter.params_checkN l clock.now n
          · exact RateLimiter.granted_of_checkN hok

/-! ## Lists that fit maps -/

/-- Every endpoint of the list has, in the map, a limiter created from its burst and rate. -/
def Fits (eps : List RpcEndpoint) (map : String → Option LimiterRef) (heap : RefHeap (RateLimiter M)) :
    Prop :=
  ∀ ep ∈ eps, (map ep.url >>= heap.get?).map RateLimiter.params = some (ep.burstSize, ep.rateLimitPerSec)

/-- Fitting depends on the creation records only. -/
theorem Fits.of_params {eps : List RpcEndpoint} {map : String → Option LimiterRef}
    {heap heap' : RefHeap (RateLimiter M)}
    (hheap : ∀ r, (heap'.get? r).map RateLimiter.params = (heap.get? r).map RateLimiter.params)
    (h : Fits eps map heap) : Fits eps map heap' := by
  intro ep hep
  rw [← h ep hep]
  cases map ep.url with
  | none => rfl
  | some r => exact hheap r

/-- Fitting survives allocations. -/
theorem Fits.of_extends {eps : List RpcEndpoint} {map : String → Option LimiterRef}
    {heap heap' : RefHeap (RateLimiter M)} (hheap : RefHeap.Extends heap heap')
    (h : Fits eps map heap) : Fits eps map heap' := by
  intro ep hep
  have hold := h ep hep
  cases hr : map ep.url with
  | none => simp [hr] at hold
  | some r =>
      rw [hr] at hold
      obtain ⟨l, hl, -⟩ := Option.map_eq_some_iff.mp hold
      rw [← hold]
      exact congrArg (Option.map RateLimiter.params) (hheap.get? (RefHeap.valid_of_get? hl))

/-- Fitting depends on the profiles only. -/
theorem Fits.of_profiles {eps eps' : List RpcEndpoint} {map : String → Option LimiterRef}
    {heap : RefHeap (RateLimiter M)}
    (hprof : eps'.map RpcEndpoint.profile = eps.map RpcEndpoint.profile) (h : Fits eps map heap) :
    Fits eps' map heap := by
  intro ep hep
  have hmem : ep.profile ∈ eps.map RpcEndpoint.profile := hprof ▸ List.mem_map_of_mem hep
  obtain ⟨ep₀, hep₀, heq⟩ := List.mem_map.mp hmem
  have hurl : ep₀.url = ep.url := congrArg EndpointProfile.url heq
  have hburst : ep₀.burstSize = ep.burstSize := congrArg EndpointProfile.burstSize heq
  have hrate : ep₀.rateLimitPerSec = ep.rateLimitPerSec :=
    congrArg EndpointProfile.rateLimitPerSec heq
  rw [← hurl, ← hburst, ← hrate]
  exact h ep₀ hep₀

/-- **The merged list fits the merged map**, if the current list fits the current map.
Source: `config_reloader.rs` `reload`, the second read section -/
theorem fits_of_mergeStep {c : Settings} {now : Instant} {w : World M} {s : MergeState M}
    {eps : List RpcEndpoint} (h : MergeStep w.lb now c.endpoints w.mergeStart s eps)
    (hfits : Fits w.lb.endpoints w.lb.rateLimiters w.limiters) :
    Fits eps s.newRateLimiters s.limiters := by
  intro ep hep
  obtain ⟨e, he, hrec⟩ := KeyedList.exists_left_of_forall₂ h.records hep
  obtain ⟨hurl, hrate, hburst, -⟩ := hrec.config
  rw [hurl, hrate, hburst]
  have hparams : (World.afterMerge w.lb c eps s w.prom).limiterParams e.url =
      some (e.burstSize, e.rateLimitPerSec) := params_afterMerge hfits rfl rfl rfl h he
  exact hparams

/-! ## The invariant of the swap -/

/-- Which list fits which map, by phase, for a reload that started in `w₀`: until the new map is
published, the current map is the one of `w₀` and the list of `w₀` fits it; the merged list fits the
merged map; and the current list fits the current map except between the two writes. -/
structure SwapFits (w₀ : World M) (phase : ReloadPhase) (frame : ReloadFrame) (w : World M) :
    Prop where
  map : phase ≠ .settled → w.lb.rateLimiters = w₀.lb.rateLimiters
  old : phase ≠ .settled → Fits w₀.lb.endpoints w.lb.rateLimiters w.limiters
  merged : phase = .merged ∨ phase = .swapped →
    Fits frame.newRpcEndpoints frame.newRateLimiters w.limiters
  swapped : phase = .swapped →
    w.lb.endpoints.map RpcEndpoint.profile = frame.newRpcEndpoints.map RpcEndpoint.profile
  current : phase ≠ .swapped → Fits w.lb.endpoints w.lb.rateLimiters w.limiters

/-- The invariant of a reload that started in `w₀`. -/
structure SwapInvariant (w₀ : World M) (c : Settings) (phase : ReloadPhase) (call : ReloadCall)
    (s : System M) : Prop where
  solo : Solo c phase call s
  fits : SwapFits w₀ phase call.frame s.world

section invariant

variable {P : Platform} {w₀ : World M} {c : Settings} {phase : ReloadPhase} {call : ReloadCall}
  {s : System M}

/-- Operations keep the invariant. -/
theorem SwapInvariant.operation (h : SwapInvariant w₀ c phase call s) (op : Operation) :
    SwapInvariant w₀ c phase call (s.step P (.operation op)) := by
  have hk := keeps_exec s.world op
  refine ⟨h.solo.operation P op, fun hp => ?_, fun hp => ?_, fun hp => ?_, fun hp => ?_,
    fun hp => ?_⟩
  · exact hk.rateLimiters.trans (h.fits.map hp)
  · show Fits _ (s.world.exec op).1.lb.rateLimiters _
    rw [hk.rateLimiters]
    exact (h.fits.old hp).of_params hk.limiters
  · exact (h.fits.merged hp).of_params hk.limiters
  · exact hk.profiles.trans (h.fits.swapped hp)
  · show Fits _ (s.world.exec op).1.lb.rateLimiters _
    rw [hk.rateLimiters]
    exact ((h.fits.current hp).of_profiles hk.profiles).of_params hk.limiters

/-- What a section does, phase by phase, to the fit of lists and maps.
Source: `config_reloader.rs` `reload` -/
theorem SwapFits.advance {now : Instant} {w w' : World M} {frame frame' : ReloadFrame}
    {phase' : ReloadPhase} (h : SwapFits w₀ phase frame w)
    (hadv : Advances P c now w frame phase phase' w' frame') : SwapFits w₀ phase' frame' w' := by
  cases hadv with
  | done => exact h
  | quiet sec hq hm hs =>
      obtain ⟨hsame, -, -, -⟩ := execSection_quiet P c now w frame hq
      refine ⟨fun hp => ?_, fun hp => ?_, fun hp => absurd hp (not_or.mpr ⟨hm, hs⟩),
        fun hp => absurd hp hs, fun hp => ?_⟩
      · rw [hsame.rateLimiters]
        exact h.map hp
      · rw [hsame.rateLimiters, hsame.limiters]
        exact h.old hp
      · rw [hsame.endpoints, hsame.rateLimiters, hsame.limiters]
        exact h.current hp
  | merge hstep =>
      have hcurrent := h.current (by simp)
      refine ⟨fun _ => h.map (by simp), fun _ => ?_, fun _ => ?_, (nomatch ·), fun _ => ?_⟩
      · exact (h.old (by simp)).of_extends hstep.limiterHeap
      · exact fits_of_mergeStep hstep hcurrent
      · exact hcurrent.of_extends hstep.limiterHeap
  | swap =>
      exact ⟨fun _ => h.map (by simp), fun _ => h.old (by simp), fun _ => h.merged (Or.inl rfl),
        fun _ => rfl, fun hp => absurd rfl hp⟩
  | settle =>
      refine ⟨fun hp => absurd rfl hp, fun hp => absurd rfl hp, (by simp), (nomatch ·), fun _ => ?_⟩
      exact (h.merged (Or.inr rfl)).of_profiles (h.swapped rfl)

/-- **Every section of the reload keeps the invariant.** -/
theorem SwapInvariant.reloadSection (hc : c.Valid) (h : SwapInvariant w₀ c phase call s) (i : ℕ) :
    ∃ phase' call', SwapInvariant w₀ c phase' call' (s.step P (.reloadSection i)) := by
  rcases h.solo.reloadSection P hc i with hsame | ⟨phase', call', hsolo, hadv⟩
  · rw [hsame]
    exact ⟨phase, call, h⟩
  · exact ⟨phase', call', hsolo, h.fits.advance hadv⟩

/-- Every event but the start of another reload keeps the invariant. -/
theorem SwapInvariant.step (hc : c.Valid) (h : SwapInvariant w₀ c phase call s) {e : SystemEvent}
    (he : ∀ read now, e ≠ .startReload read now) :
    ∃ phase' call', SwapInvariant w₀ c phase' call' (s.step P e) := by
  cases e with
  | operation op => exact ⟨phase, call, h.operation op⟩
  | startReload read now => exact absurd rfl (he read now)
  | reloadSection i => exact h.reloadSection hc i

end invariant

/-! ## Runs -/

/-- A step of the interleaving is charged, if it is a selection of at least one request. -/
def ChargedStep (s : System M) : SystemEvent → Prop
  | .operation (.getNextEndpoint n clock) => 0 < n → SelectionCharged s.world n clock
  | _ => True

/-- `w₀` has the endpoint with the same rate and burst. -/
def Known (w₀ : World M) (ep : RpcEndpoint) : Prop :=
  ∃ old ∈ w₀.lb.endpoints, old.url = ep.url ∧ old.rateLimitPerSec = ep.rateLimitPerSec ∧
    old.burstSize = ep.burstSize

/-- In the order in which a selection of `n` requests tries them, every endpoint that `w₀` does not
have with the same rate and burst is refused, or comes after one that is let through. A URL without
limiter is let through. -/
def KnownFirst (w₀ w : World M) (n : ℕ) (now : Instant) : Prop :=
  ∀ tried ep untried, (sortedTiers w now).flatten = tried ++ ep :: untried → ¬ Known w₀ ep →
    w.lets n now ep.url = false ∨ ∃ e ∈ tried, w.lets n now e.url = true

/-- The condition on a step: it is about a selection between the two publications. -/
def KnownStep (w₀ : World M) (s : System M) : SystemEvent → Prop
  | .operation (.getNextEndpoint n clock) =>
      0 < n → (∃ call ∈ s.reloads, call.InSwap) → KnownFirst w₀ s.world n clock.now
  | _ => True

/-- The condition is about the endpoint that is selected. -/
theorem knownFirst_iff {w₀ w : World M} {n : ℕ} {now : Instant} :
    KnownFirst w₀ w n now ↔ ∀ ep, (selectBestEndpoint w n now).1 = some ep → Known w₀ ep := by
  constructor
  · intro h ep hsel
    rw [selectBestEndpoint_fst, List.find?_eq_some_iff_append] at hsel
    obtain ⟨hlets, tried, untried, heq, htried⟩ := hsel
    by_contra hnot
    rcases h tried ep untried heq hnot with hrefused | ⟨e, he, hlet⟩
    · rw [hlets] at hrefused
      cases hrefused
    · have hno := htried e he
      rw [hlet] at hno
      cases hno
  · intro h tried ep untried heq hnot
    by_contra hc
    rw [not_or, Bool.not_eq_false] at hc
    obtain ⟨hlets, hnone⟩ := hc
    apply hnot
    apply h
    rw [selectBestEndpoint_fst, List.find?_eq_some_iff_append]
    refine ⟨hlets, tried, untried, heq, fun e he => ?_⟩
    rw [Bool.not_eq_true']
    by_contra hlet
    exact hnone ⟨e, he, Bool.not_eq_false _ ▸ hlet⟩

section runs

variable {w₀ : World M} {c : Settings} {phase : ReloadPhase} {call : ReloadCall} {s : System M}

/-- Between the two publications, an endpoint has a limiter of its burst and rate exactly if the
reload neither added nor re-rated it. -/
theorem SwapInvariant.params_iff_known (hkeys : w₀.Matched)
    (h : SwapInvariant w₀ c phase call s) (hp : phase = .swapped) (ep : RpcEndpoint) :
    s.world.limiterParams ep.url = some (ep.burstSize, ep.rateLimitPerSec) ↔ Known w₀ ep := by
  have hfits := h.fits.old (by simp [hp])
  constructor
  · intro hparams
    have hsome : (w₀.lb.rateLimiters ep.url).isSome := by
      rw [← h.fits.map (by simp [hp])]
      by_contra hnone
      rw [Option.not_isSome_iff_eq_none] at hnone
      unfold World.limiterParams World.limiter? at hparams
      rw [hnone] at hparams
      cases hparams
    obtain ⟨old, hold, hurl⟩ := List.mem_map.mp ((hkeys.keys ep.url).mp hsome)
    have hold' : s.world.limiterParams old.url = some (old.burstSize, old.rateLimitPerSec) :=
      hfits old hold
    rw [hurl, hparams, Option.some.injEq, Prod.mk.injEq] at hold'
    exact ⟨old, hold, hurl, hold'.2.symm, hold'.1.symm⟩
  · rintro ⟨old, hold, hurl, hrate, hburst⟩
    have hparams := hfits old hold
    rw [hurl, hrate, hburst] at hparams
    exact hparams

/-- **A selection is charged exactly under the condition.** -/
theorem SwapInvariant.charged_iff (hkeys : w₀.Matched) (h : SwapInvariant w₀ c phase call s)
    (e : SystemEvent) : ChargedStep s e ↔ KnownStep w₀ s e := by
  cases e with
  | startReload read now => exact Iff.rfl
  | reloadSection i => exact Iff.rfl
  | operation op =>
      cases op with
      | getNextEndpoint n clock =>
          refine forall_congr' fun hn => ?_
          rw [selectionCharged_iff hn]
          by_cases hp : phase = .swapped
          · have hswap : ∃ call ∈ s.reloads, call.InSwap := by
              refine ⟨call, ?_, h.solo.atPhase.head_of_swapped hp⟩
              rw [h.solo.reloads]
              exact List.mem_cons_self
            simp only [h.params_iff_known hkeys hp, knownFirst_iff, hswap, true_imp_iff]
          · -- outside the window every endpoint has its limiter, and the condition asks nothing
            have hnot : ¬ ∃ call ∈ s.reloads, call.InSwap := by
              rintro ⟨call', hcall', hswap⟩
              rw [h.solo.reloads, List.mem_singleton] at hcall'
              subst hcall'
              exact hp (h.solo.atPhase.swapped_of_head hswap)
            constructor
            · intro _ hswap
              exact absurd hswap hnot
            · intro _ ep hsel
              rw [selectBestEndpoint_fst] at hsel
              have hep := List.mem_flatten.mp (List.mem_of_find?_eq_some hsel)
              have hmem := mem_availableEndpoints_of_sortedTiers hep
              exact h.fits.current hp ep (List.mem_of_mem_filter hmem)
      | _ => exact Iff.rfl

end runs

/-- **When every selection is charged.** In every interleaving of one reload with operations, started
where the limiters match the endpoints, every selection of the run is charged on a limiter created
from the burst and rate of the selected record exactly if every selection between the publication of
the list and that of the map tries, before it lets one through, only endpoints whose URL, rate and
burst were there before, or whose limiters refuse it.
Source: `config_reloader.rs` `reload`; `balancer.rs` `get_next_endpoint` -/
theorem charged_iff_known {P : Platform} {read : String → ReadResult} {w : World M} {c : Settings}
    (now : Instant) (hmatched : w.Matched) (hload : loadSettings P read w.lb.configPath = .ok c)
    {events : List SystemEvent} (hevents : ∀ e ∈ events, ∀ read now, e ≠ .startReload read now) :
    Runs.Along (System.step P) ChargedStep (.solo w c now) events ↔
      Runs.Along (System.step P) (KnownStep w) (.solo w c now) events := by
  obtain ⟨-, -, -, -, -, -, -, hvalid⟩ := loadSettings_eq_ok hload
  have hstart : ∃ phase call, SwapInvariant w c phase call (.solo w c now) :=
    ⟨.reading, _, solo_start w c now, fun _ => rfl, fun _ => hmatched.params, (by simp),
      (nomatch ·), fun _ => hmatched.params⟩
  exact Runs.along_congr (fun s => ∃ phase call, SwapInvariant w c phase call s)
    (fun s e he ⟨phase, call, h⟩ => h.step hvalid he)
    (fun s e _ ⟨phase, call, h⟩ => h.charged_iff hmatched e) hevents hstart

/-- **A selection is not limited.** The sample world reloads the other file; `get_next_endpoint` runs
between the two publications and answers the new endpoint, which has no limiter yet.
Source: `config_reloader.rs` `reload`; `strategy.rs` `reserve_tokens` -/
theorem unlimited_selection : ¬ ∀ (w : World leakyBucket) (read : String → ReadResult) (c : Settings)
    (now : Instant) (events : List SystemEvent), w.Reachable samplePlatform →
    (∀ ep ∈ w.lb.endpoints, (w.limiter? ep.url).isSome) →
    loadSettings samplePlatform read w.lb.configPath = .ok c →
    (∀ e ∈ events, ∀ read now, e ≠ .startReload read now) →
    Runs.Along (System.step samplePlatform) ChargedStep (.solo w c now) events := by
  intro h
  have halong := h sampleWorld (fun _ => .content otherFile) (.ofEndpoints [otherEndpoint]) 1
    (List.replicate 13 (.reloadSection 0) ++ [.operation (.getNextEndpoint 1 ⟨2, 2⟩)])
    (World.reachable_of_new new_sampleWorld) (by decide) (loadSettings_otherFile _) (by simp)
  have hsel : ChargedStep (System.run samplePlatform (.solo sampleWorld
      (.ofEndpoints [otherEndpoint]) 1) (List.replicate 13 (.reloadSection 0)))
      (.operation (.getNextEndpoint 1 ⟨2, 2⟩)) := (Runs.along_append.mp halong).2.1
  obtain ⟨w', -, r, -, -, hr, -⟩ := hsel (by decide)
    ⟨"http://b", true, 1, none, 0, 5, 7, 60, 1⟩ (by decide)
  have hnone : (System.run samplePlatform (.solo sampleWorld (.ofEndpoints [otherEndpoint]) 1)
      (List.replicate 13 (.reloadSection 0))).world.lb.rateLimiters "http://b" = none := by
    decide
  rw [hnone] at hr
  cases hr

/-- `charged_iff_known` for a selection before the swap of that reload. -/
theorem charged_iff_known_sample :
    Runs.Along (System.step samplePlatform) ChargedStep
        (.solo sampleWorld (.ofEndpoints [otherEndpoint]) 1)
        (List.replicate 12 (.reloadSection 0) ++ [.operation (.getNextEndpoint 1 ⟨2, 2⟩)]) ↔
      Runs.Along (System.step samplePlatform) (KnownStep sampleWorld)
        (.solo sampleWorld (.ofEndpoints [otherEndpoint]) 1)
        (List.replicate 12 (.reloadSection 0) ++ [.operation (.getNextEndpoint 1 ⟨2, 2⟩)]) := by
  obtain ⟨-, -, c, -, -, -, hstart⟩ := started_of_new new_sampleWorld
  exact charged_iff_known 1 hstart.matched (loadSettings_otherFile sampleWorld.lb.configPath)
    (by simp)

end AzothBalancer
