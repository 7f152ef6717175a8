import AzothBalancer.System

/-!
# A limiter of its own

The limiter map holds shared pointers, so two URLs could share one limiter. In no reachable state do
they (`World.Reachable.unshared`): a limiter enters a map when it is created, under one URL, and a
reload carries it over under the URL it had. The argument is one about maps of fresh references,
`Unshared`, along the two loops that fill one: startup's and the merge's.
-/

namespace AzothBalancer

variable {M : Meter}

/-- No two URLs have the same limiter. -/
def Unshared (map : String → Option LimiterRef) : Prop :=
  ∀ url url' r, map url = some r → map url' = some r → url = url'

/-- The empty map shares nothing. -/
theorem unshared_none : Unshared fun _ => none := by
  intro url url' r hr
  cases hr

/-- A new entry shares nothing if no other URL has its limiter. -/
theorem Unshared.update {map : String → Option LimiterRef} (h : Unshared map) {url : String}
    {r : LimiterRef} (hr : ∀ url', url' ≠ url → map url' ≠ some r) :
    Unshared (Function.update map url (some r)) := by
  intro u u' r' hu hu'
  by_cases hurl : u = url
  · by_cases hurl' : u' = url
    · rw [hurl, hurl']
    · subst hurl
      rw [Function.update_self, Option.some.injEq] at hu
      subst hu
      rw [Function.update_of_ne hurl'] at hu'
      exact absurd hu' (hr u' hurl')
  · rw [Function.update_of_ne hurl] at hu
    by_cases hurl' : u' = url
    · subst hurl'
      rw [Function.update_self, Option.some.injEq] at hu'
      subst hu'
      exact absurd hu (hr u hurl)
    · rw [Function.update_of_ne hurl'] at hu'
      exact h u u' r' hu hu'

/-! ## Startup -/

/-- Startup's loop shares nothing: every limiter it inserts is new.
Source: `balancer.rs` `LoadBalancer::new` -/
theorem unshared_newLimiters :
    ∀ (eps : List RpcEndpoint) {map map' : String → Option LimiterRef}
      {heap heap' : RefHeap (RateLimiter M)}, newLimiters M eps map heap = some (map', heap') →
      Unshared map → (∀ url r, map url = some r → heap.Valid r) → Unshared map'
  | [], _, _, _, _, h, hmap, _ => by
      cases h
      exact hmap
  | ep :: eps, map, map', heap, heap', h, hmap, hvalid => by
      rw [newLimiters] at h
      obtain ⟨l, -, h⟩ := Option.bind_eq_some_iff.mp h
      apply unshared_newLimiters eps h
      · apply hmap.update
        intro url' _ hr
        exact RefHeap.ne_alloc (a := l) (hvalid url' _ hr) rfl
      · intro url r hr
        by_cases hurl : url = ep.url
        · rw [hurl, Function.update_self, Option.some.injEq] at hr
          exact hr ▸ RefHeap.valid_alloc_self
        · rw [Function.update_of_ne hurl] at hr
          exact (hvalid url r hr).alloc

/-- Startup shares nothing.
Source: `balancer.rs` `LoadBalancer::new` -/
theorem unshared_of_new {lower : List Char → List Char} {config : Option Config} {path : String}
    {now : Instant} {w : World M} (h : LoadBalancer.new M lower config path now = some w) :
    Unshared w.lb.rateLimiters := by
  unfold LoadBalancer.new at h
  cases hfin : (config.getD {}).finalize lower with
  | err e => simp [hfin] at h
  | panic => simp [hfin] at h
  | ok finalized =>
      obtain ⟨b, server, c, n, addr, hb, hserver, hc, -, hn, haddr⟩ := valid_of_finalize hfin
      simp only [hfin, hserver, hb, hc, hn, haddr, Option.bind_eq_bind, Option.bind_some] at h
      obtain ⟨-, -, h⟩ := Option.bind_eq_some_iff.mp h
      obtain ⟨⟨eps, metrics⟩, -, h⟩ := Option.bind_eq_some_iff.mp h
      obtain ⟨⟨map, limiters⟩, hlim, h⟩ := Option.bind_eq_some_iff.mp h
      cases h
      apply unshared_newLimiters eps hlim unshared_none
      intro url r hr
      cases hr

/-! ## The merge -/

/-- A stage of the merge loop: its map shares nothing, and a limiter in it is the one the URL had, or
was created since the loop began in `old`. -/
structure MergeState.Own (lb : LoadBalancer) (old : RefHeap (RateLimiter M)) (s : MergeState M) :
    Prop where
  unshared : Unshared s.newRateLimiters
  valid : ∀ url r, s.newRateLimiters url = some r → s.limiters.Valid r
  origin : ∀ url r, s.newRateLimiters url = some r → lb.rateLimiters url = some r ∨ ¬ old.Valid r
  heap : RefHeap.Extends old s.limiters

section merge

variable {lb : LoadBalancer} {old : RefHeap (RateLimiter M)} {now : Instant}

/-- One round of the loop, on limiters the balancer does not share. -/
theorem MergeState.Own.step (hlb : Unshared lb.rateLimiters)
    (hold : ∀ url r, lb.rateLimiters url = some r → old.Valid r) {s s' : MergeState M}
    {new : EndpointConfig} {eps : List RpcEndpoint} (h : s.Own lb old)
    (hstep : MergeStep lb now [new] s s' eps) : s'.Own lb old := by
  have helse : ∀ url, url ≠ new.url → s'.newRateLimiters url = s.newRateLimiters url :=
    fun url hne => hstep.elsewhere url (by simpa using hne)
  have hheap : RefHeap.Extends old s'.limiters := h.heap.trans hstep.limiterHeap
  have hnew : ∀ r, s'.newRateLimiters new.url = some r → s'.limiters.Valid r ∧
      (lb.rateLimiters new.url = some r ∨ ¬ s.limiters.Valid r) := by
    intro r hr
    have hlim := hstep.limiters new List.mem_cons_self
    by_cases hk : keepsLimiter lb new
    · rw [hlim.kept hk] at hr
      exact ⟨hheap.valid (hold _ _ hr), Or.inl hr⟩
    · obtain ⟨r', l, hr', hv, hget, -⟩ := hlim.fresh hk
      rw [hr', Option.some.injEq] at hr
      subst hr
      exact ⟨RefHeap.valid_of_get? hget, Or.inr hv⟩
  -- no other URL has the limiter of the new entry
  have hapart : ∀ url r, url ≠ new.url → s'.newRateLimiters new.url = some r →
      s'.newRateLimiters url ≠ some r := by
    intro url r hne hr hurl
    rw [helse url hne] at hurl
    rcases (hnew r hr).2 with hkept | hfresh
    · rcases h.origin url r hurl with hlbr | hnot
      · exact hne (hlb _ _ _ hlbr hkept)
      · exact hnot (hold _ _ hkept)
    · exact hfresh (h.valid url r hurl)
  refine ⟨?_, ?_, ?_, hheap⟩
  · intro u u' r hu hu'
    by_cases hne : u = new.url
    · by_contra hne'
      exact hapart u' r (fun e => hne' (hne.trans e.symm)) (hne ▸ hu) hu'
    · by_cases hne' : u' = new.url
      · exact absurd hu (hapart u r hne (hne' ▸ hu'))
      · rw [helse u hne] at hu
        rw [helse u' hne'] at hu'
        exact h.unshared u u' r hu hu'
  · intro url r hr
    by_cases hne : url = new.url
    · exact (hnew r (hne ▸ hr)).1
    · rw [helse url hne] at hr
      exact hstep.limiterHeap.valid (h.valid url r hr)
  · intro url r hr
    by_cases hne : url = new.url
    · subst hne
      exact (hnew r hr).2.imp_right fun hv hv' => hv (h.heap.valid hv')
    · rw [helse url hne] at hr
      exact h.origin url r hr

/-- The loop, on valid entries with distinct URLs.
Source: `config_reloader.rs` `reload`, the second read section -/
theorem MergeState.Own.mergeEndpoints (hlb : Unshared lb.rateLimiters)
    (hold : ∀ url r, lb.rateLimiters url = some r → old.Valid r) :
    ∀ (new : List EndpointConfig) {s s' : MergeState M}, s.Own lb old →
      (∀ e ∈ new, e.Valid) → (new.map EndpointConfig.url).Nodup →
      (∀ e ∈ new, s.newRateLimiters e.url = none) →
      AzothBalancer.mergeEndpoints lb now s new = some s' → s'.Own lb old
  | [], _, _, h, _, _, _, heq => by
      cases heq
      exact h
  | e :: es, s, s', h, hv, hn, hnone, heq => by
      rw [List.map_cons, List.nodup_cons] at hn
      obtain ⟨s₁, ep, hs₁, hstep₁⟩ :=
        mergeEndpoint_spec lb now s (hv e List.mem_cons_self) (hnone e List.mem_cons_self)
      unfold AzothBalancer.mergeEndpoints at heq
      rw [List.foldlM_cons, hs₁] at heq
      apply MergeState.Own.mergeEndpoints hlb hold es (h.step hlb hold hstep₁)
        (fun e' he' => hv e' (List.mem_cons_of_mem _ he')) hn.2 _ heq
      intro e' he'
      rw [hstep₁.elsewhere]
      · exact hnone e' (List.mem_cons_of_mem _ he')
      · intro hmem
        rw [List.map_singleton, List.mem_singleton] at hmem
        exact hn.1 (hmem ▸ List.mem_map_of_mem he')

/-- The merge section shares nothing.
Source: `config_reloader.rs` `reload`, the second read section -/
theorem unshared_mergeSection {c : Settings} (hc : c.Valid) (now : Instant) {w : World M}
    (hw : w.WellFormed) (hown : Unshared w.lb.rateLimiters) {frame : ReloadFrame}
    (hframe : Unshared frame.newRateLimiters) :
    Unshared (mergeSection c now w frame).2.newRateLimiters := by
  unfold mergeSection
  split
  · exact hframe
  · rename_i s hs
    have hstart : w.mergeStart.Own w.lb w.limiters := {
      unshared := unshared_none
      valid := fun _ _ hr => by cases hr
      origin := fun _ _ hr => by cases hr
      heap := .refl _ }
    exact (hstart.mergeEndpoints hown hw.limiters c.endpoints hc.endpoint hc.nodup (fun _ _ => rfl)
      hs).unshared

end merge

/-! ## Interleavings -/

/-- Neither the balancer nor a reload in flight shares a limiter between URLs. -/
structure System.Unshared (s : System M) : Prop where
  world : AzothBalancer.Unshared s.world.lb.rateLimiters
  frames : ∀ call ∈ s.reloads, AzothBalancer.Unshared call.frame.newRateLimiters

/-- A section shares nothing.
Source: `config_reloader.rs` `reload` -/
theorem unshared_execSection (P : Platform) {c : Settings} (hc : c.Valid) (now : Instant) {w : World M}
    {frame : ReloadFrame} (hwf : w.WellFormed) (hw : Unshared w.lb.rateLimiters)
    (hf : Unshared frame.newRateLimiters) (sec : ReloadSection) :
    Unshared (execSection P c now w frame sec).1.lb.rateLimiters ∧
      Unshared (execSection P c now w frame sec).2.newRateLimiters := by
  by_cases hq : sec.isQuiet
  · obtain ⟨hs, -, hmap, -⟩ := execSection_quiet P c now w frame hq
    rw [hs.rateLimiters, hmap]
    exact ⟨hw, hf⟩
  · have hmerge := unshared_mergeSection hc now hwf hw hf
    have hlb : (mergeSection c now w frame).1.lb = w.lb := by
      unfold mergeSection
      split <;> rfl
    unfold execSection
    split
    · exact ⟨hw, hf⟩
    · cases sec with
      | merge => exact ⟨hlb ▸ hw, hmerge⟩
      | writeEndpoints => exact ⟨hw, hf⟩
      | writeRateLimiters => exact ⟨hf, hf⟩
      | _ => exact absurd rfl hq

/-- **No reachable state shares a limiter between URLs.** -/
theorem System.Reachable.unshared {P : Platform} {s : System M} (h : s.Reachable P) : s.Unshared := by
  have hkept : System.Kept P (fun w : World M => AzothBalancer.Unshared w.lb.rateLimiters)
      (fun frame => AzothBalancer.Unshared frame.newRateLimiters) := {
    operation := fun w op hw => (keeps_exec w op).rateLimiters ▸ hw
    empty := unshared_none
    section_ := fun _ now _ _ sec hc hwf hw hf => unshared_execSection P hc now hwf hw hf sec }
  obtain ⟨hworld, hframes⟩ := h.of_kept hkept fun _ _ _ _ hnew => unshared_of_new hnew
  exact ⟨hworld, hframes⟩

/-- **In every reachable state, every URL with a limiter has one of its own.** -/
theorem World.Reachable.unshared {P : Platform} {w : World M} (h : w.Reachable P) :
    Unshared w.lb.rateLimiters := by
  obtain ⟨s, hs, rfl⟩ := h
  exact hs.unshared.world

end AzothBalancer
