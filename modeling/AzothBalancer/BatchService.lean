import AzothBalancer.FinalizedConfig
import AzothBalancer.SelectionOptimum

/-!
# Which batches a fresh balancer can serve

The size of a batch is limited twice: `max_batch_size` bounds what the HTTP layer admits, and the burst
of an endpoint bounds what its limiter ever grants. Finalization does not compare the two.

Of the limiter only this is assumed (`Meter.GrantsCapacity`): before its first decision it grants
`n` cells exactly if `n` is at most its capacity. `serviceable_iff` is the condition under which a fresh
balancer serves every admitted batch, `defaults_not_serviceable` the defaults as a configuration that
does not meet it.
-/

namespace AzothBalancer

variable {M : Meter} {lower : List Char → List Char} {raw : Config} {c : Settings}

/-- A limiter made from a burst and a rate within the configured limits grants, before its first
decision, exactly what fits its capacity. -/
def Meter.GrantsCapacity (M : Meter) : Prop :=
  ∀ burst rate, 0 < burst → burst ≤ maxBurstSize → 0 < rate → rate ≤ maxRateLimit →
    ∀ now n, (M.checkN (M.new burst (periodNanos burst rate)) now n).1 = true ↔ n ≤ burst

/-- The state of a created limiter.
Source: `config_reloader.rs` `create_rate_limiter` -/
theorem state_of_createRateLimiter {burst rate : ℕ} {l : RateLimiter M}
    (h : createRateLimiter M burst rate = some l) : l.state = M.new burst (periodNanos burst rate) := by
  unfold createRateLimiter at h
  split at h
  · cases h
  · split at h
    · cases h
    · cases h
      rfl

/-- What a startup may answer: an endpoint of positive weight whose burst has room for the batch.
Source: `balancer.rs` `LoadBalancer::new` -/
theorem Started.selectable_iff (hM : M.GrantsCapacity) {started : Instant} {w : World M}
    (hw : Started c started w) (hrange : ∀ e ∈ c.endpoints, e.InRange) {ep : RpcEndpoint}
    (hep : ep ∈ w.lb.endpoints) {n : ℕ} (now : Instant) :
    Selectable w n now ep ↔ 0 < ep.weight ∧ n ≤ u32Max ∧ n ≤ ep.burstSize := by
  obtain ⟨r, l, hr, hl, hcreate⟩ := hw.limiters ep hep
  obtain ⟨e, he, weight, m, hweight, -, heq⟩ := KeyedList.exists_left_of_forall₂ hw.records hep
  have hlim : w.limiter? ep.url = some l := by simp [World.limiter?, hr, hl]
  have hgrant : (l.checkN now n).1 = true ↔ n ≤ ep.burstSize := by
    show (M.checkN l.state now n).1 = true ↔ _
    rw [state_of_createRateLimiter hcreate]
    subst heq
    have hvalid := hw.valid.endpoint e he
    exact hM _ _ hvalid.burst (hrange e he).burst hvalid.rate (hrange e he).rate now n
  constructor
  · intro h
    obtain ⟨hsmall, hcases⟩ := h.granted
    refine ⟨h.weight, hsmall, ?_⟩
    rcases hcases with rfl | hall
    · exact Nat.zero_le _
    · exact hgrant.mp (hall l hlim)
  · rintro ⟨hpos, hsmall, hfits⟩
    refine ⟨?_, ?_, hpos, hsmall, Or.inr fun l' hl' => ?_⟩
    · rw [heq]
      rfl
    · rw [heq]
      rfl
    · rw [hlim, Option.mem_some_iff] at hl'
      subst hl'
      exact hgrant.mpr hfits

/-- The operation answers something exactly if the selection does.
Source: `balancer.rs` `get_next_endpoint` -/
theorem getNextEndpoint_isSome (w : World M) (n : ℕ) (clock : Clock) :
    (getNextEndpoint w n clock).1.isSome = (selectBestEndpoint w n clock.now).1.isSome := by
  unfold getNextEndpoint
  rcases selectBestEndpoint w n clock.now with ⟨_ | ep, w'⟩ <;> rfl

/-- **Exactly when every admitted batch is serviceable**: some endpoint of positive weight has a burst
as large as the largest admitted batch.
Source: `config.rs` `Config::finalize`; `strategy.rs` `select_best_endpoint`, `reserve_tokens` -/
theorem serviceable_iff (hM : M.GrantsCapacity) (hfin : raw.FinalizesTo lower c) {path : String}
    {started : Instant} {w : World M}
    (hnew : LoadBalancer.new M lower (some raw) path started = some w) :
    (∀ n, 1 ≤ n → n ≤ c.maxBatchSize → n ≤ u32Max →
      ∀ clock, (getNextEndpoint w n clock).1.isSome) ↔
    ∃ e ∈ c.endpoints, (∃ weight ∈ e.weight, 0 < weight) ∧ min c.maxBatchSize u32Max ≤ e.burstSize := by
  have hw := hfin.started hnew
  have hbatch : 1 ≤ c.maxBatchSize := by
    obtain ⟨es, -, rfl⟩ := finalizesTo_iff.mp hfin
    exact le_max_right _ _
  have hsome : ∀ n clock, (getNextEndpoint w n clock).1.isSome ↔
      ∃ ep ∈ w.lb.endpoints, 0 < ep.weight ∧ n ≤ u32Max ∧ n ≤ ep.burstSize := by
    intro n clock
    rw [getNextEndpoint_isSome, selectBestEndpoint_isSome_iff]
    apply exists_congr
    intro ep
    constructor
    · rintro ⟨hep, hsel⟩
      exact ⟨hep, (hw.selectable_iff hM hfin.inRange hep clock.now).mp hsel⟩
    · rintro ⟨hep, hsel⟩
      exact ⟨hep, (hw.selectable_iff hM hfin.inRange hep clock.now).mpr hsel⟩
  constructor
  · intro h
    -- the largest admitted batch decides
    have hlargest := h (min c.maxBatchSize u32Max) (le_min hbatch (by decide)) (min_le_left _ _)
      (min_le_right _ _) ⟨0, 0⟩
    obtain ⟨ep, hep, hpos, -, hfits⟩ := (hsome _ _).mp hlargest
    obtain ⟨e, he, weight, r, hweight, -, rfl⟩ := KeyedList.exists_left_of_forall₂ hw.records hep
    exact ⟨e, he, ⟨weight, hweight, hpos⟩, hfits⟩
  · rintro ⟨e, he, ⟨weight, hweight, hpos⟩, hfits⟩ n - hn hsmall clock
    obtain ⟨ep, hep, weight', r, hweight', -, rfl⟩ := KeyedList.exists_right_of_forall₂ hw.records he
    apply (hsome n clock).mpr
    refine ⟨_, hep, ?_, hsmall, (le_min hn hsmall).trans hfits⟩
    rw [hweight, Option.some.injEq] at hweight'
    exact hweight' ▸ hpos

/-! ## The defaults -/

/-- The leaky bucket grants its capacity: the interval of a cell is at least as long as the remainder
that the period leaves. -/
theorem leakyBucket_grantsCapacity : leakyBucket.GrantsCapacity := by
  intro burst rate hb hb' hr hr' now n
  have hnanos : nanosPerSec = 1000000000 := rfl
  have hmaxb : maxBurstSize = 10000 := rfl
  have hmaxr : maxRateLimit = 100000 := rfl
  have hwrap : periodNanos burst rate = nanosPerSec * burst / rate := by
    unfold periodNanos wrappingMul64
    rw [Nat.mod_eq_of_lt]
    rw [hnanos]
    omega
  -- `interval * burst ≤ period < interval * (burst + 1)`
  have hinterval : periodNanos burst rate / burst = nanosPerSec / rate := by
    rw [hwrap, Nat.div_div_eq_div_mul, Nat.mul_comm rate burst, Nat.mul_comm nanosPerSec burst,
      Nat.mul_div_mul_left _ _ hb]
  have hlong : burst ≤ nanosPerSec / rate := by
    rw [Nat.le_div_iff_mul_le hr]
    have hprod : burst * rate ≤ 10000 * 100000 := Nat.mul_le_mul hb' hr'
    rw [hnanos]
    exact hprod
  have hlow : periodNanos burst rate / burst * burst ≤ periodNanos burst rate :=
    Nat.div_mul_le_self _ _
  have hhigh : periodNanos burst rate < periodNanos burst rate / burst * burst + burst := by
    have hmod := Nat.div_add_mod' (periodNanos burst rate) burst
    have hlt := Nat.mod_lt (periodNanos burst rate) hb
    omega
  have hdecision : (leakyBucket.checkN (leakyBucket.new burst (periodNanos burst rate)) now n).1 = true ↔
      periodNanos burst rate / burst * n ≤ periodNanos burst rate := by
    simp only [leakyBucket, LeakyBucket.drained, Nat.zero_sub, Nat.zero_add]
    split
    · rename_i hfits
      exact ⟨fun _ => hfits, fun _ => rfl⟩
    · rename_i hfits
      exact ⟨(nomatch ·), fun h => absurd h hfits⟩
  rw [hdecision]
  constructor
  · intro hfits
    by_contra hmore
    have hmul := Nat.mul_le_mul_left (periodNanos burst rate / burst) (Nat.lt_of_not_le hmore)
    rw [Nat.succ_eq_add_one, Nat.mul_add, Nat.mul_one] at hmul
    omega
  · intro hn
    exact (Nat.mul_le_mul_left _ hn).trans hlow

/-- The settings of the sample file come from its configuration. -/
theorem finalizesTo_sample :
    (Config.ofEndpoints [sampleEndpoint]).FinalizesTo asciiLowercase (.ofEndpoints [sampleEndpoint]) := by
  apply finalizesTo_iff.mpr
  exact ⟨[sampleEndpoint], by decide +kernel, by decide +kernel⟩

/-- One endpoint with the default burst of 25, under the default batch limit of 100: batches of 26 are
admitted and never served. -/
theorem defaults_not_serviceable :
    ¬ ∀ (M : Meter) (lower : List Char → List Char) (raw : Config) (c : Settings) (path : String)
      (started : Instant) (w : World M), M.GrantsCapacity → raw.FinalizesTo lower c →
      (∃ e ∈ c.endpoints, ∃ weight ∈ e.weight, 0 < weight) →
      LoadBalancer.new M lower (some raw) path started = some w →
      ∀ n, 1 ≤ n → n ≤ c.maxBatchSize → n ≤ u32Max →
        ∀ clock, (getNextEndpoint w n clock).1.isSome := by
  intro h
  have hserved := h leakyBucket asciiLowercase (.ofEndpoints [sampleEndpoint])
    (.ofEndpoints [sampleEndpoint]) "config.toml" 0 sampleWorld leakyBucket_grantsCapacity
    finalizesTo_sample ⟨sampleEndpoint, List.mem_cons_self, 60, rfl, by decide⟩ new_sampleWorld
    26 (by decide) (by decide) (by decide) ⟨0, 0⟩
  exact absurd hserved (by decide +kernel)

/-- `serviceable_iff` for that configuration. -/
theorem serviceable_iff_sample :
    ¬ ∀ n, 1 ≤ n → n ≤ (Settings.ofEndpoints [sampleEndpoint]).maxBatchSize → n ≤ u32Max →
      ∀ clock, (getNextEndpoint sampleWorld n clock).1.isSome := by
  intro h
  have hroom := (serviceable_iff leakyBucket_grantsCapacity finalizesTo_sample new_sampleWorld).mp h
  exact absurd hroom (by decide)

end AzothBalancer
