import AzothBalancer.CanonicalUrl
import AzothBalancer.FinalizedConfig

/-!
# What the endpoint filter keeps

`validate_and_dedupe_endpoints` as a function of the list: of the entries that pass the tests
(`EndpointConfig.Passes`), each with its URL in canonical form, it keeps the first of every URL, in order.

* `filterEndpoints_eq` — the loop, by recursion on the list; `validateAndDedupeEndpoints_eq` the function.
* `dedup_keeps_first` — it never panics, fails exactly if nothing passes, and keeps exactly the earliest
  passing entry of each canonical URL.
* `canonical_urls_iff` — what it keeps is canonical, and kept unchanged by a second run, exactly if no
  passing entry has a bare URL; likewise for finalization. `bare_url_kept` is one that has.
-/

namespace AzothBalancer

variable {lower : List Char → List Char}

/-! ## The tests -/

namespace EndpointConfig

/-- The URL without white space around it. -/
def trimmed (e : EndpointConfig) : List Char := trim e.url.toList

/-- The entry with its URL in canonical form. -/
def canonical (e : EndpointConfig) : EndpointConfig :=
  { e with url := String.ofList (canonicalForm e.trimmed) }

/-- The entry passes the tests: its trimmed URL is not empty, has one of the two schemes in any case, is
short enough and clean, and its rate and burst are in range. -/
structure Passes (e : EndpointConfig) : Prop where
  nonempty : e.trimmed ≠ []
  scheme : httpScheme <+: e.trimmed.map Char.toLower ∨ httpsScheme <+: e.trimmed.map Char.toLower
  length : byteLen e.trimmed ≤ maxUrlLen
  clean : ∀ c ∈ e.trimmed, isControl c = false ∧ isWhitespace c = false
  rate : 1 ≤ e.rateLimitPerSec ∧ e.rateLimitPerSec ≤ maxRateLimit
  burst : 1 ≤ e.burstSize ∧ e.burstSize ≤ maxBurstSize

end EndpointConfig

/-- ASCII lower-casing is character by character. -/
theorem lowercasesByChar_ascii : LowercasesByChar fun s => s.map Char.toLower := by
  intro s
  refine ⟨s.map fun c => [c.toLower], ?_, ?_⟩
  · rw [List.forall₂_map_right_iff, List.forall₂_same]
    intro c _
    exact ⟨List.cons_ne_nil _ _, fun _ => rfl, fun d hd _ => (List.mem_singleton.mp hd).symm⟩
  · show s.map Char.toLower = _
    induction s with
    | nil => rfl
    | cons c s ih => rw [List.map_cons, List.map_cons, List.flatten_cons, ← ih, List.singleton_append]

/-- **The tests of the filter.**
Source: `config.rs` `validate_and_dedupe_endpoints`, the early returns -/
theorem passesChecks_iff (h : LowercasesByChar lower) (e : EndpointConfig) :
    passesChecks lower e.trimmed e = true ↔ e.Passes := by
  unfold passesChecks
  rw [isPrefixOf_lower h (mem_httpsScheme_of_mem (.inl rfl)),
    isPrefixOf_lower h (mem_httpsScheme_of_mem (.inr rfl))]
  simp only [Bool.and_eq_true, Bool.or_eq_true, Bool.not_eq_true', List.isPrefixOf_iff_prefix,
    List.isEmpty_eq_false_iff, List.any_eq_false, Bool.or_eq_false_iff, decide_eq_true_eq,
    decide_eq_false_iff_not, beq_eq_false_iff_ne, not_lt, not_or, Bool.not_eq_true]
  constructor
  · rintro ⟨⟨⟨⟨⟨hne, hscheme⟩, hlen⟩, hclean⟩, hrate⟩, hburst⟩
    exact ⟨hne, hscheme, hlen, hclean, ⟨Nat.pos_of_ne_zero hrate.1, hrate.2⟩,
      ⟨Nat.pos_of_ne_zero hburst.1, hburst.2⟩⟩
  · intro hp
    exact ⟨⟨⟨⟨⟨hp.nonempty, hp.scheme⟩, hp.length⟩, hp.clean⟩,
      Nat.pos_iff_ne_zero.mp hp.rate.1, hp.rate.2⟩, Nat.pos_iff_ne_zero.mp hp.burst.1, hp.burst.2⟩

instance (e : EndpointConfig) : Decidable e.Passes :=
  decidable_of_iff _ (passesChecks_iff lowercasesByChar_ascii e)

/-- The scheme of an entry that passes. -/
theorem EndpointConfig.Passes.exists_scheme {e : EndpointConfig} (h : e.Passes) :
    ∃ scheme, schemeOf e.trimmed = some scheme := by
  rw [← Option.isSome_iff_exists]
  unfold schemeOf
  rw [List.find?_isSome]
  rcases h.scheme with hs | hs
  · exact ⟨httpScheme, by simp, List.isPrefixOf_iff_prefix.mpr hs⟩
  · exact ⟨httpsScheme, by simp, List.isPrefixOf_iff_prefix.mpr hs⟩

/-! ## The loop -/

/-- The entries that pass, with canonical URLs. -/
def passing (es : List EndpointConfig) : List EndpointConfig :=
  (es.filter fun e => e.Passes).map EndpointConfig.canonical

/-- One entry: it passes and is rewritten, or it is skipped.
Source: `config.rs` `validate_and_dedupe_endpoints` -/
theorem validateEndpoint_eq (h : LowercasesByChar lower) (e : EndpointConfig) :
    validateEndpoint lower e = .ok (if e.Passes then some e.canonical else none) := by
  have hiff := passesChecks_iff h e
  unfold EndpointConfig.trimmed at hiff
  unfold validateEndpoint
  by_cases hp : e.Passes
  · dsimp only
    rw [if_pos (hiff.mpr hp), if_pos hp, canonicalizeUrl_eq h]
    rfl
  · dsimp only
    rw [if_neg (fun hc => hp (hiff.mp hc)), if_neg hp]
    rfl

/-- **The loop**: of the passing entries whose URL has not been seen, the first of each URL.
Source: `config.rs` `validate_and_dedupe_endpoints`, the `filter_map` -/
theorem filterEndpoints_eq (h : LowercasesByChar lower) :
    ∀ (es : List EndpointConfig) (seen : List String), filterEndpoints lower seen es =
      .ok ((KeyedList.firsts EndpointConfig.url (passing es)).filter fun e => e.url ∉ seen)
  | [], _ => rfl
  | e :: es, seen => by
      rw [filterEndpoints, validateEndpoint_eq h, Outcome.ok_bind]
      by_cases hp : e.Passes
      · have hpassing : passing (e :: es) = e.canonical :: passing es := by
          simp [passing, hp]
        rw [if_pos hp, hpassing, KeyedList.firsts, List.filter_cons]
        dsimp only
        by_cases hseen : e.canonical.url ∈ seen
        · rw [if_pos hseen, filterEndpoints_eq h es seen, if_neg (by simpa using hseen),
            List.filter_filter]
          refine congrArg Outcome.ok (List.filter_congr fun b _ => ?_)
          by_cases hb : b.url = e.canonical.url
          · simp [hb, hseen]
          · simp [hb]
        · rw [if_neg hseen, filterEndpoints_eq h es (e.canonical.url :: seen), if_pos (by simpa using hseen),
            List.filter_filter, Outcome.ok_bind]
          refine congrArg (fun rest => Outcome.ok (e.canonical :: rest)) (List.filter_congr fun b _ => ?_)
          simp [Bool.and_comm]
      · have hpassing : passing (e :: es) = passing es := by
          simp [passing, hp]
        rw [if_neg hp, hpassing]
        exact filterEndpoints_eq h es seen

/-- **The filter.**
Source: `config.rs` `validate_and_dedupe_endpoints` -/
theorem validateAndDedupeEndpoints_eq (h : LowercasesByChar lower) (es : List EndpointConfig) :
    validateAndDedupeEndpoints lower es =
      if passing es = [] then .err (.configError "No valid endpoints configured")
      else .ok (KeyedList.firsts EndpointConfig.url (passing es)) := by
  unfold validateAndDedupeEndpoints
  rw [filterEndpoints_eq h es [], Outcome.ok_bind]
  have hall : ((KeyedList.firsts EndpointConfig.url (passing es)).filter fun e => e.url ∉ []) =
      KeyedList.firsts EndpointConfig.url (passing es) := by
    simp
  rw [hall]
  by_cases hnil : passing es = []
  · rw [if_pos hnil, if_pos (by rw [hnil]; rfl)]
  · rw [if_neg hnil, if_neg (by simpa [KeyedList.firsts_eq_nil] using hnil)]
    rfl

/-- Nothing is left exactly if nothing passes. -/
theorem passing_eq_nil_iff {es : List EndpointConfig} : passing es = [] ↔ ∀ e ∈ es, ¬ e.Passes := by
  simp [passing]

/-- **The filter keeps exactly the first passing entry of each canonical URL.** It never panics; it fails
exactly if no entry passes; otherwise what it returns are, in order, the earliest of the passing entries
with each canonical URL, with their own rates, bursts and weights.
Source: `config.rs` `validate_and_dedupe_endpoints` -/
theorem dedup_keeps_first (h : LowercasesByChar lower) (es : List EndpointConfig) :
    validateAndDedupeEndpoints lower es ≠ .panic ∧
    ((∃ err, validateAndDedupeEndpoints lower es = .err err) ↔ ∀ e ∈ es, ¬ e.Passes) ∧
    ∀ kept, validateAndDedupeEndpoints lower es = .ok kept →
      kept = KeyedList.firsts EndpointConfig.url (passing es) ∧
      kept.Sublist (passing es) ∧ (kept.map EndpointConfig.url).Nodup ∧
      ∀ url, KeyedList.lookup EndpointConfig.url url kept =
        KeyedList.lookup EndpointConfig.url url (passing es) := by
  rw [validateAndDedupeEndpoints_eq h, ← passing_eq_nil_iff]
  by_cases hnil : passing es = []
  · rw [if_pos hnil]
    exact ⟨(by simp), by simp [hnil], fun _ hk => by cases hk⟩
  · rw [if_neg hnil]
    refine ⟨(by simp), by simp [hnil], fun kept hk => ?_⟩
    cases hk
    exact ⟨rfl, KeyedList.firsts_sublist _, KeyedList.nodup_firsts _,
      fun url => KeyedList.lookup_firsts url _⟩

/-- The witness of `dedup_keeps_first`: of two spellings of a URL, the first is kept. -/
theorem dedup_keeps_first_sample :
    validateAndDedupeEndpoints (fun s => s.map Char.toLower)
      [⟨"HTTP://a/", 0, 5, none⟩, ⟨" HTTP://a/ ", 7, 5, none⟩, ⟨"http://a", 9, 5, some 2⟩] =
        .ok [⟨"http://a", 7, 5, none⟩] ∧
    ∀ kept, validateAndDedupeEndpoints (fun s => s.map Char.toLower)
        [⟨"HTTP://a/", 0, 5, none⟩, ⟨" HTTP://a/ ", 7, 5, none⟩, ⟨"http://a", 9, 5, some 2⟩] = .ok kept →
      (kept.map EndpointConfig.url).Nodup :=
  ⟨by decide, fun kept hk =>
    ((dedup_keeps_first lowercasesByChar_ascii
      [⟨"HTTP://a/", 0, 5, none⟩, ⟨" HTTP://a/ ", 7, 5, none⟩, ⟨"http://a", 9, 5, some 2⟩]).2.2
        kept hk).2.2.1⟩

/-! ## A second run -/

namespace EndpointConfig

/-- The URL of an entry in canonical form. -/
@[simp] theorem toList_canonical_url (e : EndpointConfig) :
    e.canonical.url.toList = canonicalForm e.trimmed := String.toList_ofList

/-- **An entry that passes has a canonical URL in the end, unless its URL is bare.** -/
theorem Passes.canonicalUrl_iff {e : EndpointConfig} (h : e.Passes) :
    CanonicalUrl e.canonical.url.toList ↔ ¬ BareUrl e.trimmed := by
  rw [toList_canonical_url]
  constructor
  · intro hc hbare
    exact not_canonicalUrl_of_bare hbare hc
  · intro hbare
    obtain ⟨scheme, hs⟩ := h.exists_scheme
    exact canonicalUrl_form hs hbare h.clean h.length

/-- The entry has a canonical URL, and its rate and burst are in range. -/
structure Canonical (e : EndpointConfig) : Prop where
  url : CanonicalUrl e.url.toList
  rate : 1 ≤ e.rateLimitPerSec ∧ e.rateLimitPerSec ≤ maxRateLimit
  burst : 1 ≤ e.burstSize ∧ e.burstSize ≤ maxBurstSize

/-- The rewriting leaves the bounds of an entry. -/
@[simp] theorem canonical_bounds (e : EndpointConfig) :
    e.canonical.rateLimitPerSec = e.rateLimitPerSec ∧ e.canonical.burstSize = e.burstSize := by
  unfold canonical
  exact ⟨rfl, rfl⟩

/-- An entry with a canonical URL is not trimmed. -/
theorem Canonical.trimmed_eq {e : EndpointConfig} (h : e.Canonical) : e.trimmed = e.url.toList :=
  h.url.trim_eq

/-- An entry with a canonical URL passes. -/
theorem Canonical.passes {e : EndpointConfig} (h : e.Canonical) : e.Passes := by
  obtain ⟨scheme, rest, hscheme, hrest, heq⟩ := h.url.scheme
  refine ⟨?_, ?_, ?_, ?_, h.rate, h.burst⟩
  · rw [h.trimmed_eq, heq]
    exact List.append_ne_nil_of_right_ne_nil _ hrest
  · have hpre : ∀ s, s = httpScheme ∨ s = httpsScheme → s <+: (s ++ rest).map Char.toLower := by
      rintro s (rfl | rfl)
      · exact ⟨rest.map Char.toLower, rfl⟩
      · exact ⟨rest.map Char.toLower, rfl⟩
    rw [h.trimmed_eq, heq]
    rcases hscheme with rfl | rfl
    · exact .inl (hpre _ (.inl rfl))
    · exact .inr (hpre _ (.inr rfl))
  · rw [h.trimmed_eq]
    exact h.url.length
  · rw [h.trimmed_eq]
    exact h.url.clean

/-- It is rewritten to itself. -/
theorem Canonical.canonical_eq {e : EndpointConfig} (h : e.Canonical) : e.canonical = e := by
  have hurl : String.ofList (canonicalForm e.trimmed) = e.url := by
    rw [h.trimmed_eq, h.url.form_eq, String.ofList_toList]
  unfold EndpointConfig.canonical
  rw [hurl]

end EndpointConfig

section second

variable {es kept : List EndpointConfig}

/-- Entries with canonical URLs all pass and are rewritten to themselves. -/
theorem passing_of_canonical (h : ∀ e ∈ es, e.Canonical) : passing es = es := by
  have hfilter : (es.filter fun e => e.Passes) = es := by
    rw [List.filter_eq_self]
    intro e he
    exact decide_eq_true (h e he).passes
  unfold passing
  rw [hfilter]
  conv_rhs => rw [← List.map_id es]
  apply List.map_congr_left
  intro e he
  exact (h e he).canonical_eq

/-- **The filter leaves a list of distinct canonical URLs as it is.** -/
theorem validate_of_canonical (h : LowercasesByChar lower) (hcanonical : ∀ e ∈ es, e.Canonical)
    (hnodup : (es.map EndpointConfig.url).Nodup) (hne : es ≠ []) :
    validateAndDedupeEndpoints lower es = .ok es := by
  rw [validateAndDedupeEndpoints_eq h, passing_of_canonical hcanonical, if_neg hne,
    KeyedList.firsts_of_nodup hnodup]

/-- What the filter answers if it succeeds. -/
theorem validate_ok_iff (h : LowercasesByChar lower) :
    validateAndDedupeEndpoints lower es = .ok kept ↔
      passing es ≠ [] ∧ kept = KeyedList.firsts EndpointConfig.url (passing es) := by
  rw [validateAndDedupeEndpoints_eq h]
  by_cases hnil : passing es = []
  · simp [hnil]
  · simp [hnil, eq_comm]

/-- What is kept is what an entry that passes is rewritten to. -/
theorem exists_of_mem_firsts {e : EndpointConfig}
    (he : e ∈ KeyedList.firsts EndpointConfig.url (passing es)) :
    ∃ e₀ ∈ es, e₀.Passes ∧ e = e₀.canonical := by
  have hmem := (KeyedList.firsts_sublist _).subset he
  obtain ⟨e₀, h₀, rfl⟩ := List.mem_map.mp hmem
  obtain ⟨hin, hp⟩ := List.mem_filter.mp h₀
  exact ⟨e₀, hin, of_decide_eq_true hp, rfl⟩

/-- **All URLs kept are canonical exactly if no entry that passes has a bare URL.**
Source: `config.rs` `validate_and_dedupe_endpoints` -/
theorem kept_canonical_iff (h : LowercasesByChar lower)
    (hk : validateAndDedupeEndpoints lower es = .ok kept) :
    (∀ e ∈ kept, CanonicalUrl e.url.toList) ↔ ∀ e ∈ es, e.Passes → ¬ BareUrl e.trimmed := by
  obtain ⟨-, rfl⟩ := (validate_ok_iff h).mp hk
  constructor
  · intro hall e he hp
    rw [← hp.canonicalUrl_iff]
    have hin : e.canonical ∈ passing es :=
      List.mem_map_of_mem (List.mem_filter.mpr ⟨he, decide_eq_true hp⟩)
    have hurl : e.canonical.url ∈ (passing es).map EndpointConfig.url := List.mem_map_of_mem hin
    obtain ⟨e', he'⟩ := KeyedList.exists_lookup hurl
    rw [← KeyedList.lookup_firsts] at he'
    rw [← KeyedList.key_of_lookup he']
    exact hall e' (KeyedList.mem_of_lookup he')
  · intro hall e he
    obtain ⟨e₀, h₀, hp, rfl⟩ := exists_of_mem_firsts he
    exact hp.canonicalUrl_iff.mpr (hall e₀ h₀ hp)

/-- An entry that was kept is in range. -/
theorem canonical_of_kept (h : LowercasesByChar lower)
    (hk : validateAndDedupeEndpoints lower es = .ok kept)
    (hbare : ∀ e ∈ es, e.Passes → ¬ BareUrl e.trimmed) : ∀ e ∈ kept, e.Canonical := by
  intro e he
  have hurl := (kept_canonical_iff h hk).mpr hbare e he
  obtain ⟨-, rfl⟩ := (validate_ok_iff h).mp hk
  obtain ⟨e₀, -, hp, rfl⟩ := exists_of_mem_firsts he
  exact ⟨hurl, by simpa using hp.rate, by simpa using hp.burst⟩

/-- What was kept is not empty. -/
theorem kept_ne_nil (h : LowercasesByChar lower)
    (hk : validateAndDedupeEndpoints lower es = .ok kept) : kept ≠ [] := by
  obtain ⟨hne, rfl⟩ := (validate_ok_iff h).mp hk
  exact fun hnil => hne (KeyedList.firsts_eq_nil.mp hnil)

end second

/-- What is left of a bare URL does not pass again, and any other URL kept is not bare. -/
theorem not_bare_of_kept {e₀ : EndpointConfig} (h₀ : e₀.Passes)
    (hp : (constrainEndpoint e₀.canonical).Passes) : ¬ BareUrl (constrainEndpoint e₀.canonical).trimmed := by
  have htrimmed : (constrainEndpoint e₀.canonical).trimmed = trim (canonicalForm e₀.trimmed) := by
    unfold EndpointConfig.trimmed
    rw [constrainEndpoint_url, EndpointConfig.toList_canonical_url]
    rfl
  by_cases hbare : BareUrl e₀.trimmed
  · exfalso
    have hscheme := hp.scheme
    rw [htrimmed] at hscheme
    rcases canonicalForm_of_bare hbare with hform | hform
    · rw [hform] at hscheme
      revert hscheme
      decide
    · rw [hform] at hscheme
      revert hscheme
      decide
  · have hcanonical := h₀.canonicalUrl_iff.mpr hbare
    rw [EndpointConfig.toList_canonical_url] at hcanonical
    rw [htrimmed, hcanonical.trim_eq]
    exact hcanonical.not_bare

/-! ## Finalizing again -/

section finalize

variable {raw c : Config}

/-- The last constraints on an entry do nothing the second time. -/
theorem constrainEndpoint_idem (e : EndpointConfig) :
    constrainEndpoint (constrainEndpoint e) = constrainEndpoint e := by
  simp [constrainEndpoint]

/-- The last constraints leave a canonical entry canonical. -/
theorem EndpointConfig.Canonical.constrainEndpoint {e : EndpointConfig} (h : e.Canonical) :
    (AzothBalancer.constrainEndpoint e).Canonical where
  url := h.url
  rate := ⟨le_max_right _ _, max_le h.rate.2 (by decide)⟩
  burst := ⟨le_max_right _ _, max_le h.burst.2 (by decide)⟩

/-- A clamped value is not clamped further. -/
theorem F64.clamp_idem (x : F64) :
    (x.clamp (.finite 0) (.finite 1)).clamp (.finite 0) (.finite 1) =
      x.clamp (.finite 0) (.finite 1) := by
  cases x with
  | nan => rfl
  | negInf => decide
  | posInf => decide
  | finite q =>
      by_cases hlo : q < 0
      · have hclamp : (F64.finite q).clamp (.finite 0) (.finite 1) = .finite 0 := by
          have hone : ¬ (1 : ℚ) < 0 := by norm_num
          simp [F64.clamp, F64.lt, hlo, hone]
        rw [hclamp]
        decide
      · by_cases hhi : 1 < q
        · have hclamp : (F64.finite q).clamp (.finite 0) (.finite 1) = .finite 1 := by
            simp [F64.clamp, F64.lt, hlo, hhi]
          rw [hclamp]
          decide
        · have hclamp : (F64.finite q).clamp (.finite 0) (.finite 1) = .finite q := by
            simp [F64.clamp, F64.lt, hlo, hhi]
          rw [hclamp, hclamp]

/-- Defaults are applied and values clamped once: with endpoints that come to the same, a second
application changes nothing.
Source: `config.rs` `Config::finalize` -/
theorem withDefaults_idem (b : BalancerConfig) (es es' : List EndpointConfig) :
    (b.withDefaults es).withDefaults es' = b.withDefaults es ↔
      es'.map constrainEndpoint = es.map constrainEndpoint := by
  simp only [BalancerConfig.withDefaults, or_some_eq, Option.getD_some, F64.clamp_idem,
    max_eq_left (le_max_right _ _), BalancerConfig.mk.injEq, Option.some.injEq, true_and, and_true]

/-- The server table likewise. -/
theorem ServerConfig.withDefaults_idem (s : ServerConfig) : s.withDefaults.withDefaults = s.withDefaults := by
  simp [ServerConfig.withDefaults]

/-- **A finalized configuration is finalized to itself** exactly if what the filter makes of its
endpoints comes to the same endpoints.
Source: `config.rs` `Config::finalize` -/
theorem finalize_finalized_iff (h : raw.finalize lower = .ok c) : ∃ kept,
    validateAndDedupeEndpoints lower (raw.table.endpoints.getD getDefaultEndpoints) = .ok kept ∧
    (c.finalize lower = .ok c ↔
      ∃ es', validateAndDedupeEndpoints lower (kept.map constrainEndpoint) = .ok es' ∧
        es'.map constrainEndpoint = kept.map constrainEndpoint) := by
  unfold Config.finalize at h
  rw [Outcome.bind_eq_ok_iff] at h
  obtain ⟨kept, hk, h⟩ := h
  cases h
  refine ⟨kept, hk, ?_⟩
  unfold Config.finalize
  rw [Outcome.bind_eq_ok_iff]
  constructor
  · rintro ⟨es', hes', heq⟩
    injection heq with heq
    rw [Config.mk.injEq] at heq
    exact ⟨es', hes', (withDefaults_idem _ kept es').mp (Option.some.inj heq.2)⟩
  · rintro ⟨es', hes', heq⟩
    refine ⟨es', hes', ?_⟩
    show Outcome.ok _ = Outcome.ok _
    rw [Option.getD_some, Option.getD_some, ServerConfig.withDefaults_idem,
      (withDefaults_idem _ kept es').mpr heq]

end finalize

/-- **The URLs kept are canonical, and a second run changes nothing, exactly if no entry that passes has
a bare URL**, that is, a scheme and nothing but slashes after it. For finalization likewise: a finalized
configuration is finalized to itself exactly under that condition on the endpoints it was made from.
Source: `config.rs` `validate_and_dedupe_endpoints`, `Config::finalize` -/
theorem canonical_urls_iff (h : LowercasesByChar lower) :
    (∀ es kept, validateAndDedupeEndpoints lower es = .ok kept →
      ((∀ e ∈ kept, CanonicalUrl e.url.toList) ∧ validateAndDedupeEndpoints lower kept = .ok kept ↔
        ∀ e ∈ es, e.Passes → ¬ BareUrl e.trimmed)) ∧
    ∀ raw c : Config, raw.finalize lower = .ok c →
      (c.finalize lower = .ok c ↔
        ∀ e ∈ raw.table.endpoints.getD getDefaultEndpoints, e.Passes → ¬ BareUrl e.trimmed) := by
  constructor
  · intro es kept hk
    rw [← kept_canonical_iff h hk]
    refine and_iff_left_of_imp fun hall => ?_
    exact validate_of_canonical h (canonical_of_kept h hk ((kept_canonical_iff h hk).mp hall))
      (validateAndDedupeEndpoints_nodup hk) (kept_ne_nil h hk)
  · intro raw c hc
    obtain ⟨kept, hk, hiff⟩ := finalize_finalized_iff hc
    rw [hiff]
    have hnodup : ((kept.map constrainEndpoint).map EndpointConfig.url).Nodup := by
      rw [List.map_map]
      exact validateAndDedupeEndpoints_nodup hk
    constructor
    · rintro ⟨es', hes', heq⟩
      -- what the second run keeps cannot be the rest of a bare URL, and it has the same URLs
      rw [← kept_canonical_iff h hk]
      have hsecond : ∀ e ∈ es', CanonicalUrl e.url.toList := by
        rw [kept_canonical_iff h hes']
        intro e he hp
        obtain ⟨e₁, h₁, rfl⟩ := List.mem_map.mp he
        obtain ⟨-, rfl⟩ := (validate_ok_iff h).mp hk
        obtain ⟨e₀, -, hp₀, rfl⟩ := exists_of_mem_firsts h₁
        exact not_bare_of_kept hp₀ hp
      intro e he
      have hin : constrainEndpoint e ∈ es'.map constrainEndpoint := heq ▸ List.mem_map_of_mem he
      obtain ⟨e', he', hsame⟩ := List.mem_map.mp hin
      rw [← constrainEndpoint_url e, ← hsame, constrainEndpoint_url]
      exact hsecond e' he'
    · intro hbare
      have hcanonical : ∀ e ∈ kept.map constrainEndpoint, e.Canonical := by
        intro e he
        obtain ⟨e₁, h₁, rfl⟩ := List.mem_map.mp he
        exact (canonical_of_kept h hk hbare e₁ h₁).constrainEndpoint
      refine ⟨_, validate_of_canonical h hcanonical hnodup ?_, ?_⟩
      · simpa using kept_ne_nil h hk
      · rw [List.map_map]
        exact List.map_congr_left fun e _ => constrainEndpoint_idem e

/-- The witness of `canonical_urls_iff`: a URL with a path is kept for good, its slashes dropped. -/
theorem canonical_urls_iff_sample :
    validateAndDedupeEndpoints (fun s => s.map Char.toLower) [⟨"HTTPS://a/b//", 7, 5, none⟩] =
        .ok [⟨"https://a/b", 7, 5, none⟩] ∧
    CanonicalUrl "https://a/b".toList ∧
    validateAndDedupeEndpoints (fun s => s.map Char.toLower) [⟨"https://a/b", 7, 5, none⟩] =
        .ok [⟨"https://a/b", 7, 5, none⟩] := by
  have hk : validateAndDedupeEndpoints (fun s => s.map Char.toLower) [⟨"HTTPS://a/b//", 7, 5, none⟩] =
      .ok [⟨"https://a/b", 7, 5, none⟩] := by
    decide
  have hbare : ∀ e ∈ [EndpointConfig.mk "HTTPS://a/b//" 7 5 none], e.Passes → ¬ BareUrl e.trimmed := by
    decide
  obtain ⟨hurl, hagain⟩ := ((canonical_urls_iff lowercasesByChar_ascii).1 _ _ hk).mpr hbare
  exact ⟨hk, hurl _ (List.mem_singleton.mpr rfl), hagain⟩

/-- **A bare URL is kept without the slashes of its scheme**, and what is left no longer passes: a second
run fails. -/
theorem bare_url_kept :
    validateAndDedupeEndpoints (fun s => s.map Char.toLower) [⟨"http://", 10, 5, some 1⟩] =
        .ok [⟨"http:", 10, 5, some 1⟩] ∧
    ¬ CanonicalUrl "http:".toList ∧
    validateAndDedupeEndpoints (fun s => s.map Char.toLower) [⟨"http:", 10, 5, some 1⟩] =
        .err (.configError "No valid endpoints configured") := by
  refine ⟨by decide, ?_, by decide⟩
  have hbare : BareUrl "http://".toList := by
    decide
  exact not_canonicalUrl_of_bare hbare

end AzothBalancer
