import AzothBalancer.Config

/-!
# Canonical URLs

The filter tests the scheme of a URL on its lower-case form, over full Unicode, and then rewrites bytes.
`LowercasesByChar` is what is relied on of the lower-casing: characters are replaced one by one, and
those of the schemes arise from their ASCII forms only. Under it the tests and the rewriting are about
ASCII (`isPrefixOf_lower`), and the rewriting never cuts a character (`canonicalizeUrl_eq`).

`CanonicalUrl` says what a canonical URL is. The canonical form of a URL is one (`canonicalUrl_form`)
unless there is nothing but slashes after the scheme (`BareUrl`): the slashes are dropped from the end
without regard to the scheme's own (`canonicalForm_of_bare`). A canonical URL is its own canonical form
(`CanonicalUrl.form_eq`).
-/

namespace AzothBalancer

/-! ## Lower-casing -/

/-- What lower-casing makes of a character. -/
structure LowersTo (c : Char) (t : List Char) : Prop where
  nonempty : t ≠ []
  ascii : c.toNat < 128 → t = [c.toLower]
  scheme : ∀ d ∈ t, d ∈ httpsScheme → c.toLower = d

/-- What is relied on of `str::to_lowercase`: it replaces every character by a text of its own. The text
may depend on the place of the character, as that of a final sigma does. -/
def LowercasesByChar (toLowercase : List Char → List Char) : Prop :=
  ∀ s, ∃ parts, List.Forall₂ LowersTo s parts ∧ toLowercase s = parts.flatten

/-- A character whose lower-case form is ASCII is ASCII. -/
theorem toNat_lt_of_toLower {c : Char} (h : c.toLower.toNat < 128) : c.toNat < 128 := by
  unfold Char.toLower at h
  split at h
  · rename_i hupper
    exact lt_of_le_of_lt (UInt32.le_iff_toNat_le.mp hupper.2) (by decide)
  · exact h

/-- The characters of the schemes are ASCII. -/
theorem toNat_lt_of_mem_scheme {d : Char} (h : d ∈ httpsScheme) : d.toNat < 128 := by
  have hall : httpsScheme.all (fun d => d.toNat < 128) = true := by decide
  simpa using List.all_eq_true.mp hall d h

section lower

variable {toLowercase : List Char → List Char} {scheme : List Char}

/-- **A scheme is found in the lower-case form as it is in ASCII.** The characters before the place where
the comparison stops are ASCII, so they keep their places. -/
theorem isPrefixOf_flatten (hscheme : ∀ d ∈ scheme, d ∈ httpsScheme) {s : List Char}
    {parts : List (List Char)} (h : List.Forall₂ LowersTo s parts) :
    scheme.isPrefixOf parts.flatten = scheme.isPrefixOf (s.map Char.toLower) := by
  induction scheme generalizing s parts with
  | nil => simp
  | cons d scheme ih =>
      obtain ⟨hd, hrest⟩ := List.forall_mem_cons.mp hscheme
      cases h with
      | nil => rfl
      | @cons c t s parts hc htail =>
          rw [List.map_cons, List.isPrefixOf_cons_cons, ← ih hrest htail]
          by_cases hlower : d = c.toLower
          · have hascii : c.toNat < 128 := by
              apply toNat_lt_of_toLower
              rw [← hlower]
              exact toNat_lt_of_mem_scheme hd
            rw [hc.ascii hascii, List.flatten_cons, List.singleton_append, List.isPrefixOf_cons_cons]
          · obtain ⟨x, t, rfl⟩ := List.exists_cons_of_ne_nil hc.nonempty
            have hx : d ≠ x := by
              rintro rfl
              exact hlower (hc.scheme d List.mem_cons_self hd).symm
            rw [List.flatten_cons, List.cons_append, List.isPrefixOf_cons_cons,
              beq_eq_false_iff_ne.mpr hx, beq_eq_false_iff_ne.mpr hlower, Bool.false_and, Bool.false_and]

/-- The test of the scheme, in ASCII.
Source: `config.rs` `validate_and_dedupe_endpoints` -/
theorem isPrefixOf_lower (h : LowercasesByChar toLowercase)
    (hscheme : ∀ d ∈ scheme, d ∈ httpsScheme) (url : List Char) :
    scheme.isPrefixOf (toLowercase url) = scheme.isPrefixOf (url.map Char.toLower) := by
  obtain ⟨parts, hparts, heq⟩ := h url
  rw [heq]
  exact isPrefixOf_flatten hscheme hparts

end lower

/-! ## The canonical form -/

/-- The scheme of a URL, in any case. -/
def schemeOf (url : List Char) : Option (List Char) :=
  [httpScheme, httpsScheme].find? fun scheme => scheme.isPrefixOf (url.map Char.toLower)

/-- The scheme in lower case, and no slash at the end. -/
def canonicalForm (url : List Char) : List Char :=
  match schemeOf url with
  | some scheme => (scheme ++ url.drop scheme.length).rdropWhile (· == '/')
  | none => url.rdropWhile (· == '/')

/-- After the scheme, there are only slashes. -/
def BareUrl (url : List Char) : Prop :=
  ∃ scheme ∈ schemeOf url, ∀ c ∈ url.drop scheme.length, c = '/'

instance (url : List Char) : Decidable (BareUrl url) :=
  match h : schemeOf url with
  | none => isFalse fun ⟨_, hs, _⟩ => by simp [h] at hs
  | some scheme =>
      decidable_of_iff ((url.drop scheme.length).all (· == '/') = true)
        ⟨fun hall => ⟨scheme, h, by simpa using hall⟩, fun ⟨scheme', hs, hall⟩ => by
          rw [h] at hs
          cases hs
          simpa using hall⟩

section schemes

variable {scheme url : List Char}

/-- A character before the end of the scheme is one byte long. -/
theorem dropBytes_scheme (hscheme : ∀ d ∈ scheme, d ∈ httpsScheme)
    (h : scheme.isPrefixOf (url.map Char.toLower) = true) :
    dropBytes scheme.length url = some (url.drop scheme.length) := by
  induction scheme generalizing url with
  | nil => simp [dropBytes]
  | cons d scheme ih =>
      obtain ⟨hd, hrest⟩ := List.forall_mem_cons.mp hscheme
      cases url with
      | nil => cases h
      | cons c url =>
          rw [List.map_cons, List.isPrefixOf_cons_cons, Bool.and_eq_true, beq_iff_eq] at h
          obtain ⟨hc, htail⟩ := h
          have hascii : c.toNat < 128 := by
            apply toNat_lt_of_toLower
            rw [← hc]
            exact toNat_lt_of_mem_scheme hd
          have hsize : c.utf8Size = 1 := by
            unfold Char.utf8Size
            rw [if_pos]
            exact UInt32.le_iff_toNat_le.mpr (Nat.le_of_lt_succ hascii)
          rw [List.length_cons, dropBytes, hsize, if_pos (Nat.le_add_left 1 _), List.drop_succ_cons]
          exact ih hrest htail

/-- A scheme found is one of the two, and it is the beginning of the URL. -/
theorem schemeOf_spec (h : schemeOf url = some scheme) :
    (scheme = httpScheme ∨ scheme = httpsScheme) ∧
      scheme.isPrefixOf (url.map Char.toLower) = true := by
  refine ⟨?_, by simpa using List.find?_some h⟩
  have hmem := List.mem_of_find?_eq_some h
  simpa using hmem

/-- The characters of both schemes. -/
theorem mem_httpsScheme_of_mem (h : scheme = httpScheme ∨ scheme = httpsScheme) :
    ∀ d ∈ scheme, d ∈ httpsScheme := by
  rcases h with rfl | rfl
  · have hall : httpScheme.all (fun d => d ∈ httpsScheme) = true := by decide
    simpa using hall
  · exact fun d hd => hd

end schemes

/-- **The rewriting of a URL never panics** and gives its canonical form.
Source: `config.rs` `validate_and_dedupe_endpoints`, the canonicalization -/
theorem canonicalizeUrl_eq {toLowercase : List Char → List Char} (h : LowercasesByChar toLowercase)
    (url : List Char) : canonicalizeUrl toLowercase url = some (canonicalForm url) := by
  have hreplace : ∀ scheme, scheme = httpScheme ∨ scheme = httpsScheme →
      scheme.isPrefixOf (url.map Char.toLower) = true →
      replacePrefix scheme.length scheme url = some (scheme ++ url.drop scheme.length) := by
    intro scheme hscheme hpre
    unfold replacePrefix
    rw [dropBytes_scheme (mem_httpsScheme_of_mem hscheme) hpre]
    rfl
  unfold canonicalizeUrl canonicalForm schemeOf
  rw [isPrefixOf_lower h (mem_httpsScheme_of_mem (.inl rfl)),
    isPrefixOf_lower h (mem_httpsScheme_of_mem (.inr rfl)), List.find?_cons, List.find?_cons]
  by_cases hhttp : httpScheme.isPrefixOf (url.map Char.toLower) = true
  · have hrep := hreplace httpScheme (.inl rfl) hhttp
    change replacePrefix 7 httpScheme url = _ at hrep
    simp [hhttp, hrep]
  · by_cases hhttps : httpsScheme.isPrefixOf (url.map Char.toLower) = true
    · have hrep := hreplace httpsScheme (.inr rfl) hhttps
      change replacePrefix 8 httpsScheme url = _ at hrep
      simp [hhttp, hhttps, hrep]
    · simp [hhttp, hhttps]

/-! ## Canonical URLs -/

/-- A canonical URL: a scheme in lower case and something after it, no slash at the end, no white space
or control character, and no more bytes than the filter allows. -/
structure CanonicalUrl (url : List Char) : Prop where
  scheme : ∃ scheme rest, (scheme = httpScheme ∨ scheme = httpsScheme) ∧ rest ≠ [] ∧
    url = scheme ++ rest
  noSlash : url.getLast? ≠ some '/'
  clean : ∀ c ∈ url, isControl c = false ∧ isWhitespace c = false
  length : byteLen url ≤ maxUrlLen

section trailing

variable {α : Type} {p : α → Bool} {s r : List α}

/-- What is left at the end shields what comes before it. -/
theorem rdropWhile_append_of_ne_nil (h : r.rdropWhile p ≠ []) :
    (s ++ r).rdropWhile p = s ++ r.rdropWhile p := by
  have hr : r.reverse.dropWhile p ≠ [] := fun h' => h (by rw [List.rdropWhile, h', List.reverse_nil])
  unfold List.rdropWhile
  rw [List.reverse_append, List.dropWhile_append, if_neg (by simpa using hr), List.reverse_append,
    List.reverse_reverse]

/-- Where nothing is left at the end, what comes before it is exposed. -/
theorem rdropWhile_append_of_all (h : ∀ a ∈ r, p a = true) : (s ++ r).rdropWhile p = s.rdropWhile p := by
  have hr : r.reverse.dropWhile p = [] := by simpa using h
  unfold List.rdropWhile
  rw [List.reverse_append, List.dropWhile_append, hr]
  rfl

/-- What is left does not end in what is dropped. -/
theorem getLast?_rdropWhile {a : α} (h : p a = true) : (s.rdropWhile p).getLast? ≠ some a := by
  intro hlast
  by_cases hne : s.rdropWhile p = []
  · rw [hne] at hlast
    cases hlast
  · rw [List.getLast?_eq_some_getLast hne, Option.some.injEq] at hlast
    apply List.rdropWhile_last_not p s hne
    rw [hlast]
    exact h

end trailing

section form

variable {scheme url : List Char}

/-- The canonical form has no slash at the end. -/
theorem canonicalForm_noSlash (url : List Char) : (canonicalForm url).getLast? ≠ some '/' := by
  unfold canonicalForm
  split <;> exact getLast?_rdropWhile rfl

/-- A scheme is as long as it has characters. -/
theorem length_le_byteLen (s : List Char) : s.length ≤ byteLen s := by
  unfold byteLen
  induction s with
  | nil => exact le_rfl
  | cons c s ih =>
      have hc := Char.utf8Size_pos c
      rw [List.map_cons, List.sum_cons, List.length_cons]
      omega

/-- **The canonical form of a URL with more than slashes after its scheme.** -/
theorem canonicalForm_of_not_bare (hs : schemeOf url = some scheme) (hbare : ¬ BareUrl url) :
    (url.drop scheme.length).rdropWhile (· == '/') ≠ [] ∧
      canonicalForm url = scheme ++ (url.drop scheme.length).rdropWhile (· == '/') := by
  have hne : (url.drop scheme.length).rdropWhile (· == '/') ≠ [] := by
    intro hnil
    rw [List.rdropWhile_eq_nil_iff] at hnil
    exact hbare ⟨scheme, hs, fun c hc => by simpa using hnil c hc⟩
  refine ⟨hne, ?_⟩
  unfold canonicalForm
  rw [hs]
  exact rdropWhile_append_of_ne_nil hne

/-- **The canonical form of a bare URL** loses the slashes of the scheme.
Source: `config.rs` `validate_and_dedupe_endpoints`, the canonicalization -/
theorem canonicalForm_of_bare (h : BareUrl url) :
    canonicalForm url = "http:".toList ∨ canonicalForm url = "https:".toList := by
  obtain ⟨scheme, hs, hall⟩ := h
  have hform : canonicalForm url = scheme.rdropWhile (· == '/') := by
    unfold canonicalForm
    rw [Option.mem_def.mp hs]
    exact rdropWhile_append_of_all fun c hc => by simpa using hall c hc
  rw [hform]
  rcases (schemeOf_spec hs).1 with rfl | rfl
  · exact .inl (by decide)
  · exact .inr (by decide)

/-- The canonical form of a bare URL is not canonical. -/
theorem not_canonicalUrl_of_bare (h : BareUrl url) : ¬ CanonicalUrl (canonicalForm url) := by
  intro hc
  obtain ⟨scheme, rest, hscheme, -, heq⟩ := hc.scheme
  have hpre : scheme <+: canonicalForm url := ⟨rest, heq.symm⟩
  rcases canonicalForm_of_bare h with hform | hform <;> rw [hform] at hpre <;>
    rcases hscheme with rfl | rfl <;> revert hpre <;> decide

/-- **The canonical form of any other URL that passes the filter is canonical.**
Source: `config.rs` `validate_and_dedupe_endpoints`, the canonicalization -/
theorem canonicalUrl_form (hs : schemeOf url = some scheme) (hbare : ¬ BareUrl url)
    (hclean : ∀ c ∈ url, isControl c = false ∧ isWhitespace c = false)
    (hlen : byteLen url ≤ maxUrlLen) : CanonicalUrl (canonicalForm url) := by
  obtain ⟨hscheme, hpre⟩ := schemeOf_spec hs
  obtain ⟨hne, hform⟩ := canonicalForm_of_not_bare hs hbare
  have hrest : (url.drop scheme.length).rdropWhile (· == '/') <+: url.drop scheme.length :=
    List.rdropWhile_prefix _ _
  refine ⟨⟨scheme, _, hscheme, hne, hform⟩, canonicalForm_noSlash url, ?_, ?_⟩
  · intro c hc
    rw [hform] at hc
    rcases List.mem_append.mp hc with hin | hin
    · have hall : httpsScheme.all (fun d => !isControl d && !isWhitespace d) = true := by decide
      simpa using List.all_eq_true.mp hall c (mem_httpsScheme_of_mem hscheme c hin)
    · exact hclean c (List.drop_subset _ _ (hrest.subset hin))
  · have hsize : byteLen scheme = scheme.length := by
      rcases hscheme with rfl | rfl
      · decide
      · decide
    have htake : scheme.length ≤ byteLen (url.take scheme.length) := by
      have hle : scheme.length ≤ url.length := by
        have hpref := (List.isPrefixOf_iff_prefix.mp hpre).length_le
        rwa [List.length_map] at hpref
      have htaken := length_le_byteLen (url.take scheme.length)
      rw [List.length_take, min_eq_left hle] at htaken
      exact htaken
    have hsum : ∀ a b : List Char, byteLen (a ++ b) = byteLen a + byteLen b := by
      intro a b
      simp [byteLen]
    obtain ⟨slashes, hslashes⟩ := hrest
    have hdrop := hsum ((url.drop scheme.length).rdropWhile (· == '/')) slashes
    have hurl := hsum (url.take scheme.length) (url.drop scheme.length)
    rw [hslashes] at hdrop
    rw [List.take_append_drop] at hurl
    rw [hform, hsum, hsize]
    omega

end form

namespace CanonicalUrl

variable {url : List Char}

/-- Nothing is trimmed from a canonical URL. -/
theorem trim_eq (h : CanonicalUrl url) : trim url = url := by
  have hblank : ∀ c ∈ url, isWhitespace c = false := fun c hc => (h.clean c hc).2
  have hleft : url.dropWhile isWhitespace = url := by
    cases url with
    | nil => rfl
    | cons c url => rw [List.dropWhile_cons, hblank c List.mem_cons_self, if_neg Bool.false_ne_true]
  unfold trim
  rw [hleft, List.rdropWhile_eq_self_iff]
  intro hne
  rw [hblank _ (List.getLast_mem hne)]
  exact Bool.false_ne_true

/-- The scheme of a canonical URL is found. -/
theorem schemeOf_eq (h : CanonicalUrl url) :
    ∃ scheme rest, schemeOf url = some scheme ∧ url = scheme ++ rest := by
  obtain ⟨scheme, rest, hscheme, -, rfl⟩ := h.scheme
  refine ⟨scheme, rest, ?_, rfl⟩
  unfold schemeOf
  rcases hscheme with rfl | rfl
  · rfl
  · rfl

/-- **A canonical URL is its own canonical form.** -/
theorem form_eq (h : CanonicalUrl url) : canonicalForm url = url := by
  obtain ⟨scheme, rest, hs, heq⟩ := h.schemeOf_eq
  have hdrop : scheme ++ url.drop scheme.length = url := by
    rw [heq, List.drop_left]
  unfold canonicalForm
  rw [hs]
  show (scheme ++ url.drop scheme.length).rdropWhile (· == '/') = url
  rw [hdrop, List.rdropWhile_eq_self_iff]
  intro hne hslash
  apply h.noSlash
  rw [List.getLast?_eq_some_getLast hne]
  exact congrArg some (by simpa using hslash)

/-- A canonical URL is not bare. -/
theorem not_bare (h : CanonicalUrl url) : ¬ BareUrl url := by
  intro hbare
  apply not_canonicalUrl_of_bare hbare
  rw [h.form_eq]
  exact h

end CanonicalUrl

end AzothBalancer
