import AzothBalancer.Lib.JsonText
import Mathlib.Data.List.Infix

/-!
# Searching a JSON text for a key

A key can be looked for without a parser: search the bytes for the name in quotes with a colon behind it,
and take what follows for its value. `afterFirst` is that search. It finds members at any depth, in the order
of the text, but only those whose key is written plainly and meets its colon (`isMarked`); and it is taken in
by a key that only ends like that, after an escaped quote.

* `reads_quoted` — the search in a literal.
* `Text.scans` — the search in a value finds its first marked member (`Text.firstMarked`) and nothing else,
  whatever follows; `Document.scans` is the search in a whole text.
* `Text.isPrefixOf_null` — the bytes from a value on open with `null` exactly if it is `null`.
-/

namespace JsonText

/-! ## The first occurrence of a pattern -/

/-- What follows the first occurrence of a pattern. -/
def afterFirst (pattern : List UInt8) : List UInt8 → Option (List UInt8)
  | [] => none
  | b :: bs =>
      if pattern.isPrefixOf (b :: bs) then some ((b :: bs).drop pattern.length) else afterFirst pattern bs

section pattern

variable {b c : UInt8} {pattern bs : List UInt8}

/-- A byte other than the first of the pattern is passed over. -/
theorem afterFirst_cons_of_ne (h : c ≠ b) :
    afterFirst (b :: pattern) (c :: bs) = afterFirst (b :: pattern) bs := by
  rw [afterFirst, if_neg]
  simp [List.isPrefixOf, Ne.symm h]

/-- So are all bytes up to the first. -/
theorem afterFirst_append_of_not_mem {xs : List UInt8} (h : b ∉ xs) :
    afterFirst (b :: pattern) (xs ++ bs) = afterFirst (b :: pattern) bs := by
  induction xs with
  | nil => rfl
  | cons c xs ih =>
      rw [List.mem_cons, not_or] at h
      rw [List.cons_append, afterFirst_cons_of_ne (Ne.symm h.1), ih h.2]

/-- Where the pattern is read, the search ends. -/
theorem afterFirst_pattern : afterFirst (b :: pattern) (b :: (pattern ++ bs)) = some bs := by
  rw [afterFirst, if_pos (by simp)]
  simp

/-- Where it is not, the search goes on. -/
theorem afterFirst_of_not_prefix (h : ¬ pattern <+: bs) :
    afterFirst (b :: pattern) (b :: bs) = afterFirst (b :: pattern) bs := by
  rw [afterFirst, if_neg]
  simpa using h

end pattern

/-! ## Keys -/

/-- A letter. -/
def isLetter (b : UInt8) : Bool := (0x41 ≤ b && b ≤ 0x5A) || (0x61 ≤ b && b ≤ 0x7A)

/-- A name: one or more letters. -/
abbrev Name := {name : List UInt8 // name ≠ [] ∧ name.all isLetter = true}

/-- A name has letters only. -/
theorem Name.isLetter_of_mem (name : Name) : ∀ b ∈ name.1, isLetter b = true :=
  List.all_eq_true.mp name.2.2

/-- The name in quotes. -/
def Name.literal (name : Name) : List UInt8 := quote :: (name.1 ++ [quote])

/-- The name in quotes with a colon behind it. -/
def Name.pattern (name : Name) : List UInt8 := quote :: (name.1 ++ [quote, colon])

/-- The key's literal ends in the name in quotes, and meets its colon. -/
def isMarked (name : Name) (key : List Piece) (afterKey : Blanks) : Bool :=
  name.literal.isSuffixOf (quoted key) && afterKey.1.isEmpty

/-- When a member is marked. -/
theorem isMarked_iff {name : Name} {key : List Piece} {afterKey : Blanks} :
    isMarked name key afterKey = true ↔ name.literal <:+ quoted key ∧ afterKey.1 = [] := by
  simp [isMarked]

mutual

/-- The value of the first marked member of a value, at any depth. -/
def Text.firstMarked (name : Name) : Text → Option Text
  | .array items => items.firstMarked name
  | .object members => members.firstMarked name
  | _ => none

/-- The value of the first marked member in elements. -/
def Items.firstMarked (name : Name) : Items → Option Text
  | .one _ t _ => t.firstMarked name
  | .more _ t _ rest => (t.firstMarked name).or (rest.firstMarked name)

/-- The value of the first marked member of members. -/
def Members.firstMarked (name : Name) : Members → Option Text
  | .one _ key afterKey _ t _ => if isMarked name key afterKey then some t else t.firstMarked name
  | .more _ key afterKey _ t _ rest =>
      (if isMarked name key afterKey then some t else t.firstMarked name).or (rest.firstMarked name)

end

/-! ## The search in a literal -/

section literal

variable {name : Name} {s : List Piece} {bs : List UInt8}

/-- A letter is no quote, no backslash and no colon. -/
theorem ne_of_isLetter {b : UInt8} (h : isLetter b = true) :
    b ≠ quote ∧ b ≠ backslash ∧ b ≠ colon := by
  refine ⟨?_, ?_, ?_⟩
  all_goals
    rintro rfl
    revert h
    decide

/-- A piece opens with a byte that is no quote. -/
theorem Piece.exists_bytes (p : Piece) : ∃ b bs, p.bytes = b :: bs ∧ b ≠ quote := by
  cases p with
  | plain b h => exact ⟨b, [], rfl, h.2.1⟩
  | escape b h => exact ⟨backslash, [b], rfl, by decide⟩
  | unicode ds h => exact ⟨backslash, 0x75 :: ds, rfl, by decide⟩

/-- Where the name, a quote and a colon are read from the start of a string's pieces, the pieces are the
name and the colon follows the literal. -/
theorem prefix_pieces_iff {ns : List UInt8} (hns : ∀ b ∈ ns, isLetter b) (s : List Piece) :
    ns ++ [quote, colon] <+: s.flatMap Piece.bytes ++ quote :: bs ↔
      s.flatMap Piece.bytes = ns ∧ bs.head? = some colon := by
  induction ns generalizing s with
  | nil =>
      cases s with
      | nil => cases bs <;> simp [eq_comm]
      | cons p s =>
          obtain ⟨b, bs', hp, hb⟩ := p.exists_bytes
          simp [hp, Ne.symm hb]
  | cons n ns ih =>
      obtain ⟨hquote, hbackslash, -⟩ := ne_of_isLetter (hns n List.mem_cons_self)
      have ih := ih (fun b hb => hns b (List.mem_cons_of_mem _ hb))
      cases s with
      | nil => simp [hquote]
      | cons p s =>
          cases p with
          | plain b h =>
              have ih := ih s
              rw [List.flatMap_cons]
              simp only [Piece.bytes, List.cons_append, List.nil_append, List.cons_prefix_cons, ih,
                List.cons.injEq]
              tauto
          | escape b h => simp [Piece.bytes, hbackslash, Ne.symm hbackslash]
          | unicode ds h => simp [Piece.bytes, hbackslash, Ne.symm hbackslash]

/-- The search reads `xs`, a literal or the end of one: it goes on at `bs`, unless `xs` ends in the name in
quotes and a colon follows. -/
def Reads (name : Name) (xs bs : List UInt8) : Prop :=
  afterFirst name.pattern (xs ++ bs) =
    if name.literal <:+ xs ∧ bs.head? = some colon then some bs.tail else afterFirst name.pattern bs

/-- Bytes that are no quotes are passed over. -/
theorem Reads.append {xs ys : List UInt8} (hys : quote ∉ ys) (h : Reads name xs bs) :
    Reads name (ys ++ xs) bs := by
  have hsuffix : name.literal <:+ ys ++ xs ↔ name.literal <:+ xs := by
    induction ys with
    | nil => exact Iff.rfl
    | cons b ys ih =>
        rw [List.mem_cons, not_or] at hys
        rw [List.cons_append, List.suffix_cons_iff, ih hys.2]
        exact or_iff_right fun heq => hys.1 (List.cons.inj heq).1
  unfold Reads at h ⊢
  simp only [hsuffix]
  rw [List.append_assoc, Name.pattern, afterFirst_append_of_not_mem hys]
  exact h

/-- A quote is where the name may begin. -/
theorem Reads.quote (h : Reads name (s.flatMap Piece.bytes ++ [quote]) bs) :
    Reads name (quote :: (s.flatMap Piece.bytes ++ [quote])) bs := by
  unfold Reads at h ⊢
  rw [List.append_assoc, List.singleton_append] at h
  rw [List.cons_append, List.append_assoc, List.singleton_append]
  by_cases hprefix : name.1 ++ [JsonText.quote, colon] <+: s.flatMap Piece.bytes ++ JsonText.quote :: bs
  · obtain ⟨hname, hcolon⟩ := (prefix_pieces_iff name.isLetter_of_mem s).mp hprefix
    obtain ⟨bs', rfl⟩ := List.head?_eq_some_iff.mp hcolon
    have hfound : afterFirst name.pattern (JsonText.quote :: (name.1 ++ [JsonText.quote, colon] ++ bs')) =
        some bs' := afterFirst_pattern
    rw [List.append_assoc] at hfound
    rw [hname, if_pos ⟨List.suffix_refl _, hcolon⟩]
    exact hfound
  · rw [Name.pattern, afterFirst_of_not_prefix hprefix, ← Name.pattern, h]
    rw [prefix_pieces_iff name.isLetter_of_mem] at hprefix
    congr 1
    rw [List.suffix_cons_iff, eq_iff_iff]
    refine and_congr_left fun hcolon => (or_iff_right fun heq => hprefix ⟨?_, hcolon⟩).symm
    exact (List.append_cancel_right (List.cons.inj heq).2).symm

/-- The closing quote: no letter follows it. -/
theorem reads_close (hbs : ∀ b ∈ bs.head?, isLetter b = false) : Reads name [quote] bs := by
  obtain ⟨n, ns, hns⟩ := List.exists_cons_of_ne_nil name.2.1
  have hprefix : ¬ name.1 ++ [quote, colon] <+: bs := by
    rintro ⟨t, rfl⟩
    have hn := hbs n (by simp [hns])
    rw [name.isLetter_of_mem n (by simp [hns])] at hn
    cases hn
  have hliteral : ¬ name.literal <:+ [quote] := by
    intro h
    have hlen := h.length_le
    simp [Name.literal, hns] at hlen
  unfold Reads
  rw [List.singleton_append, Name.pattern, afterFirst_of_not_prefix hprefix, if_neg fun h => hliteral h.1]

/-- The search in a string, from behind its opening quote on. -/
theorem reads_pieces (s : List Piece) (hbs : ∀ b ∈ bs.head?, isLetter b = false) :
    Reads name (s.flatMap Piece.bytes ++ [quote]) bs := by
  induction s with
  | nil => exact reads_close hbs
  | cons p s ih =>
      rw [List.flatMap_cons, List.append_assoc]
      cases p with
      | plain b h => exact ih.append (by simpa [Piece.bytes] using Ne.symm h.2.1)
      | escape b h =>
          by_cases hb : b = quote
          · subst hb
            have hread : Reads name ([backslash] ++ quote :: (s.flatMap Piece.bytes ++ [quote])) bs :=
              ih.quote.append (by decide)
            exact hread
          · exact ih.append (by simpa [Piece.bytes, quote, backslash] using Ne.symm hb)
      | unicode ds h =>
          refine ih.append fun hmem => ?_
          have hbyte := Piece.mem_unicode hmem
          revert hbyte
          decide

/-- **The search in a literal.** -/
theorem reads_quoted (s : List Piece) (hbs : ∀ b ∈ bs.head?, isLetter b = false) :
    Reads name (quoted s) bs :=
  (reads_pieces s hbs).quote

end literal

/-! ## The search in a value -/

/-- A byte that may stand behind a value. -/
def isFollow (b : UInt8) : Bool := isBlank b || b ∈ [comma, closeBracket, closeBrace]

/-- These bytes may stand behind a value. -/
def Follows (bs : List UInt8) : Prop := ∀ b ∈ bs.head?, isFollow b = true

/-- The search ends at this value, or passes the bytes over. -/
def Scans (name : Name) (found : Option Text) (xs bs : List UInt8) : Prop :=
  match found with
  | none => afterFirst name.pattern (xs ++ bs) = afterFirst name.pattern bs
  | some v => ∃ (ws : Blanks) (tail : List UInt8),
      afterFirst name.pattern (xs ++ bs) = some (ws.1 ++ (v.bytes ++ tail))

section scans

variable {name : Name} {found found' : Option Text} {xs ys bs : List UInt8}

/-- The search in two pieces of text: the first piece counts first. -/
theorem Scans.append (hxs : Scans name found xs (ys ++ bs)) (hys : Scans name found' ys bs) :
    Scans name (found.or found') (xs ++ ys) bs := by
  cases found with
  | none =>
      unfold Scans at hxs
      rw [Option.none_or]
      unfold Scans at hys ⊢
      rw [List.append_assoc, hxs]
      exact hys
  | some v =>
      obtain ⟨ws, tail, heq⟩ := hxs
      exact ⟨ws, tail, by rw [List.append_assoc, heq]⟩

/-- Bytes that are no quotes are passed over. -/
theorem scans_of_not_mem (h : quote ∉ xs) : Scans name none xs bs := afterFirst_append_of_not_mem h

/-- So they may stand before a piece of text. -/
theorem Scans.skip (hxs : quote ∉ xs) (h : Scans name found ys bs) : Scans name found (xs ++ ys) bs :=
  (scans_of_not_mem hxs).append h

/-- And behind one. -/
theorem Scans.behind (h : Scans name found xs (ys ++ bs)) (hys : quote ∉ ys) :
    Scans name found (xs ++ ys) bs := by
  have happend := h.append (scans_of_not_mem hys)
  rwa [Option.or_none] at happend

/-- Brackets around a piece of text. -/
theorem Scans.enclosed {o c : UInt8} (ho : quote ≠ o) (hc : quote ≠ c) (h : Scans name found xs (c :: bs)) :
    Scans name found (o :: (xs ++ [c])) bs := by
  have hopen : quote ∉ [o] := by simpa using ho
  have hclose : quote ∉ [c] := by simpa using hc
  exact Scans.skip hopen (Scans.behind h hclose)

/-- White space has no quotes. -/
theorem quote_not_mem_blanks (ws : Blanks) : quote ∉ ws.1 := by
  intro hmem
  have hblank := ws.2 _ hmem
  revert hblank
  decide

/-- Two pieces of text with a comma between them. -/
theorem Scans.separated (after : Blanks) (hxs : Scans name found xs (after.1 ++ comma :: (ys ++ bs)))
    (hys : Scans name found' ys bs) : Scans name (found.or found') (xs ++ (after.1 ++ comma :: ys)) bs := by
  have hcomma : Scans name found' ([comma] ++ ys) bs := hys.skip (by decide)
  rw [← List.cons_append, ← List.append_assoc] at hxs
  exact hxs.append (hcomma.skip (quote_not_mem_blanks after))

/-- What begins with a comma or a closing bracket may stand behind a value. -/
theorem follows_cons {b : UInt8} (hb : isFollow b = true) (bs : List UInt8) : Follows (b :: bs) := by
  intro c hc
  cases hc
  exact hb

/-- White space may stand behind a value. -/
theorem Follows.blanks (h : Follows bs) (ws : Blanks) : Follows (ws.1 ++ bs) := by
  obtain ⟨ws, hws⟩ := ws
  cases ws with
  | nil => exact h
  | cons b ws =>
      intro c hc
      cases hc
      simp [isFollow, hws b List.mem_cons_self]

/-- What may stand behind a value is no letter and no colon. -/
theorem Follows.spec (h : Follows bs) : (∀ b ∈ bs.head?, isLetter b = false) ∧ bs.head? ≠ some colon := by
  have hletter : ∀ b, isFollow b = true → isLetter b = false := by
    intro b hb
    simp only [isFollow, isBlank, comma, closeBracket, closeBrace, Bool.or_eq_true, decide_eq_true_eq,
      List.mem_cons, List.not_mem_nil, or_false] at hb
    rcases hb with (rfl | rfl | rfl | rfl) | rfl | rfl | rfl <;> decide
  refine ⟨fun b hb => hletter b (h b hb), fun hcolon => ?_⟩
  have hfollow := h colon hcolon
  revert hfollow
  decide

/-- What stands behind a key is no letter, and is the colon exactly if no white space comes before it. -/
theorem afterKey_spec (ws : Blanks) (xs bs : List UInt8) :
    (∀ b ∈ (ws.1 ++ colon :: xs ++ bs).head?, isLetter b = false) ∧
    ((ws.1 ++ colon :: xs ++ bs).head? = some colon ↔ ws.1 = []) := by
  obtain ⟨ws, hws⟩ := ws
  cases ws with
  | nil => exact ⟨fun b hb => by cases hb; decide, by simp⟩
  | cons b ws =>
      have hb : isFollow b = true := by simp [isFollow, hws b List.mem_cons_self]
      obtain ⟨hletter, hcolon⟩ := (follows_cons hb (ws ++ colon :: xs ++ bs)).spec
      exact ⟨hletter, by simpa using hcolon⟩

/-- **A member**: it is found if it is marked, and else its value is searched. -/
theorem scans_member (key : List Piece) (afterKey beforeValue : Blanks) {t : Text}
    (ht : Scans name (t.firstMarked name) (t.bytes ++ ys) bs) :
    Scans name (if isMarked name key afterKey then some t else t.firstMarked name)
      (quoted key ++ (afterKey.1 ++ colon :: (beforeValue.1 ++ (t.bytes ++ ys)))) bs := by
  obtain ⟨hletter, hcolon⟩ := afterKey_spec afterKey (beforeValue.1 ++ (t.bytes ++ ys)) bs
  have hread : Reads name (quoted key) _ := reads_quoted key hletter
  unfold Reads at hread
  simp only [hcolon] at hread
  by_cases hmarked : name.literal <:+ quoted key ∧ afterKey.1 = []
  · rw [if_pos hmarked] at hread
    rw [if_pos (isMarked_iff.mpr hmarked)]
    refine ⟨beforeValue, ys ++ bs, ?_⟩
    rw [List.append_assoc, hread, hmarked.2]
    simp
  · rw [if_neg hmarked] at hread
    rw [if_neg fun h => hmarked (isMarked_iff.mp h)]
    have hvalue : Scans name (t.firstMarked name) ([colon] ++ (beforeValue.1 ++ (t.bytes ++ ys))) bs :=
      (ht.skip (quote_not_mem_blanks beforeValue)).skip (by decide)
    have hkey : Scans name none (quoted key) (afterKey.1 ++ colon :: (beforeValue.1 ++ (t.bytes ++ ys)) ++ bs) :=
      hread
    exact hkey.append (hvalue.skip (quote_not_mem_blanks afterKey))

end scans

mutual

/-- **The search in a value** finds its first marked member and nothing else. -/
theorem Text.scans (name : Name) : ∀ (t : Text) {bs : List UInt8}, Follows bs →
    Scans name (t.firstMarked name) t.bytes bs
  | .null, _, _ => scans_of_not_mem (by decide)
  | .bool b, _, _ => scans_of_not_mem (by cases b <;> decide)
  | .number lexeme h, _, _ => scans_of_not_mem (h.not_mem (by decide))
  | .string s, bs, hbs => by
      have hread : Reads name (quoted s) bs := reads_quoted s hbs.spec.1
      unfold Reads at hread
      rwa [if_neg fun h => hbs.spec.2 h.2] at hread
  | .emptyArray ws, _, _ =>
      Scans.enclosed (by decide) (by decide) (scans_of_not_mem (quote_not_mem_blanks ws))
  | .array items, bs, _ =>
      Scans.enclosed (by decide) (by decide) (items.scans name (follows_cons (by decide) bs))
  | .emptyObject ws, _, _ =>
      Scans.enclosed (by decide) (by decide) (scans_of_not_mem (quote_not_mem_blanks ws))
  | .object members, bs, _ =>
      Scans.enclosed (by decide) (by decide) (members.scans name (follows_cons (by decide) bs))

/-- The search in elements. -/
theorem Items.scans (name : Name) : ∀ (items : Items) {bs : List UInt8}, Follows bs →
    Scans name (items.firstMarked name) items.bytes bs
  | .one before t after, _, hbs =>
      ((t.scans name (hbs.blanks after)).behind (quote_not_mem_blanks after)).skip
        (quote_not_mem_blanks before)
  | .more before t after rest, bs, hbs => by
      have hfollow : Follows (comma :: (rest.bytes ++ bs)) := follows_cons (by decide) _
      have ht := t.scans name (hfollow.blanks after)
      exact (ht.separated after (rest.scans name hbs)).skip (quote_not_mem_blanks before)

/-- The search in members. -/
theorem Members.scans (name : Name) : ∀ (members : Members) {bs : List UInt8}, Follows bs →
    Scans name (members.firstMarked name) members.bytes bs
  | .one before key afterKey beforeValue t after, bs, hbs => by
      have ht := (t.scans name (hbs.blanks after)).behind (quote_not_mem_blanks after)
      exact (scans_member key afterKey beforeValue ht).skip (quote_not_mem_blanks before)
  | .more before key afterKey beforeValue t after rest, bs, hbs => by
      have hfollow : Follows (comma :: (rest.bytes ++ bs)) := follows_cons (by decide) _
      have ht := t.scans name (hfollow.blanks after)
      rw [← List.append_nil t.bytes] at ht
      have hmember := (scans_member key afterKey beforeValue ht).separated after (rest.scans name hbs)
      rw [List.append_nil] at hmember
      simp only [List.append_assoc, List.cons_append] at hmember
      exact hmember.skip (quote_not_mem_blanks before)

end

/-- **The search in a text** finds its first marked member. -/
theorem Document.scans (name : Name) (d : Document) : Scans name (d.root.firstMarked name) d.bytes [] := by
  have hnil : Follows [] := by
    rintro b ⟨⟩
  exact ((d.root.scans name (hnil.blanks d.after)).behind (quote_not_mem_blanks d.after)).skip
    (quote_not_mem_blanks d.before)

/-! ## What opens a value -/

/-- A byte that can be seen. -/
def isVisible (b : UInt8) : Bool := 0x21 ≤ b && b ≤ 0x7E

/-- A number opens with a byte that can be seen and is not the `n` of `null`. -/
theorem IsNumber.exists_bytes {lexeme : List UInt8} (h : IsNumber lexeme) :
    ∃ b bs, lexeme = b :: bs ∧ isVisible b = true ∧ b ≠ 0x6E := by
  have hne : lexeme ≠ [] := by
    obtain ⟨sign, int, frac, exp, rfl, -, hint, -⟩ := h
    simp [hint.1]
  obtain ⟨b, bs, rfl⟩ := List.exists_cons_of_ne_nil hne
  refine ⟨b, bs, rfl, ?_⟩
  rcases h.mem List.mem_cons_self with hb | hb
  · obtain ⟨hlow, hhigh⟩ : 0x30 ≤ b ∧ b ≤ 0x39 := by simpa [isDigit] using hb
    rw [UInt8.le_iff_toNat_le] at hlow hhigh
    have hlow : 0x30 ≤ b.toNat := hlow
    have hhigh : b.toNat ≤ 0x39 := hhigh
    refine ⟨?_, ?_⟩
    · simp only [isVisible, Bool.and_eq_true, decide_eq_true_eq, UInt8.le_iff_toNat_le]
      exact ⟨Nat.le_trans (by decide) hlow, Nat.le_trans hhigh (by decide)⟩
    · rintro rfl
      exact absurd hhigh (by decide)
  · simp only [List.mem_cons, List.not_mem_nil, or_false] at hb
    rcases hb with rfl | rfl | rfl | rfl | rfl <;> decide

/-- A value opens with a byte that can be seen, which is the `n` of `null` exactly if the value is `null`. -/
theorem Text.exists_bytes (t : Text) :
    ∃ b bs, t.bytes = b :: bs ∧ isVisible b = true ∧ (b = 0x6E ↔ t.isNull = true) := by
  cases t with
  | null => exact ⟨_, _, rfl, by decide, by decide⟩
  | bool b =>
      cases b
      · exact ⟨_, _, rfl, by decide, by decide⟩
      · exact ⟨_, _, rfl, by decide, by decide⟩
  | number lexeme h =>
      obtain ⟨b, bs, heq, hvisible, hne⟩ := h.exists_bytes
      exact ⟨b, bs, heq, hvisible, by simp [hne, isNull]⟩
  | string s => exact ⟨_, _, rfl, by decide, by simp [quote, isNull]⟩
  | emptyArray ws | array items => exact ⟨_, _, rfl, by decide, by simp [openBracket, isNull]⟩
  | emptyObject ws | object members => exact ⟨_, _, rfl, by decide, by simp [openBrace, isNull]⟩

/-- **The bytes from a value on open with `null`** exactly if the value is `null`. -/
theorem Text.isPrefixOf_null (t : Text) (bs : List UInt8) :
    nullLexeme.isPrefixOf (t.bytes ++ bs) = t.isNull := by
  by_cases hnull : t.isNull = true
  · cases t with
    | null => rfl
    | _ => cases hnull
  · obtain ⟨b, bs', heq, -, hiff⟩ := t.exists_bytes
    have hb : (0x6E == b) = false := by
      rw [beq_eq_false_iff_ne]
      exact fun h => hnull (hiff.mp h.symm)
    rw [heq, Bool.eq_false_iff.mpr hnull]
    simp [nullLexeme, List.isPrefixOf, hb]

end JsonText
