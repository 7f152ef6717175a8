import Mathlib.Data.List.Basic
import Mathlib.Tactic.Tauto

/-!
# JSON texts

The grammar of JSON over bytes, as concrete syntax: a `Document` is a text with its white space,
lexemes and separators, so every JSON text is `Document.bytes` of one. Well-formedness of lexemes
and white space is part of the syntax. `Text.Denotes` relates a text to the values a parser may
answer for it; it leaves open how strings and numbers are decoded and which of several equal keys
counts.

* `Document.count_openBrace`: the opening braces of a text are its objects and the braces in its
  strings.
* `Document.find?_of_array`: a text that denotes an array has a bracket as its first byte after
  white space.
-/

namespace JsonText

/-- A JSON value. -/
inductive Json where
  | null
  | bool (b : Bool)
  | number (literal : String)
  | string (s : String)
  | array (items : List Json)
  | object (members : List (String × Json))

def quote : UInt8 := 0x22
def comma : UInt8 := 0x2C
def colon : UInt8 := 0x3A
def openBracket : UInt8 := 0x5B
def backslash : UInt8 := 0x5C
def closeBracket : UInt8 := 0x5D
def openBrace : UInt8 := 0x7B
def closeBrace : UInt8 := 0x7D

/-! ## Lexemes -/

/-- A byte of white space. -/
def isBlank (b : UInt8) : Bool := b ∈ [0x20, 0x09, 0x0A, 0x0D]

/-- White space. -/
abbrev Blanks := {ws : List UInt8 // ∀ b ∈ ws, isBlank b}

/-- No white space. -/
def Blanks.none : Blanks := ⟨[], by simp⟩

/-- A decimal digit. -/
def isDigit (b : UInt8) : Bool := 0x30 ≤ b && b ≤ 0x39

/-- A hexadecimal digit. -/
def isHexDigit (b : UInt8) : Bool :=
  isDigit b || (0x41 ≤ b && b ≤ 0x46) || (0x61 ≤ b && b ≤ 0x66)

/-- One or more digits. -/
def IsDigits (bs : List UInt8) : Prop := bs ≠ [] ∧ ∀ b ∈ bs, isDigit b

/-- A number: sign, integer, fraction and exponent. -/
def IsNumber (bs : List UInt8) : Prop :=
  ∃ sign int frac exp, bs = sign ++ int ++ frac ++ exp ∧
    (sign = [] ∨ sign = [0x2D]) ∧
    IsDigits int ∧ (int.head? = some 0x30 → int = [0x30]) ∧
    (frac = [] ∨ ∃ ds, frac = 0x2E :: ds ∧ IsDigits ds) ∧
    (exp = [] ∨ ∃ e s ds, exp = e :: (s ++ ds) ∧ (e = 0x45 ∨ e = 0x65) ∧
      (s = [] ∨ s = [0x2B] ∨ s = [0x2D]) ∧ IsDigits ds)

/-- `null`. -/
def nullLexeme : List UInt8 := [0x6E, 0x75, 0x6C, 0x6C]

/-- `true`. -/
def trueLexeme : List UInt8 := [0x74, 0x72, 0x75, 0x65]

/-- `false`. -/
def falseLexeme : List UInt8 := [0x66, 0x61, 0x6C, 0x73, 0x65]

/-- A piece of a string: a byte that stands for itself, a short escape or a code point escape. -/
inductive Piece where
  | plain (b : UInt8) (h : 0x20 ≤ b ∧ b ≠ quote ∧ b ≠ backslash)
  | escape (b : UInt8) (h : b ∈ [quote, backslash, 0x2F, 0x62, 0x66, 0x6E, 0x72, 0x74])
  | unicode (ds : List UInt8) (h : ds.length = 4 ∧ ∀ d ∈ ds, isHexDigit d)

/-- The bytes of a piece. -/
def Piece.bytes : Piece → List UInt8
  | .plain b _ => [b]
  | .escape b _ => [backslash, b]
  | .unicode ds _ => backslash :: 0x75 :: ds

/-- The piece is an opening brace. -/
def Piece.isBrace : Piece → Bool
  | .plain b _ => b == openBrace
  | _ => false

/-- The bytes of a string literal. -/
def quoted (s : List Piece) : List UInt8 := quote :: (s.flatMap Piece.bytes ++ [quote])

/-! ## Syntax -/

mutual

/-- A value in its syntax. -/
inductive Text where
  | null
  | bool (b : Bool)
  | number (lexeme : List UInt8) (h : IsNumber lexeme)
  | string (s : List Piece)
  | emptyArray (ws : Blanks)
  | array (items : Items)
  | emptyObject (ws : Blanks)
  | object (members : Members)

/-- The elements of an array: each with the white space around it, separated by commas. -/
inductive Items where
  | one (before : Blanks) (t : Text) (after : Blanks)
  | more (before : Blanks) (t : Text) (after : Blanks) (rest : Items)

/-- The members of an object: key, colon and value, separated by commas. -/
inductive Members where
  | one (before : Blanks) (key : List Piece) (afterKey : Blanks) (beforeValue : Blanks) (t : Text)
      (after : Blanks)
  | more (before : Blanks) (key : List Piece) (afterKey : Blanks) (beforeValue : Blanks) (t : Text)
      (after : Blanks) (rest : Members)

end

mutual

/-- The bytes of a value. -/
def Text.bytes : Text → List UInt8
  | .null => nullLexeme
  | .bool b => if b then trueLexeme else falseLexeme
  | .number lexeme _ => lexeme
  | .string s => quoted s
  | .emptyArray ws => openBracket :: (ws.1 ++ [closeBracket])
  | .array items => openBracket :: (items.bytes ++ [closeBracket])
  | .emptyObject ws => openBrace :: (ws.1 ++ [closeBrace])
  | .object members => openBrace :: (members.bytes ++ [closeBrace])

/-- The bytes of elements. -/
def Items.bytes : Items → List UInt8
  | .one before t after => before.1 ++ (t.bytes ++ after.1)
  | .more before t after rest => before.1 ++ (t.bytes ++ (after.1 ++ comma :: rest.bytes))

/-- The bytes of members. -/
def Members.bytes : Members → List UInt8
  | .one before key afterKey beforeValue t after =>
      before.1 ++ (quoted key ++ (afterKey.1 ++ colon :: (beforeValue.1 ++ (t.bytes ++ after.1))))
  | .more before key afterKey beforeValue t after rest =>
      before.1 ++ (quoted key ++ (afterKey.1 ++ colon :: (beforeValue.1 ++ (t.bytes ++
        (after.1 ++ comma :: rest.bytes)))))

end

mutual

/-- The number of objects in a value, at any depth. -/
def Text.objects : Text → ℕ
  | .array items => items.objects
  | .emptyObject _ => 1
  | .object members => members.objects + 1
  | _ => 0

/-- The number of objects in elements. -/
def Items.objects : Items → ℕ
  | .one _ t _ => t.objects
  | .more _ t _ rest => t.objects + rest.objects

/-- The number of objects in members. -/
def Members.objects : Members → ℕ
  | .one _ _ _ _ t _ => t.objects
  | .more _ _ _ _ t _ rest => t.objects + rest.objects

end

mutual

/-- The number of opening braces in the strings of a value, keys included. -/
def Text.stringBraces : Text → ℕ
  | .string s => s.countP Piece.isBrace
  | .array items => items.stringBraces
  | .object members => members.stringBraces
  | _ => 0

/-- The number of opening braces in the strings of elements. -/
def Items.stringBraces : Items → ℕ
  | .one _ t _ => t.stringBraces
  | .more _ t _ rest => t.stringBraces + rest.stringBraces

/-- The number of opening braces in the strings of members. -/
def Members.stringBraces : Members → ℕ
  | .one _ key _ _ t _ => key.countP Piece.isBrace + t.stringBraces
  | .more _ key _ _ t _ rest => key.countP Piece.isBrace + t.stringBraces + rest.stringBraces

end

mutual

/-- The values a text may be read as. -/
def Text.Denotes : Text → Json → Prop
  | .null, v => v = .null
  | .bool b, v => v = .bool b
  | .number _ _, v => ∃ literal, v = .number literal
  | .string _, v => ∃ s, v = .string s
  | .emptyArray _, v => v = .array []
  | .array items, v => ∃ vs, v = .array vs ∧ items.Denotes vs
  | .emptyObject _, v => v = .object []
  | .object members, v => ∃ ms, v = .object ms ∧ ∀ m ∈ ms, members.Contains m.2

/-- The lists of values elements may be read as. -/
def Items.Denotes : Items → List Json → Prop
  | .one _ t _, vs => ∃ v, vs = [v] ∧ t.Denotes v
  | .more _ t _ rest, vs => ∃ v vs', vs = v :: vs' ∧ t.Denotes v ∧ rest.Denotes vs'

/-- The value of one of the members may be read as this one. -/
def Members.Contains : Members → Json → Prop
  | .one _ _ _ _ t _, v => t.Denotes v
  | .more _ _ _ _ t _ rest, v => t.Denotes v ∨ rest.Contains v

end

/-! ## Names -/

/-- The number of a hexadecimal digit. -/
def hexValue (d : UInt8) : ℕ :=
  if isDigit d then d.toNat - 0x30 else if d ≤ 0x46 then d.toNat - 0x37 else d.toNat - 0x57

/-- What a piece of a string stands for: a byte of the text, or the number of a character. -/
def Piece.unit : Piece → ℕ
  | .plain b _ => b.toNat
  | .escape b _ =>
      if b = 0x62 then 0x08
      else if b = 0x66 then 0x0C
      else if b = 0x6E then 0x0A
      else if b = 0x72 then 0x0D
      else if b = 0x74 then 0x09
      else b.toNat
  | .unicode ds _ => ds.foldl (fun n d => 16 * n + hexValue d) 0

/-- The string is this ASCII text, whichever way it is written. -/
def spells (s : List Piece) (text : List UInt8) : Bool := s.map Piece.unit == text.map UInt8.toNat

/-- The values of the members with this name, in order. -/
def Members.under (name : List UInt8) : Members → List Text
  | .one _ key _ _ t _ => if spells key name then [t] else []
  | .more _ key _ _ t _ rest => if spells key name then t :: rest.under name else rest.under name

/-- The values of the members of an object with this name. -/
def Text.under (name : List UInt8) : Text → List Text
  | .object members => members.under name
  | _ => []

/-- The elements of an array. -/
def Items.texts : Items → List Text
  | .one _ t _ => [t]
  | .more _ t _ rest => t :: rest.texts

/-- The value is an object. -/
def Text.isObject : Text → Bool
  | .emptyObject _ | .object _ => true
  | _ => false

/-- The value is `null`. -/
def Text.isNull : Text → Bool
  | .null => true
  | _ => false

/-- A whole text, with the white space around it. -/
structure Document where
  before : Blanks
  root : Text
  after : Blanks

/-- The bytes of a text. -/
def Document.bytes (d : Document) : List UInt8 := d.before.1 ++ (d.root.bytes ++ d.after.1)

/-! ## Opening braces -/

/-- White space has no braces. -/
theorem count_blanks (ws : Blanks) : ws.1.count openBrace = 0 := by
  rw [List.count_eq_zero]
  intro hmem
  have hblank := ws.2 _ hmem
  revert hblank
  decide

/-- What a number is written with. -/
theorem IsNumber.mem {bs : List UInt8} (h : IsNumber bs) {b : UInt8} (hb : b ∈ bs) :
    isDigit b = true ∨ b ∈ [0x2B, 0x2D, 0x2E, 0x45, 0x65] := by
  obtain ⟨sign, int, frac, exp, rfl, hsign, hint, -, hfrac, hexp⟩ := h
  rcases List.mem_append.mp hb with hb | hb
  · rcases List.mem_append.mp hb with hb | hb
    · rcases List.mem_append.mp hb with hb | hb
      · rcases hsign with rfl | rfl
        · cases hb
        · rw [List.mem_singleton] at hb
          exact .inr (by simp [hb])
      · exact .inl (hint.2 b hb)
    · rcases hfrac with rfl | ⟨ds, rfl, hds⟩
      · cases hb
      · rcases List.mem_cons.mp hb with hb | hb
        · exact .inr (by simp [hb])
        · exact .inl (hds.2 b hb)
  · rcases hexp with rfl | ⟨e, s, ds, rfl, he, hs, hds⟩
    · cases hb
    · rcases List.mem_cons.mp hb with hb | hb
      · rcases he with rfl | rfl
        · exact .inr (by simp [hb])
        · exact .inr (by simp [hb])
      · rcases List.mem_append.mp hb with hb | hb
        · rcases hs with rfl | rfl | rfl
          · cases hb
          · rw [List.mem_singleton] at hb
            exact .inr (by simp [hb])
          · rw [List.mem_singleton] at hb
            exact .inr (by simp [hb])
        · exact .inl (hds.2 b hb)

/-- What is in no number, as none of its bytes is. -/
theorem IsNumber.not_mem {bs : List UInt8} (h : IsNumber bs) {b : UInt8}
    (hb : ¬ (isDigit b = true ∨ b ∈ [0x2B, 0x2D, 0x2E, 0x45, 0x65])) : b ∉ bs :=
  fun hmem => hb (h.mem hmem)

/-- Numbers have no braces. -/
theorem count_number {bs : List UInt8} (h : IsNumber bs) : bs.count openBrace = 0 :=
  List.count_eq_zero.mpr (h.not_mem (by decide))

/-- What a code point escape is written with. -/
theorem Piece.mem_unicode {ds : List UInt8} {h : ds.length = 4 ∧ ∀ d ∈ ds, isHexDigit d} {b : UInt8}
    (hb : b ∈ (Piece.unicode ds h).bytes) : b = backslash ∨ b = 0x75 ∨ isHexDigit b = true := by
  rcases List.mem_cons.mp hb with hb | hb
  · exact .inl hb
  · rcases List.mem_cons.mp hb with hb | hb
    · exact .inr (.inl hb)
    · exact .inr (.inr (h.2 b hb))

/-- A piece has a brace if it is one. -/
theorem count_piece (p : Piece) : p.bytes.count openBrace = if p.isBrace then 1 else 0 := by
  cases p with
  | plain b h =>
      by_cases hb : b = openBrace
      · subst hb
        rfl
      · simp [Piece.bytes, Piece.isBrace, hb]
  | escape b h =>
      have hb : openBrace ∉ [backslash, b] := by
        intro hmem
        rcases List.mem_cons.mp hmem with heq | hmem
        · revert heq
          decide
        · rw [List.mem_singleton] at hmem
          subst hmem
          revert h
          decide
      exact List.count_eq_zero.mpr hb
  | unicode ds h =>
      refine List.count_eq_zero.mpr fun hmem => ?_
      have hbyte := Piece.mem_unicode hmem
      revert hbyte
      decide

/-- The braces of a string literal are its pieces that are braces. -/
theorem count_quoted (s : List Piece) : (quoted s).count openBrace = s.countP Piece.isBrace := by
  have hpieces : (s.flatMap Piece.bytes).count openBrace = s.countP Piece.isBrace := by
    induction s with
    | nil => rfl
    | cons p s ih =>
        rw [List.flatMap_cons, List.count_append, count_piece, ih, List.countP_cons]
        omega
  unfold quoted
  rw [List.count_cons_of_ne (by decide), List.count_append, hpieces]
  rfl

mutual

/-- The opening braces of a value. -/
theorem Text.count_bytes : ∀ t : Text, t.bytes.count openBrace = t.objects + t.stringBraces
  | .null => rfl
  | .bool b => by cases b <;> rfl
  | .number lexeme h => by simp [Text.bytes, Text.objects, Text.stringBraces, count_number h]
  | .string s => by simp [Text.bytes, Text.objects, Text.stringBraces, count_quoted]
  | .emptyArray ws => by
      rw [Text.bytes, List.count_cons_of_ne (by decide), List.count_append, count_blanks]
      rfl
  | .array items => by
      rw [Text.bytes, List.count_cons_of_ne (by decide), List.count_append, items.count_bytes]
      rfl
  | .emptyObject ws => by
      rw [Text.bytes, List.count_cons_self, List.count_append, count_blanks]
      rfl
  | .object members => by
      have hclose : [closeBrace].count openBrace = 0 := by decide
      rw [Text.bytes, List.count_cons_self, List.count_append, members.count_bytes, hclose,
        Text.objects, Text.stringBraces]
      omega

/-- The opening braces of elements. -/
theorem Items.count_bytes : ∀ items : Items,
    items.bytes.count openBrace = items.objects + items.stringBraces
  | .one before t after => by
      rw [Items.bytes, List.count_append, List.count_append, count_blanks, count_blanks,
        t.count_bytes, Items.objects, Items.stringBraces]
      omega
  | .more before t after rest => by
      rw [Items.bytes, List.count_append, List.count_append, List.count_append,
        List.count_cons_of_ne (by decide), count_blanks, count_blanks, t.count_bytes,
        rest.count_bytes, Items.objects, Items.stringBraces]
      omega

/-- The opening braces of members. -/
theorem Members.count_bytes : ∀ members : Members,
    members.bytes.count openBrace = members.objects + members.stringBraces
  | .one before key afterKey beforeValue t after => by
      rw [Members.bytes, List.count_append, List.count_append, List.count_append,
        List.count_cons_of_ne (by decide), List.count_append, List.count_append, count_blanks,
        count_blanks, count_blanks, count_blanks, count_quoted, t.count_bytes, Members.objects,
        Members.stringBraces]
      omega
  | .more before key afterKey beforeValue t after rest => by
      rw [Members.bytes, List.count_append, List.count_append, List.count_append,
        List.count_cons_of_ne (by decide), List.count_append, List.count_append, List.count_append,
        List.count_cons_of_ne (by decide), count_blanks, count_blanks, count_blanks, count_blanks,
        count_quoted, t.count_bytes, rest.count_bytes, Members.objects, Members.stringBraces]
      omega

end

/-- **The opening braces of a text** are its objects and the braces in its strings. -/
theorem Document.count_openBrace (d : Document) :
    d.bytes.count openBrace = d.root.objects + d.root.stringBraces := by
  unfold Document.bytes
  rw [List.count_append, List.count_append, count_blanks, count_blanks, d.root.count_bytes]
  omega

/-! ## The first byte -/

/-- White space is skipped. -/
theorem find?_blanks_append {p : UInt8 → Bool} (hp : ∀ b, isBlank b = true → p b = false)
    (ws : Blanks) (bs : List UInt8) : (ws.1 ++ bs).find? p = bs.find? p := by
  rw [List.find?_append, List.find?_eq_none.mpr, Option.none_or]
  intro b hb
  rw [hp b (ws.2 b hb)]
  exact Bool.false_ne_true

/-- **A text that denotes an array opens with a bracket**, for every notion of white space that has
all of JSON's and not the bracket. -/
theorem Document.find?_of_array {d : Document} {items : List Json} (h : d.root.Denotes (.array items))
    {p : UInt8 → Bool} (hblank : ∀ b, isBlank b = true → p b = false) (hopen : p openBracket = true) :
    d.bytes.find? p = some openBracket := by
  unfold Document.bytes
  rw [find?_blanks_append hblank]
  cases hroot : d.root with
  | emptyArray ws =>
      rw [Text.bytes, List.cons_append, List.find?_cons, hopen]
  | array items =>
      rw [Text.bytes, List.cons_append, List.find?_cons, hopen]
  | null =>
      rw [hroot, Text.Denotes] at h
      cases h
  | bool b =>
      rw [hroot, Text.Denotes] at h
      cases h
  | number lexeme hn =>
      rw [hroot, Text.Denotes] at h
      obtain ⟨_, h⟩ := h
      cases h
  | string s =>
      rw [hroot, Text.Denotes] at h
      obtain ⟨_, h⟩ := h
      cases h
  | emptyObject ws =>
      rw [hroot, Text.Denotes] at h
      cases h
  | object members =>
      rw [hroot, Text.Denotes] at h
      obtain ⟨_, h, -⟩ := h
      cases h

end JsonText
