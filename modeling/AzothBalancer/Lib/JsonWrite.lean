import AzothBalancer.Lib.JsonText

/-!
# Writing JSON

`Json.write` is the compact form of a value: no white space, and in strings only the escapes that are needed.
`Text.Reads` relates a text to the one value it stands for, with names, strings and numbers as they are
spelled, where `Text.Denotes` leaves those open.

* `Json.exists_text`: what is written is a text of the grammar that reads as the value.
* `Text.Reads.unique`: a text reads as one value only.
* `Members.Reads.mem_under_iff`: the members under a name read as the values with that name.
-/

namespace JsonText

/-! ## Strings -/

/-- The bytes of a string in UTF-8. -/
def utf8 (s : String) : List UInt8 := s.toByteArray.data.toList

/-- Strings with the same bytes are equal. -/
theorem utf8_inj {s s' : String} : utf8 s = utf8 s' ↔ s = s' := by
  constructor
  · intro h
    exact String.toByteArray_inj.mp (ByteArray.ext (Array.toList_inj.mp h))
  · exact congrArg utf8

/-- A hexadecimal digit, in lower case. -/
def hexDigit (n : ℕ) : UInt8 := UInt8.ofNat (if n < 10 then 0x30 + n else 0x57 + n)

/-- The digit has its value, and is a digit. -/
theorem hexDigit_spec : ∀ n < 16, hexValue (hexDigit n) = n ∧ isHexDigit (hexDigit n) = true := by decide

/-- How a byte of a string is written: escaped if it cannot stand for itself. -/
def Piece.ofByte (b : UInt8) : Piece :=
  if h : b = quote ∨ b = backslash then .escape b (by rcases h with rfl | rfl <;> decide)
  else if b = 0x08 then .escape 0x62 (by decide)
  else if b = 0x0C then .escape 0x66 (by decide)
  else if b = 0x0A then .escape 0x6E (by decide)
  else if b = 0x0D then .escape 0x72 (by decide)
  else if b = 0x09 then .escape 0x74 (by decide)
  else if hlow : b.toNat < 0x20 then
    .unicode [0x30, 0x30, hexDigit (b.toNat / 16), hexDigit (b.toNat % 16)] (by
      have hhigh := (hexDigit_spec (b.toNat / 16) (by omega)).2
      have hrest := (hexDigit_spec (b.toNat % 16) (by omega)).2
      have hzero : isHexDigit 0x30 = true := by decide
      simp [hhigh, hrest, hzero])
  else .plain b (by
    rw [not_or] at h
    exact ⟨UInt8.le_iff_toNat_le.mpr (Nat.not_lt.mp hlow), h⟩)

/-- A byte is written as what stands for it. -/
theorem Piece.unit_ofByte (b : UInt8) : (Piece.ofByte b).unit = b.toNat := by
  unfold Piece.ofByte
  split
  · rename_i h
    rcases h with rfl | rfl <;> rfl
  split
  · simp_all [Piece.unit]
  split
  · simp_all [Piece.unit]
  split
  · simp_all [Piece.unit]
  split
  · simp_all [Piece.unit]
  split
  · simp_all [Piece.unit]
  split
  · rename_i hlow
    have hhigh := (hexDigit_spec (b.toNat / 16) (by omega)).1
    have hrest := (hexDigit_spec (b.toNat % 16) (by omega)).1
    have hzero : hexValue 0x30 = 0 := by decide
    simp only [Piece.unit, List.foldl_cons, List.foldl_nil, hhigh, hrest, hzero]
    omega
  · rfl

/-- The pieces of a string as it is written. -/
def pieces (s : String) : List Piece := (utf8 s).map Piece.ofByte

/-- What is written spells the string. -/
theorem spells_pieces (s : String) : spells (pieces s) (utf8 s) = true := by
  unfold spells pieces
  rw [beq_iff_eq, List.map_map]
  exact List.map_congr_left fun b _ => Piece.unit_ofByte b

/-- Pieces spell one text only. -/
theorem spells_unique {ps : List Piece} {bs bs' : List UInt8} (h : spells ps bs = true)
    (h' : spells ps bs' = true) : bs = bs' := by
  unfold spells at h h'
  rw [beq_iff_eq] at h h'
  exact List.map_injective_iff.mpr (fun _ _ => UInt8.toNat_inj.mp) (h.symm.trans h')

/-! ## Values -/

mutual

/-- The bytes a value is written as. -/
def Json.write : Json → List UInt8
  | .null => nullLexeme
  | .bool b => if b then trueLexeme else falseLexeme
  | .number literal => utf8 literal
  | .string s => quoted (pieces s)
  | .array items => openBracket :: (writeItems items ++ [closeBracket])
  | .object members => openBrace :: (writeMembers members ++ [closeBrace])

/-- The elements of an array, separated by commas. -/
def writeItems : List Json → List UInt8
  | [] => []
  | v :: vs => match vs with
    | [] => v.write
    | _ :: _ => v.write ++ comma :: writeItems vs

/-- The members of an object, separated by commas. -/
def writeMembers : List (String × Json) → List UInt8
  | [] => []
  | (name, v) :: ms => match ms with
    | [] => quoted (pieces name) ++ colon :: v.write
    | _ :: _ => quoted (pieces name) ++ colon :: (v.write ++ comma :: writeMembers ms)

end

mutual

/-- The numbers of a value are numbers. -/
def Json.Proper : Json → Prop
  | .number literal => IsNumber (utf8 literal)
  | .array items => ProperItems items
  | .object members => ProperMembers members
  | _ => True

/-- Those of elements. -/
def ProperItems : List Json → Prop
  | [] => True
  | v :: vs => v.Proper ∧ ProperItems vs

/-- Those of members. -/
def ProperMembers : List (String × Json) → Prop
  | [] => True
  | (_, v) :: ms => v.Proper ∧ ProperMembers ms

end

mutual

/-- The value a text stands for. -/
def Text.Reads : Text → Json → Prop
  | .null, v => v = .null
  | .bool b, v => v = .bool b
  | .number lexeme _, v => ∃ literal, v = .number literal ∧ utf8 literal = lexeme
  | .string ps, v => ∃ s, v = .string s ∧ spells ps (utf8 s) = true
  | .emptyArray _, v => v = .array []
  | .array items, v => ∃ vs, v = .array vs ∧ items.Reads vs
  | .emptyObject _, v => v = .object []
  | .object members, v => ∃ ms, v = .object ms ∧ members.Reads ms

/-- The values elements stand for. -/
def Items.Reads : Items → List Json → Prop
  | .one _ t _, vs => ∃ v, vs = [v] ∧ t.Reads v
  | .more _ t _ rest, vs => ∃ v vs', vs = v :: vs' ∧ t.Reads v ∧ rest.Reads vs'

/-- The names and values members stand for. -/
def Members.Reads : Members → List (String × Json) → Prop
  | .one _ key _ _ t _, ms => ∃ name v, ms = [(name, v)] ∧ spells key (utf8 name) = true ∧ t.Reads v
  | .more _ key _ _ t _ rest, ms => ∃ name v ms', ms = (name, v) :: ms' ∧
      spells key (utf8 name) = true ∧ t.Reads v ∧ rest.Reads ms'

end

/-! ## Reading back -/

mutual

/-- A text stands for one value. -/
theorem Text.Reads.unique : ∀ {t : Text} {v v' : Json}, t.Reads v → t.Reads v' → v = v'
  | .null, _, _, h, h' => by
      unfold Text.Reads at h h'
      rw [h, h']
  | .bool b, _, _, h, h' => by
      unfold Text.Reads at h h'
      rw [h, h']
  | .number lexeme _, _, _, h, h' => by
      unfold Text.Reads at h h'
      obtain ⟨literal, rfl, hl⟩ := h
      obtain ⟨literal', rfl, hl'⟩ := h'
      rw [utf8_inj.mp (hl.trans hl'.symm)]
  | .string ps, _, _, h, h' => by
      unfold Text.Reads at h h'
      obtain ⟨s, rfl, hs⟩ := h
      obtain ⟨s', rfl, hs'⟩ := h'
      rw [utf8_inj.mp (spells_unique hs hs')]
  | .emptyArray _, _, _, h, h' => by
      unfold Text.Reads at h h'
      rw [h, h']
  | .array items, _, _, h, h' => by
      unfold Text.Reads at h h'
      obtain ⟨vs, rfl, hvs⟩ := h
      obtain ⟨vs', rfl, hvs'⟩ := h'
      rw [Items.Reads.unique hvs hvs']
  | .emptyObject _, _, _, h, h' => by
      unfold Text.Reads at h h'
      rw [h, h']
  | .object members, _, _, h, h' => by
      unfold Text.Reads at h h'
      obtain ⟨ms, rfl, hms⟩ := h
      obtain ⟨ms', rfl, hms'⟩ := h'
      rw [Members.Reads.unique hms hms']

theorem Items.Reads.unique : ∀ {items : Items} {vs vs' : List Json}, items.Reads vs → items.Reads vs' →
    vs = vs'
  | .one _ t _, _, _, h, h' => by
      unfold Items.Reads at h h'
      obtain ⟨v, rfl, hv⟩ := h
      obtain ⟨v', rfl, hv'⟩ := h'
      rw [Text.Reads.unique hv hv']
  | .more _ t _ rest, _, _, h, h' => by
      unfold Items.Reads at h h'
      obtain ⟨v, vs, rfl, hv, hvs⟩ := h
      obtain ⟨v', vs', rfl, hv', hvs'⟩ := h'
      rw [Text.Reads.unique hv hv', Items.Reads.unique hvs hvs']

theorem Members.Reads.unique : ∀ {members : Members} {ms ms' : List (String × Json)},
    members.Reads ms → members.Reads ms' → ms = ms'
  | .one _ key _ _ t _, _, _, h, h' => by
      unfold Members.Reads at h h'
      obtain ⟨name, v, rfl, hkey, hv⟩ := h
      obtain ⟨name', v', rfl, hkey', hv'⟩ := h'
      rw [utf8_inj.mp (spells_unique hkey hkey'), Text.Reads.unique hv hv']
  | .more _ key _ _ t _ rest, _, _, h, h' => by
      unfold Members.Reads at h h'
      obtain ⟨name, v, ms, rfl, hkey, hv, hms⟩ := h
      obtain ⟨name', v', ms', rfl, hkey', hv', hms'⟩ := h'
      rw [utf8_inj.mp (spells_unique hkey hkey'), Text.Reads.unique hv hv', Members.Reads.unique hms hms']

end

/-- Elements stand for some values. -/
theorem Items.Reads.ne_nil {items : Items} {vs : List Json} (h : items.Reads vs) : vs ≠ [] := by
  rcases items with _ | _
  · obtain ⟨v, rfl, -⟩ := h
    exact List.cons_ne_nil v []
  · obtain ⟨v, vs, rfl, -⟩ := h
    exact List.cons_ne_nil v vs

/-- Members stand for some values. -/
theorem Members.Reads.ne_nil {members : Members} {ms : List (String × Json)} (h : members.Reads ms) :
    ms ≠ [] := by
  rcases members with _ | _
  · obtain ⟨name, v, rfl, -⟩ := h
    exact List.cons_ne_nil _ _
  · obtain ⟨name, v, ms, rfl, -⟩ := h
    exact List.cons_ne_nil _ _

mutual

/-- **What is written is a text of the grammar that reads as the value.** -/
theorem Json.exists_text : ∀ {v : Json}, v.Proper → ∃ t : Text, t.bytes = v.write ∧ t.Reads v
  | .null, _ => ⟨.null, rfl, rfl⟩
  | .bool b, _ => ⟨.bool b, rfl, rfl⟩
  | .number literal, h => ⟨.number (utf8 literal) h, rfl, literal, rfl, rfl⟩
  | .string s, _ => ⟨.string (pieces s), rfl, s, rfl, spells_pieces s⟩
  | .array vs, h => by
      rcases exists_items h with rfl | ⟨items, hbytes, hreads⟩
      · exact ⟨.emptyArray .none, rfl, rfl⟩
      · refine ⟨.array items, ?_, vs, rfl, hreads⟩
        unfold Json.write Text.bytes
        rw [hbytes]
  | .object ms, h => by
      rcases exists_members h with rfl | ⟨members, hbytes, hreads⟩
      · exact ⟨.emptyObject .none, rfl, rfl⟩
      · refine ⟨.object members, ?_, ms, rfl, hreads⟩
        unfold Json.write Text.bytes
        rw [hbytes]

theorem exists_items : ∀ {vs : List Json}, ProperItems vs →
    vs = [] ∨ ∃ items : Items, items.bytes = writeItems vs ∧ items.Reads vs
  | [], _ => .inl rfl
  | v :: vs, h => by
      obtain ⟨t, hbytes, hreads⟩ := Json.exists_text h.1
      right
      rcases exists_items h.2 with rfl | ⟨rest, hrest, hreads'⟩
      · refine ⟨.one .none t .none, ?_, v, rfl, hreads⟩
        simp [Items.bytes, writeItems, Blanks.none, hbytes]
      · refine ⟨.more .none t .none rest, ?_, v, vs, rfl, hreads, hreads'⟩
        rcases vs with _ | ⟨w, vs⟩
        · exact absurd rfl hreads'.ne_nil
        · simp [Items.bytes, writeItems, Blanks.none, hbytes, hrest]

theorem exists_members : ∀ {ms : List (String × Json)}, ProperMembers ms →
    ms = [] ∨ ∃ members : Members, members.bytes = writeMembers ms ∧ members.Reads ms
  | [], _ => .inl rfl
  | (name, v) :: ms, h => by
      obtain ⟨t, hbytes, hreads⟩ := Json.exists_text h.1
      right
      rcases exists_members h.2 with rfl | ⟨rest, hrest, hreads'⟩
      · refine ⟨.one .none (pieces name) .none .none t .none, ?_, name, v, rfl, spells_pieces name, hreads⟩
        simp [Members.bytes, writeMembers, Blanks.none, hbytes]
      · refine ⟨.more .none (pieces name) .none .none t .none rest, ?_, name, v, ms, rfl,
          spells_pieces name, hreads, hreads'⟩
        rcases ms with _ | ⟨m, ms⟩
        · exact absurd rfl hreads'.ne_nil
        · simp [Members.bytes, writeMembers, Blanks.none, hbytes, hrest]

end

/-! ## Members by name -/

/-- A text that reads as an object with members has them. -/
theorem Text.Reads.exists_members {t : Text} {ms : List (String × Json)} (h : t.Reads (.object ms))
    (hne : ms ≠ []) : ∃ members, t = .object members ∧ members.Reads ms := by
  rcases t with _ | _ | _ | _ | _ | _ | _ | members
  · cases h
  · cases h
  · obtain ⟨_, h, -⟩ := h
    cases h
  · obtain ⟨_, h, -⟩ := h
    cases h
  · cases h
  · obtain ⟨_, h, -⟩ := h
    cases h
  · cases h
    exact absurd rfl hne
  · obtain ⟨ms', h, hreads⟩ := h
    cases h
    exact ⟨members, rfl, hreads⟩

/-- A key that reads as a name spells no other. -/
theorem spells_iff_of_reads {key : List Piece} {name name' : String} (h : spells key (utf8 name) = true) :
    spells key (utf8 name') = true ↔ name' = name := by
  constructor
  · intro h'
    exact utf8_inj.mp (spells_unique h' h)
  · rintro rfl
    exact h

/-- **The members under a name** read as the values with that name, in order. -/
theorem Members.Reads.under (name : String) : ∀ {members : Members} {ms : List (String × Json)},
    members.Reads ms → List.Forall₂ (fun t v => Text.Reads t v) (members.under (utf8 name))
      ((ms.filter fun m => m.1 = name).map Prod.snd)
  | .one _ key _ _ t _, _, h => by
      unfold Members.Reads at h
      obtain ⟨name', v, rfl, hkey, hv⟩ := h
      unfold Members.under
      by_cases hname : name' = name
      · subst hname
        simp [hkey, hv]
      · have hno : ¬ spells key (utf8 name) = true := fun h' => hname ((spells_iff_of_reads hkey).mp h').symm
        simp [hno, hname]
  | .more _ key _ _ t _ rest, _, h => by
      unfold Members.Reads at h
      obtain ⟨name', v, ms, rfl, hkey, hv, hms⟩ := h
      have ih := Members.Reads.under name hms
      unfold Members.under
      by_cases hname : name' = name
      · subst hname
        simp [hkey, hv, ih]
      · have hno : ¬ spells key (utf8 name) = true := fun h' => hname ((spells_iff_of_reads hkey).mp h').symm
        simp [hno, hname, ih]

end JsonText
