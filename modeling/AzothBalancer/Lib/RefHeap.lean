import Mathlib.Data.List.Basic

/-!
# A heap of shared objects

Objects behind shared pointers, as a growing list of cells: a reference is the index of its cell,
`alloc` appends a cell and returns its reference, `modify` rewrites one cell in place. Cloning a
pointer copies the reference and not the cell, so two holders of one reference see each other's
writes. A reference is *valid* (`h.Valid r`) when its cell exists; cells are never freed, so a
valid reference stays valid, and a fresh one differs from every valid one.
-/

/-- Cells of type `α`, addressed by their position. -/
structure RefHeap (α : Type) where
  /-- The cells allocated so far, oldest first. -/
  cells : List α
  deriving DecidableEq, Repr

namespace RefHeap

variable {α : Type} {h : RefHeap α} {r r' : ℕ} {a : α} {f : α → α}

/-- The heap with no cell. -/
def empty : RefHeap α := ⟨[]⟩

/-- The object behind a reference. -/
def get? (h : RefHeap α) (r : ℕ) : Option α := h.cells[r]?

/-- A new cell holding `a`, and its reference. -/
def alloc (h : RefHeap α) (a : α) : RefHeap α × ℕ := (⟨h.cells ++ [a]⟩, h.cells.length)

/-- The cell behind `r` rewritten by `f`. -/
def modify (h : RefHeap α) (r : ℕ) (f : α → α) : RefHeap α := ⟨h.cells.modify r f⟩

/-- The reference points to an allocated cell. -/
def Valid (h : RefHeap α) (r : ℕ) : Prop := r < h.cells.length

instance : Decidable (h.Valid r) := inferInstanceAs (Decidable (r < h.cells.length))

/-- A reference is valid exactly when it can be read. -/
theorem valid_iff_exists : h.Valid r ↔ ∃ a, h.get? r = some a := by
  constructor
  · intro hr
    exact ⟨h.cells[r], List.getElem?_eq_getElem hr⟩
  · rintro ⟨a, ha⟩
    exact (List.getElem?_eq_some_iff.mp ha).1

/-- What can be read is behind a valid reference. -/
theorem valid_of_get? (hr : h.get? r = some a) : h.Valid r := valid_iff_exists.mpr ⟨a, hr⟩

/-- The fresh reference is not valid before the allocation. -/
theorem not_valid_alloc : ¬ h.Valid (h.alloc a).2 := Nat.lt_irrefl _

/-- A fresh reference differs from every valid one. -/
theorem ne_alloc (hr : h.Valid r) : r ≠ (h.alloc a).2 := Nat.ne_of_lt hr

/-- The fresh reference points to the new object. -/
@[simp] theorem get?_alloc_self : (h.alloc a).1.get? (h.alloc a).2 = some a := by
  simp [get?, alloc]

/-- Valid references stay valid over an allocation. -/
theorem Valid.alloc (hr : h.Valid r) : (h.alloc a).1.Valid r := by
  simp only [Valid, RefHeap.alloc, List.length_append] at hr ⊢
  omega

/-- The fresh reference is valid after the allocation. -/
theorem valid_alloc_self : (h.alloc a).1.Valid (h.alloc a).2 := valid_of_get? get?_alloc_self

/-- A write keeps the set of valid references. -/
@[simp] theorem valid_modify : (h.modify r f).Valid r' ↔ h.Valid r' := by
  simp [Valid, modify]

/-- A write is seen through its own reference. -/
@[simp] theorem get?_modify_self : (h.modify r f).get? r = (h.get? r).map f := by
  simp [get?, modify]

/-- A write is not seen through another reference. -/
theorem get?_modify_of_ne (hne : r' ≠ r) : (h.modify r f).get? r' = h.get? r' := by
  simp [get?, modify, Ne.symm hne]

/-- What is read after a write, through any reference. -/
theorem get?_modify : (h.modify r f).get? r' = if r' = r then (h.get? r').map f else h.get? r' := by
  split
  · rename_i heq
    rw [heq, get?_modify_self]
  · rename_i hne
    exact get?_modify_of_ne hne

/-- Writing what is there changes nothing. -/
theorem modify_const_of_get? (hr : h.get? r = some a) : (h.modify r fun _ => a) = h := by
  have hc : h.cells.modify r (fun _ => a) = h.cells := by
    apply List.ext_getElem?
    intro i
    rw [List.getElem?_modify]
    by_cases hi : r = i
    · subst hi
      show (fun x => _) <$> h.get? r = h.get? r
      simp [hr]
    · simp [hi]
  cases h
  simp_all [modify]

/-! ## Growing heaps -/

/-- `h'` continues `h`: the same objects behind the same references, and possibly more. -/
def Extends (h h' : RefHeap α) : Prop := ∃ more, h'.cells = h.cells ++ more

/-- A heap continues itself. -/
theorem Extends.refl (h : RefHeap α) : Extends h h := ⟨[], (List.append_nil _).symm⟩

/-- Continuations compose. -/
theorem Extends.trans {h₁ h₂ h₃ : RefHeap α} (h₁₂ : Extends h₁ h₂) (h₂₃ : Extends h₂ h₃) :
    Extends h₁ h₃ := by
  obtain ⟨l, hl⟩ := h₁₂
  obtain ⟨m, hm⟩ := h₂₃
  exact ⟨l ++ m, by rw [hm, hl, List.append_assoc]⟩

/-- An allocation continues the heap. -/
theorem extends_alloc (h : RefHeap α) (a : α) : Extends h (h.alloc a).1 := ⟨[a], rfl⟩

/-- A continuation reads the same behind every old reference. -/
theorem Extends.get? {h h' : RefHeap α} (he : Extends h h') (hr : h.Valid r) :
    h'.get? r = h.get? r := by
  obtain ⟨more, hm⟩ := he
  unfold RefHeap.get?
  rw [hm]
  exact List.getElem?_append_left hr

/-- A fresh object is still there in every continuation. -/
theorem Extends.get?_alloc {h h' : RefHeap α} (he : Extends (h.alloc a).1 h') :
    h'.get? (h.alloc a).2 = some a := by
  rw [he.get? valid_alloc_self, get?_alloc_self]

/-- Old references stay valid in a continuation. -/
theorem Extends.valid {h h' : RefHeap α} (he : Extends h h') (hr : h.Valid r) : h'.Valid r := by
  obtain ⟨a, ha⟩ := valid_iff_exists.mp hr
  exact valid_of_get? (a := a) (by rw [he.get? hr, ha])

end RefHeap
