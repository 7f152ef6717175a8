import Mathlib.Data.List.MinMax
import Mathlib.Data.List.Sort
import Mathlib.Data.Prod.Lex
import Mathlib.Order.OrderDual

/-!
# The least elements of a list under a key

`leastBy f l` keeps the elements of `l` whose key is least in `l`, in the order of the list.

* `head?_leastBy_filter_eq_some_iff` — the first of the least elements, by its place in the list;
  `head?_leastBy_eq_argmin` — a single pass finds it;
* `leastBy_toLex` — under a lexicographic key, the elements least in the first component are
  filtered once more by the second;
* `head?_insertionSort` — a stable sort puts the first of the least elements in front;
* `filter_insertionSort` — a stable sort commutes with a filter.

A descending component of a key is written with `toDual`.
-/

namespace LeastBy

variable {α β γ : Type} [LinearOrder β] [LinearOrder γ] {f : α → β} {g : α → γ} {l m : List α}
  {a b : α} {p q : α → Bool}

/-- The elements with the least key. -/
def leastBy (f : α → β) (l : List α) : List α := l.filter fun a => ∀ b ∈ l, f a ≤ f b

/-- Membership, spelled out. -/
theorem mem_leastBy : a ∈ leastBy f l ↔ a ∈ l ∧ ∀ b ∈ l, f a ≤ f b := by
  simp [leastBy]

/-- Least elements are elements. -/
theorem mem_of_mem_leastBy (h : a ∈ leastBy f l) : a ∈ l := (mem_leastBy.mp h).1

/-- Least elements share their key. -/
theorem eq_of_mem_leastBy (ha : a ∈ leastBy f l) (hb : b ∈ leastBy f l) : f a = f b :=
  le_antisymm ((mem_leastBy.mp ha).2 b (mem_of_mem_leastBy hb))
    ((mem_leastBy.mp hb).2 a (mem_of_mem_leastBy ha))

/-- An element with a least element's key is least. -/
theorem mem_leastBy_of_eq (ha : a ∈ leastBy f l) (hb : b ∈ l) (h : f a = f b) : b ∈ leastBy f l :=
  mem_leastBy.mpr ⟨hb, fun c hc => h ▸ (mem_leastBy.mp ha).2 c hc⟩

/-- Keys that order the list alike have the same least elements. -/
theorem leastBy_congr (h : ∀ a ∈ l, ∀ b ∈ l, f a ≤ f b ↔ g a ≤ g b) : leastBy f l = leastBy g l := by
  refine List.filter_congr fun a ha => ?_
  simp only [decide_eq_decide]
  exact forall₂_congr (h a ha)

/-- Under a constant key every element is least. -/
theorem leastBy_eq_self (h : ∀ a ∈ l, ∀ b ∈ l, f a = f b) : leastBy f l = l := by
  refine List.filter_eq_self.mpr fun a ha => ?_
  simpa using fun b hb => (h a ha b hb).le

/-- A lexicographic key is minimised component by component. -/
theorem leastBy_toLex : leastBy (fun a => toLex (f a, g a)) l = leastBy g (leastBy f l) := by
  unfold leastBy
  rw [List.filter_filter]
  refine List.filter_congr fun a ha => ?_
  rw [Bool.eq_iff_iff]
  simp only [Prod.Lex.toLex_le_toLex, List.mem_filter, decide_eq_true_eq, Bool.and_eq_true]
  constructor
  · intro h
    have hf : ∀ b ∈ l, f a ≤ f b := fun b hb => (h b hb).elim le_of_lt fun e => e.1.le
    refine ⟨fun b hb => ?_, hf⟩
    rcases h b hb.1 with hlt | ⟨-, hle⟩
    · exact absurd (hb.2 a ha) (not_le_of_gt hlt)
    · exact hle
  · rintro ⟨hg, hf⟩ b hb
    rcases (hf b hb).lt_or_eq with hlt | heq
    · exact Or.inl hlt
    · exact Or.inr ⟨heq, hg b ⟨hb, fun c hc => heq ▸ hf c hc⟩⟩

/-- The least elements of the images are the images of the least elements. -/
theorem leastBy_map {δ : Type} (h : δ → α) (l : List δ) :
    leastBy f (l.map h) = (leastBy (fun d => f (h d)) l).map h := by
  unfold leastBy
  rw [List.filter_map]
  congr 1
  refine List.filter_congr fun a _ => ?_
  simp

/-- A part of the list that holds every least element has the same least elements. -/
theorem leastBy_filter (h : ∀ a ∈ l, ∀ b ∈ l, f a ≤ f b → p b → p a) (hne : l.filter p ≠ []) :
    leastBy f (l.filter p) = leastBy f l := by
  obtain ⟨c, hc⟩ := List.exists_mem_of_ne_nil _ hne
  obtain ⟨hcl, hcp⟩ := List.mem_filter.mp hc
  unfold leastBy
  rw [List.filter_filter]
  refine List.filter_congr fun a ha => ?_
  rw [Bool.eq_iff_iff]
  simp only [List.mem_filter, decide_eq_true_eq, Bool.and_eq_true]
  constructor
  · rintro ⟨hmin, hp⟩ b hb
    rcases le_total (f a) (f b) with hab | hba
    · exact hab
    · exact hmin b ⟨hb, h b hb a ha hba hp⟩
  · intro hmin
    exact ⟨fun b hb => hmin b hb.1, h a ha c hcl (hmin c hcl) hcp⟩

/-- If the first element with `p` has `q`, and `q` implies `p`, it is the first with `q`. -/
theorem head?_filter_of_imp (h : (l.filter p).head? = some a) (hq : q a)
    (himp : ∀ b ∈ l, q b → p b) : (l.filter q).head? = some a := by
  rw [List.head?_filter, List.find?_eq_some_iff_append] at h ⊢
  obtain ⟨-, as, bs, rfl, has⟩ := h
  refine ⟨hq, as, bs, rfl, fun b hb => ?_⟩
  have hp := has b hb
  have hqp := himp b (List.mem_append_left _ hb)
  cases hqb : q b with
  | false => rfl
  | true => simp [hqp hqb] at hp

/-- Where keys increase strictly along the list, its head is the only least element. -/
theorem mem_leastBy_iff_head? (h : l.Pairwise fun a b => f a < f b) :
    a ∈ leastBy f l ↔ l.head? = some a := by
  rw [mem_leastBy]
  cases l with
  | nil => simp
  | cons c l =>
      have hc := (List.pairwise_cons.mp h).1
      simp only [List.head?_cons, Option.some.injEq]
      constructor
      · rintro ⟨ha, hmin⟩
        rcases List.mem_cons.mp ha with rfl | ha
        · rfl
        · exact absurd (hmin c List.mem_cons_self) (not_le_of_gt (hc a ha))
      · rintro rfl
        refine ⟨List.mem_cons_self, fun b hb => ?_⟩
        rcases List.mem_cons.mp hb with rfl | hb
        · exact le_rfl
        · exact (hc b hb).le

/-! ## Stable sorting -/

/-- Sorting looks at the relation only. -/
theorem insertionSort_congr {r s : α → α → Prop} [DecidableRel r] [DecidableRel s]
    (h : ∀ a b, r a b ↔ s a b) : l.insertionSort r = l.insertionSort s := by
  have hmap := List.map_insertionSort r s id l fun a _ b _ => h a b
  simpa using hmap

/-- A sorted list is sorted by its key. -/
theorem pairwise_insertionSort (f : α → β) (l : List α) :
    (l.insertionSort fun a b => f a ≤ f b).Pairwise fun a b => f a ≤ f b := by
  have : Std.Total fun a b : α => f a ≤ f b := ⟨fun a b => le_total (f a) (f b)⟩
  have : IsTrans α fun a b => f a ≤ f b := ⟨fun _ _ _ hab hbc => le_trans hab hbc⟩
  exact List.pairwise_insertionSort _ l

/-- Inserting into a sorted list commutes with a filter. -/
theorem filter_orderedInsert (hl : l.Pairwise fun a b => f a ≤ f b) :
    (l.orderedInsert (fun a b => f a ≤ f b) a).filter p =
      if p a then (l.filter p).orderedInsert (fun a b => f a ≤ f b) a else l.filter p := by
  induction l with
  | nil => cases hp : p a <;> simp [hp]
  | cons b l ih =>
      obtain ⟨hb, hl⟩ := List.pairwise_cons.mp hl
      by_cases hab : f a ≤ f b
      · -- everything after `a` stays after it
        have hall : ∀ c ∈ (b :: l).filter p, f a ≤ f c := by
          intro c hc
          rcases List.mem_cons.mp (List.mem_of_mem_filter hc) with rfl | hc
          · exact hab
          · exact hab.trans (hb c hc)
        have hfront : ∀ m : List α, (∀ c ∈ m, f a ≤ f c) →
            m.orderedInsert (fun a b => f a ≤ f b) a = a :: m := by
          intro m hm
          cases m with
          | nil => rfl
          | cons c m => exact List.orderedInsert_cons_of_le _ m (hm c List.mem_cons_self)
        rw [List.orderedInsert_cons_of_le _ l hab, hfront _ hall, List.filter_cons]
      · rw [List.orderedInsert_of_not_le _ l hab, List.filter_cons, ih hl, List.filter_cons]
        cases hpb : p b with
        | false => simp
        | true =>
            cases hpa : p a with
            | false => simp
            | true => simp [hab]

/-- **Stability, for filters**: a stable sort commutes with them. -/
theorem filter_insertionSort :
    (l.insertionSort fun a b => f a ≤ f b).filter p =
      (l.filter p).insertionSort fun a b => f a ≤ f b := by
  induction l with
  | nil => rfl
  | cons a l ih =>
      rw [List.insertionSort_cons, filter_orderedInsert (pairwise_insertionSort f l), ih,
        List.filter_cons]
      split <;> simp

/-- **Stability, for the head**: in front of the sorted list stands the first of the least
elements. -/
theorem head?_insertionSort :
    (l.insertionSort fun a b => f a ≤ f b).head? = (leastBy f l).head? := by
  have hleast : ((l.insertionSort fun a b => f a ≤ f b).filter fun a => ∀ b ∈ l, f a ≤ f b).head? =
      (l.insertionSort fun a b => f a ≤ f b).head? := by
    cases hs : l.insertionSort fun a b => f a ≤ f b with
    | nil => rfl
    | cons c m =>
        have hsorted := pairwise_insertionSort f l
        rw [hs] at hsorted
        have hc : ∀ b ∈ l, f c ≤ f b := by
          intro b hb
          have hmem : b ∈ c :: m := by rw [← hs]; exact (List.mem_insertionSort _).mpr hb
          rcases List.mem_cons.mp hmem with rfl | hbm
          · exact le_rfl
          · exact (List.pairwise_cons.mp hsorted).1 b hbm
        rw [List.filter_cons_of_pos (by simpa using hc)]
        rfl
  rw [← hleast, filter_insertionSort]
  show ((leastBy f l).insertionSort _).head? = _
  -- among elements of one key the sort does nothing
  have hpair : (leastBy f l).Pairwise fun a b => f a ≤ f b :=
    List.Pairwise.imp_of_mem (fun ha hb _ => (eq_of_mem_leastBy ha hb).le)
      (List.pairwise_of_forall (R := fun _ _ : α => True) fun _ _ => trivial)
  rw [hpair.insertionSort_eq]

/-- A non-empty list has least elements. -/
theorem leastBy_eq_nil : leastBy f l = [] ↔ l = [] := by
  constructor
  · intro h
    have hhead := head?_insertionSort (f := f) (l := l)
    rw [h, List.head?_nil, List.head?_eq_none_iff] at hhead
    apply List.eq_nil_of_length_eq_zero
    rw [← List.length_insertionSort (fun a b => f a ≤ f b) l, hhead, List.length_nil]
  · rintro rfl
    rfl

/-! ## The first least element -/

/-- Where the elements with `p` come before those without, the first least element is looked for among
the former and then among the latter. -/
theorem head?_leastBy_split (h : ∀ a ∈ l, ∀ b ∈ l, f a ≤ f b → p b → p a) :
    (leastBy f l).head? =
      (leastBy f (l.filter p)).head?.or (leastBy f (l.filter fun a => !p a)).head? := by
  by_cases hne : l.filter p = []
  · have hrest : l.filter (fun a => !p a) = l := by
      apply List.filter_eq_self.mpr
      intro a ha
      have hpa := List.filter_eq_nil_iff.mp hne a ha
      simpa using hpa
    rw [hne, hrest]
    rfl
  · rw [leastBy_filter h hne]
    cases hl : leastBy f l with
    | nil =>
        have hnil : l = [] := leastBy_eq_nil.mp hl
        exact absurd (by rw [hnil]; rfl) hne
    | cons a m => rfl

/-- **The first of the least elements with `p`**, by its place in the list. -/
theorem head?_leastBy_filter_eq_some_iff :
    (leastBy f (l.filter p)).head? = some a ↔ ∃ pre post, l = pre ++ a :: post ∧ p a ∧
      (∀ b ∈ pre, p b → f a < f b) ∧ ∀ b ∈ post, p b → f a ≤ f b := by
  unfold leastBy
  rw [List.filter_filter, List.head?_filter, List.find?_eq_some_iff_append]
  simp only [Bool.and_eq_true, decide_eq_true_eq, List.mem_filter, Bool.not_eq_true',
    Bool.and_eq_false_iff, decide_eq_false_iff_not]
  constructor
  · rintro ⟨⟨hmin, hpa⟩, pre, post, rfl, hpre⟩
    refine ⟨pre, post, rfl, hpa, ?_, ?_⟩
    · intro b hb hpb
      have hle : f a ≤ f b := hmin b ⟨List.mem_append_left _ hb, hpb⟩
      apply lt_of_le_of_ne hle
      intro heq
      rcases hpre b hb with hnot | hnot
      · exact hnot fun c hc => heq ▸ hmin c hc
      · simp [hpb] at hnot
    · intro b hb hpb
      exact hmin b ⟨List.mem_append_right _ (List.mem_cons_of_mem _ hb), hpb⟩
  · rintro ⟨pre, post, rfl, hpa, hpre, hpost⟩
    refine ⟨⟨?_, hpa⟩, pre, post, rfl, ?_⟩
    · rintro b ⟨hb, hpb⟩
      rcases List.mem_append.mp hb with hb | hb
      · exact (hpre b hb hpb).le
      · rcases List.mem_cons.mp hb with rfl | hb
        · exact le_rfl
        · exact hpost b hb hpb
    · intro b hb
      cases hpb : p b with
      | false => exact Or.inr rfl
      | true =>
          refine Or.inl fun hmin => ?_
          have hle := hmin a ⟨List.mem_append_right _ List.mem_cons_self, hpa⟩
          exact absurd hle (not_le_of_gt (hpre b hb hpb))

/-- **A single pass** that keeps an element until a smaller one comes finds the first of the least
elements. -/
theorem head?_leastBy_eq_argmin : (leastBy f l).head? = l.argmin f := by
  induction l with
  | nil => rfl
  | cons a l ih =>
      rw [List.argmin_cons, ← ih]
      by_cases hmin : ∀ b ∈ l, f a ≤ f b
      · have hhead : (leastBy f (a :: l)).head? = some a := by
          unfold leastBy
          rw [List.filter_cons_of_pos (by simpa using hmin)]
          rfl
        rw [hhead]
        cases hl : (leastBy f l).head? with
        | none => rfl
        | some c =>
            have hc : c ∈ l := mem_of_mem_leastBy (List.mem_of_head? hl)
            exact (if_neg (not_lt_of_ge (hmin c hc))).symm
      · push Not at hmin
        obtain ⟨b, hb, hba⟩ := hmin
        have htail : leastBy f (a :: l) = leastBy f l := by
          unfold leastBy
          rw [List.filter_cons_of_neg]
          · apply List.filter_congr
            intro c _
            rw [Bool.eq_iff_iff]
            simp only [List.forall_mem_cons, decide_eq_true_eq, and_iff_right_iff_imp]
            exact fun hc => (hc b hb).trans hba.le
          · simp only [List.forall_mem_cons, decide_eq_true_eq, not_and]
            exact fun _ hall => absurd (hall b hb) (not_le_of_gt hba)
        rw [htail]
        cases hl : (leastBy f l).head? with
        | none =>
            have hnil : l = [] := leastBy_eq_nil.mp (List.head?_eq_none_iff.mp hl)
            rw [hnil] at hb
            cases hb
        | some c =>
            have hc := (mem_leastBy.mp (List.mem_of_head? hl)).2 b hb
            exact (if_pos (lt_of_le_of_lt hc hba)).symm

end LeastBy
