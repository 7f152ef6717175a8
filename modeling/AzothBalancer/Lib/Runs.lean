import Mathlib.Algebra.Group.Basic
import Mathlib.Algebra.Group.Hom.Defs
import Mathlib.Algebra.Group.Nat.Defs
import Mathlib.Algebra.GroupWithZero.Nat
import Mathlib.Data.List.Induction
import Mathlib.Logic.Relation

/-!
# Runs of deterministic and of relational systems

A deterministic system is a step function `step : σ → ι → σ`, and a run folds it over a list of
labels. `Runs.invariant` is the invariant rule: what every step keeps, every run keeps; the step may use
a side condition on its label.

Where the side condition is about the state as well, `Runs.Along step C s labels` says that every
step of the run is taken under `C`; `Runs.invariant_along` is the invariant rule for such runs.
`Runs.along_congr` exchanges a condition along a run for one that an invariant makes equivalent, and
`Runs.along_of_not_final` infers a condition along a run from the state the run ends in.

`Runs.charged` adds up a charge over the steps of a run. `Runs.balance` carries a balance of a quantity
and two charges from the steps to the run; `Runs.charged_le` bounds the charge by a quantity it is paid from.

`Runs.emitted` collects what the steps of a run put out; `Runs.invariant_emitted` is the invariant rule for a
state together with that record.

`Runs.reachable` is the invariant rule for a step relation.
-/

namespace Runs

variable {σ ι κ : Type}

/-- A run: the steps of the labels, in order. -/
def run (step : σ → ι → σ) (s : σ) (labels : List ι) : σ := labels.foldl step s

variable {step : σ → ι → σ} {s : σ} {labels : List ι}

/-- The run of no label. -/
@[simp] theorem run_nil : run step s [] = s := rfl

/-- A run by its first label. -/
@[simp] theorem run_cons (l : ι) : run step s (l :: labels) = run step (step s l) labels := rfl

/-- A run in two parts. -/
theorem run_append (ls ms : List ι) : run step s (ls ++ ms) = run step (run step s ls) ms :=
  List.foldl_append

/-- What every step with a good label keeps, a run of good labels keeps. -/
theorem invariant (Inv : σ → Prop) (Good : ι → Prop)
    (hstep : ∀ s l, Good l → Inv s → Inv (step s l)) (hgood : ∀ l ∈ labels, Good l) (h : Inv s) :
    Inv (run step s labels) := by
  induction labels generalizing s with
  | nil => exact h
  | cons l ls ih =>
      rw [run_cons]
      exact ih (fun m hm => hgood m (List.mem_cons_of_mem _ hm))
        (hstep s l (hgood l List.mem_cons_self) h)

/-- A relation between states that every step keeps, with the same label on both sides, is kept by runs of the
same labels. -/
theorem run_rel (R : σ → σ → Prop) (hstep : ∀ s t l, R s t → R (step s l) (step t l)) {t : σ} (h : R s t) :
    R (run step s labels) (run step t labels) := by
  induction labels generalizing s t with
  | nil => exact h
  | cons l ls ih => exact ih (hstep s t l h)

/-- Every step of the run is taken in a state and by a label that satisfy `C`. -/
def Along (step : σ → ι → σ) (C : σ → ι → Prop) : σ → List ι → Prop
  | _, [] => True
  | s, l :: ls => C s l ∧ Along step C (step s l) ls

instance decidableAlong {C : σ → ι → Prop} [∀ s l, Decidable (C s l)] :
    ∀ (s : σ) (ls : List ι), Decidable (Along step C s ls)
  | _, [] => inferInstanceAs (Decidable True)
  | s, l :: ls => @instDecidableAnd _ _ (inferInstanceAs (Decidable (C s l))) (decidableAlong (step s l) ls)

/-- The condition along a run in two parts. -/
theorem along_append {C : σ → ι → Prop} {ls ms : List ι} :
    Along step C s (ls ++ ms) ↔ Along step C s ls ∧ Along step C (run step s ls) ms := by
  induction ls generalizing s with
  | nil => simp [Along]
  | cons l ls ih => simp [Along, ih, and_assoc]

/-- A condition on all labels can be added to one along the run. -/
theorem along_and_of_forall {G : ι → Prop} {C : σ → ι → Prop} (hG : ∀ l ∈ labels, G l)
    (h : Along step C s labels) : Along step (fun s l => G l ∧ C s l) s labels := by
  induction labels generalizing s with
  | nil => exact trivial
  | cons l ls ih =>
      exact ⟨⟨hG l List.mem_cons_self, h.1⟩, ih (fun m hm => hG m (List.mem_cons_of_mem _ hm)) h.2⟩

/-- What every step under `C` keeps, a run under `C` keeps. -/
theorem invariant_along (Inv : σ → Prop) (C : σ → ι → Prop)
    (hstep : ∀ s l, C s l → Inv s → Inv (step s l)) (halong : Along step C s labels) (h : Inv s) :
    Inv (run step s labels) := by
  induction labels generalizing s with
  | nil => exact h
  | cons l ls ih =>
      rw [run_cons]
      exact ih halong.2 (hstep s l halong.1 h)

/-- Under an invariant, conditions that are equivalent for every good label are so along a run of good
labels. -/
theorem along_congr {C D : σ → ι → Prop} (Inv : σ → Prop) {Good : ι → Prop}
    (hstep : ∀ s l, Good l → Inv s → Inv (step s l)) (hiff : ∀ s l, Good l → Inv s → (C s l ↔ D s l))
    (hgood : ∀ l ∈ labels, Good l) (h : Inv s) :
    Along step C s labels ↔ Along step D s labels := by
  induction labels generalizing s with
  | nil => exact Iff.rfl
  | cons l ls ih =>
      have hl := hgood l List.mem_cons_self
      exact and_congr (hiff s l hl h)
        (ih (fun m hm => hgood m (List.mem_cons_of_mem _ hm)) (hstep s l hl h))

/-- Where every step without `D` leads into `K`, no step leads out of `K`, and the run does not end in
`K`, every step of the run has `D`. -/
theorem along_of_not_final {D : σ → ι → Prop} (K : σ → Prop) (hbad : ∀ s l, ¬ D s l → K (step s l))
    (hkeep : ∀ s l, K s → K (step s l)) (hend : ¬ K (run step s labels)) : Along step D s labels := by
  induction labels generalizing s with
  | nil => exact trivial
  | cons l ls ih =>
      have hrun : K (step s l) → K (run step (step s l) ls) :=
        invariant K (fun _ => True) (fun s l _ hK => hkeep s l hK) fun _ _ => trivial
      refine ⟨?_, ih hend⟩
      apply Classical.byContradiction
      intro hD
      exact hend (hrun (hbad s l hD))

/-- What an invariant implies of every step holds along a run. -/
theorem along_of_invariant {C : σ → ι → Prop} (Inv : σ → Prop)
    (hstep : ∀ s l, Inv s → Inv (step s l) ∧ C s l) (h : Inv s) : Along step C s labels := by
  induction labels generalizing s with
  | nil => exact trivial
  | cons l ls ih => exact ⟨(hstep s l h).2, ih (hstep s l h).1⟩

/-- What an invariant and a condition along the run imply of every step holds along the run. -/
theorem along_of_along {C D : σ → ι → Prop} (Inv : σ → Prop)
    (hstep : ∀ s l, C s l → Inv s → Inv (step s l) ∧ D s l) (halong : Along step C s labels) (h : Inv s) :
    Along step D s labels := by
  induction labels generalizing s with
  | nil => exact trivial
  | cons l ls ih =>
      obtain ⟨hinv, hd⟩ := hstep s l halong.1 h
      exact ⟨hd, ih halong.2 hinv⟩

/-- Two conditions along a run. -/
theorem along_and {C D : σ → ι → Prop} :
    Along step (fun s l => C s l ∧ D s l) s labels ↔ Along step C s labels ∧ Along step D s labels := by
  induction labels generalizing s with
  | nil => simp [Along]
  | cons l ls ih => simp [Along, ih, and_and_and_comm]

/-- A family of conditions along a run. -/
theorem along_forall {C : κ → σ → ι → Prop} :
    Along step (fun s l => ∀ k, C k s l) s labels ↔ ∀ k, Along step (C k) s labels := by
  induction labels generalizing s with
  | nil => simp [Along]
  | cons l ls ih => simp [Along, ih, forall_and]

/-! ## Charges -/

section charged

variable {α : Type} [AddMonoid α]

/-- The charge of the steps of a run, added up. -/
def charged (step : σ → ι → σ) (charge : σ → ι → α) : σ → List ι → α
  | _, [] => 0
  | s, l :: ls => charge s l + charged step charge (step s l) ls

variable {charge : σ → ι → α}

/-- Where every step under `C` balances a quantity and two charges, so does a run under `C`. -/
theorem balance {α : Type} [AddCommMonoid α] (f : σ → α) {c d : σ → ι → α} {C : σ → ι → Prop}
    (hstep : ∀ s l, C s l → f (step s l) + c s l = f s + d s l) (halong : Along step C s labels) :
    f (run step s labels) + charged step c s labels = f s + charged step d s labels := by
  induction labels generalizing s with
  | nil => simp [charged]
  | cons l ls ih =>
      rw [run_cons, charged, charged, add_left_comm, ih halong.2, ← add_assoc, add_comm (c s l),
        hstep s l halong.1, add_assoc]

/-- A run is charged nothing exactly if no step of it is. -/
theorem charged_eq_zero_iff {charge : σ → ι → ℕ} :
    charged step charge s labels = 0 ↔ Along step (fun s l => charge s l = 0) s labels := by
  induction labels generalizing s with
  | nil => simp [charged, Along]
  | cons l ls ih => simp [charged, Along, ih]

/-- Where every step under an invariant pays its charge out of a quantity, a run costs no more than there is. -/
theorem charged_le (Inv : σ → Prop) (f : σ → ℕ) {charge : σ → ι → ℕ}
    (hstep : ∀ s l, Inv s → Inv (step s l) ∧ f (step s l) + charge s l ≤ f s) (h : Inv s) :
    charged step charge s labels ≤ f s := by
  induction labels generalizing s with
  | nil => exact Nat.zero_le _
  | cons l ls ih =>
      obtain ⟨hinv, hpaid⟩ := hstep s l h
      have hrest := ih hinv
      rw [charged]
      omega

/-- A charge in another currency. -/
theorem charged_map {β : Type} [AddMonoid β] (g : α →+ β) (step : σ → ι → σ) (charge : σ → ι → α)
    (s : σ) (labels : List ι) :
    charged step (fun s l => g (charge s l)) s labels = g (charged step charge s labels) := by
  induction labels generalizing s with
  | nil => simp [charged]
  | cons l ls ih => simp only [charged, ih, map_add]

end charged

/-! ## Records -/

section emitted

variable {α : Type} {out : σ → ι → List α}

/-- What the steps of a run put out, in order. -/
def emitted (step : σ → ι → σ) (out : σ → ι → List α) : σ → List ι → List α
  | _, [] => []
  | s, l :: ls => out s l ++ emitted step out (step s l) ls

/-- The record of a run in two parts. -/
theorem emitted_append (ls ms : List ι) : emitted step out s (ls ++ ms) =
    emitted step out s ls ++ emitted step out (run step s ls) ms := by
  induction ls generalizing s with
  | nil => rfl
  | cons l ls ih => simp [emitted, ih]

/-- What every step keeps together with the record so far, a run does. -/
theorem invariant_emitted (Inv : σ → List α → Prop)
    (hstep : ∀ ls l, Inv (run step s ls) (emitted step out s ls) →
      Inv (run step s (ls ++ [l])) (emitted step out s (ls ++ [l]))) (h : Inv s []) :
    Inv (run step s labels) (emitted step out s labels) := by
  induction labels using List.reverseRecOn with
  | nil => exact h
  | append_singleton ls l ih => exact hstep ls l ih

end emitted

/-- What every step of a relation keeps, every reachable state has. -/
theorem reachable {Step : σ → σ → Prop} {Inv : σ → Prop}
    (hstep : ∀ s s', Step s s' → Inv s → Inv s') {s s' : σ} (h : Inv s)
    (hr : Relation.ReflTransGen Step s s') : Inv s' := by
  induction hr with
  | refl => exact h
  | tail _ hs ih => exact hstep _ _ hs ih

/-! ## Parties

The parties of a system as a list; a step replaces the one at position `i`. -/

section parties

variable {α β : Type} {parties : List α} {i : ℕ} {a b : α}

/-- What a party's step keeps of it, the step keeps of all. -/
theorem map_set_of_eq {f : α → β} (ha : parties[i]? = some a) (hf : f b = f a) :
    (parties.set i b).map f = parties.map f := by
  obtain ⟨hi, rfl⟩ := List.getElem?_eq_some_iff.mp ha
  rw [List.map_set, hf]
  apply List.ext_getElem?
  intro j
  rw [List.getElem?_set]
  split
  · rename_i hij
    subst hij
    simp [hi]
  · rfl

/-- A total over the parties moves by the difference of the party that takes the step. -/
theorem sum_map_set (f : α → ℕ) (ha : parties[i]? = some a) :
    ((parties.set i b).map f).sum + f a = (parties.map f).sum + f b := by
  induction parties generalizing i with
  | nil => simp at ha
  | cons c parties ih =>
      cases i with
      | zero =>
          simp only [List.getElem?_cons_zero, Option.some.injEq] at ha
          subst ha
          simp only [List.set_cons_zero, List.map_cons, List.sum_cons]
          omega
      | succ i =>
          have htail := ih (by simpa using ha)
          simp only [List.set_cons_succ, List.map_cons, List.sum_cons]
          omega

/-- A property of one party, over the step of any party that keeps it. -/
theorem getElem?_set_of_imp {Q : α → Prop} {j : ℕ} (ha : parties[i]? = some a) (hQ : Q a → Q b)
    (h : ∃ c, parties[j]? = some c ∧ Q c) : ∃ c, (parties.set i b)[j]? = some c ∧ Q c := by
  obtain ⟨c, hc, hQc⟩ := h
  rw [List.getElem?_set]
  split
  · rename_i hij
    subst hij
    obtain ⟨hi, -⟩ := List.getElem?_eq_some_iff.mp ha
    rw [ha, Option.some.injEq] at hc
    subst hc
    exact ⟨b, by rw [if_pos hi], hQ hQc⟩
  · exact ⟨c, hc, hQc⟩

end parties

end Runs
