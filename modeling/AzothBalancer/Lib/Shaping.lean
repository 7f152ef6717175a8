import Mathlib.Algebra.BigOperators.Group.List.Basic
import Mathlib.Algebra.Order.BigOperators.Group.List
import Mathlib.Algebra.Order.Sub.Basic
import Mathlib.Data.List.Induction
import Mathlib.Order.Lattice

/-!
# Traffic contracts and the leaky bucket

What a shaper has admitted is a log of times and amounts, oldest first. The log keeps the contract of a depth
(`Conforms`) if within every window of time no more has been admitted than the depth and the length of the
window; amounts and times are measured in the same unit.

A leaky bucket of that depth fills by every amount it admits and drains with time. `backlog` is what is in it,
read off the log.

* `backlog_add_le_iff` — an amount fits on top of the backlog exactly if no window up to now would be
  overfull.
* `conforms_append_iff` — hence the contract is kept by admitting what fits, and by nothing else.
* `Bucket.admit_iff` — a bucket that stores a level and a time admits exactly what keeps the contract.
-/

set_option linter.unusedSectionVars false

namespace Shaping

variable {τ : Type} [AddCommMonoid τ] [LinearOrder τ]

/-- The amount admitted. -/
def total (log : List (τ × τ)) : τ := (log.map Prod.snd).sum

/-- The part of a log from `s` on. -/
def since (s : τ) (log : List (τ × τ)) : List (τ × τ) := log.filter fun g => s ≤ g.1

/-- The part of a log between two times. -/
def window (s t : τ) (log : List (τ × τ)) : List (τ × τ) := log.filter fun g => s ≤ g.1 ∧ g.1 ≤ t

/-- Nothing has been admitted after `t`. -/
def EndsBy (t : τ) (log : List (τ × τ)) : Prop := ∀ g ∈ log, g.1 ≤ t

/-- The times of a log do not go back. -/
def Ordered (log : List (τ × τ)) : Prop := log.Pairwise fun g h => g.1 ≤ h.1

section total

variable {s t u w : τ} {log : List (τ × τ)}

/-- The total of a longer log. -/
@[simp] theorem total_append (log log' : List (τ × τ)) : total (log ++ log') = total log + total log' := by
  simp [total]

/-- The total of one amount. -/
@[simp] theorem total_singleton (g : τ × τ) : total [g] = g.2 := by simp [total]

/-- Nothing has been admitted. -/
@[simp] theorem total_nil : total ([] : List (τ × τ)) = 0 := rfl

/-- A log that ends later. -/
theorem EndsBy.mono (h : EndsBy t log) (htu : t ≤ u) : EndsBy u log := fun g hg => (h g hg).trans htu

/-- An ordered log, from its end. -/
theorem ordered_append_singleton : Ordered (log ++ [(u, w)]) ↔ Ordered log ∧ EndsBy u log := by
  unfold Ordered EndsBy
  rw [List.pairwise_append]
  simp

/-- The last amount lies in the part from `s` on, if its time does. -/
theorem since_append_of_le (h : s ≤ u) : since s (log ++ [(u, w)]) = since s log ++ [(u, w)] := by
  simp [since, h]

/-- After the end of a log there is nothing. -/
theorem since_eq_nil (h : EndsBy t log) (hst : t < s) : since s log = [] := by
  rw [since, List.filter_eq_nil_iff]
  intro g hg
  simpa using lt_of_le_of_lt (h g hg) hst

/-- A window that reaches to the end of the log. -/
theorem window_eq_since (h : EndsBy t log) : window s t log = since s log := by
  refine List.filter_congr fun g hg => ?_
  simp [h g hg]

/-- A window that ends before an amount does not contain it. -/
theorem window_append_of_lt (h : t < u) : window s t (log ++ [(u, w)]) = window s t log := by
  simp [window, h]

end total

variable [IsOrderedCancelAddMonoid τ] [CanonicallyOrderedAdd τ] [Sub τ] [OrderedSub τ]

/-- The contract: in every window, at most the depth and the length of the window. -/
def Conforms (depth : τ) (log : List (τ × τ)) : Prop :=
  ∀ s t, s ≤ t → total (window s t log) ≤ depth + (t - s)

/-- What is in the bucket at time `t`; the log is given latest first. -/
def backlogOf : List (τ × τ) → τ → τ
  | [], _ => 0
  | (u, w) :: log, t => backlogOf log u + w - (t - u)

/-- What is in the bucket at time `t`. -/
def backlog (log : List (τ × τ)) (t : τ) : τ := backlogOf log.reverse t

/-- Nothing has been admitted. -/
@[simp] theorem backlog_nil (t : τ) : backlog ([] : List (τ × τ)) t = 0 := rfl

/-- The bucket after one more amount. -/
@[simp] theorem backlog_append (log : List (τ × τ)) (u w t : τ) :
    backlog (log ++ [(u, w)]) t = backlog log u + w - (t - u) := by
  simp [backlog, backlogOf]

/-- A truncated difference under a bound. -/
theorem sub_add_le_iff {a b c d : τ} : a - d + c ≤ b ↔ c ≤ b ∧ a + c ≤ b + d := by
  rcases le_total a d with had | hda
  · rw [tsub_eq_zero_of_le had, zero_add]
    refine ⟨fun h => ⟨h, ?_⟩, fun h => h.1⟩
    rw [add_comm b d]
    exact add_le_add had h
  · rw [tsub_add_eq_add_tsub hda, tsub_le_iff_right]
    refine ⟨fun h => ⟨?_, h⟩, fun h => h.2⟩
    have hle : d + c ≤ d + b := by
      rw [add_comm d b]
      exact (add_le_add_left hda c).trans h
    exact le_of_add_le_add_left hle

/-- **What fits on top of the backlog**: an amount that no window up to now is overfull with. -/
theorem backlog_add_le_iff (log : List (τ × τ)) {t c depth : τ} (hord : Ordered log)
    (hend : EndsBy t log) : backlog log t + c ≤ depth ↔
      c ≤ depth ∧ ∀ s, s ≤ t → total (since s log) + c ≤ depth + (t - s) := by
  induction log using List.reverseRecOn generalizing t c depth with
  | nil =>
      simp only [backlog_nil, zero_add, since, List.filter_nil, total_nil]
      exact ⟨fun h => ⟨h, fun s _ => h.trans le_self_add⟩, fun h => h.1⟩
  | append_singleton log g ih =>
      obtain ⟨u, w⟩ := g
      obtain ⟨hord', hend'⟩ := ordered_append_singleton.mp hord
      have hut : u ≤ t := hend (u, w) (by simp)
      have hsplit : ∀ s, s ≤ u → t - u + (u - s) = t - s := fun s hs => tsub_add_tsub_cancel hut hs
      rw [backlog_append, sub_add_le_iff, add_assoc, ih hord' hend']
      constructor
      · rintro ⟨hc, -, hwin⟩
        refine ⟨hc, fun s hst => ?_⟩
        rcases le_or_gt s u with hsu | hus
        · have h := hwin s hsu
          rw [add_assoc depth, hsplit s hsu] at h
          rw [since_append_of_le hsu, total_append, total_singleton, add_assoc]
          exact h
        · rw [since_eq_nil (t := u) _ hus]
          · rw [total_nil, zero_add]
            exact hc.trans le_self_add
          · intro g hg
            rcases List.mem_append.mp hg with hold | hnew
            · exact hend' g hold
            · rw [List.mem_singleton.mp hnew]
      · rintro ⟨hc, hwin⟩
        have hsince : ∀ s, s ≤ u → total (since s log) + (w + c) ≤ depth + (t - u) + (u - s) := by
          intro s hsu
          have h := hwin s (hsu.trans hut)
          rw [since_append_of_le hsu, total_append, total_singleton, add_assoc] at h
          rwa [add_assoc depth, hsplit s hsu]
        refine ⟨hc, ?_, hsince⟩
        have h := hsince u le_rfl
        rw [tsub_self, add_zero] at h
        exact le_add_self.trans h

/-- **The contract is kept by admitting what fits.** -/
theorem conforms_append_iff {log : List (τ × τ)} {now w depth : τ} (hord : Ordered log)
    (hend : EndsBy now log) : Conforms depth (log ++ [(now, w)]) ↔
      Conforms depth log ∧ backlog log now + w ≤ depth := by
  have hend' : EndsBy now (log ++ [(now, w)]) := by
    intro g hg
    rcases List.mem_append.mp hg with hold | hnew
    · exact hend g hold
    · rw [List.mem_singleton.mp hnew]
  rw [backlog_add_le_iff log hord hend]
  constructor
  · intro h
    refine ⟨fun s t hst => ?_, ?_, fun s hs => ?_⟩
    · have hsub : (window s t log).Sublist (window s t (log ++ [(now, w)])) :=
        (List.sublist_append_left log _).filter _
      exact ((hsub.map Prod.snd).sum_le_sum fun _ _ => zero_le).trans (h s t hst)
    · have hnow := h now now le_rfl
      rw [window_eq_since hend', since_append_of_le le_rfl, total_append, total_singleton, tsub_self,
        add_zero] at hnow
      exact le_add_self.trans hnow
    · have hs' := h s now hs
      rwa [window_eq_since hend', since_append_of_le hs, total_append, total_singleton] at hs'
  · rintro ⟨hold, hw, hwin⟩ s t hst
    rcases lt_or_ge t now with hlt | hge
    · rw [window_append_of_lt hlt]
      exact hold s t hst
    · rw [window_eq_since (hend'.mono hge)]
      rcases le_or_gt s now with hs | hs
      · rw [since_append_of_le hs, total_append, total_singleton]
        exact (hwin s hs).trans (add_le_add_right (tsub_le_tsub_right hge s) depth)
      · rw [since_eq_nil hend' hs, total_nil]
        exact zero_le

/-! ## The stored bucket -/

/-- A bucket as it is stored: its level, and when that was the level. -/
structure Bucket (τ : Type) where
  level : τ
  lastUpdate : τ

/-- The level at a later time. -/
def Bucket.drained (b : Bucket τ) (now : τ) : τ := b.level - (now - b.lastUpdate)

/-- The bucket after an amount that fits. -/
def Bucket.fill (b : Bucket τ) (now w : τ) : Bucket τ := ⟨b.drained now + w, now⟩

/-- The bucket holds what the log says, from the end of the log on. -/
structure Bucket.Represents (b : Bucket τ) (log : List (τ × τ)) : Prop where
  ordered : Ordered log
  endsBy : EndsBy b.lastUpdate log
  drained : ∀ t, b.lastUpdate ≤ t → b.drained t = backlog log t

/-- An empty bucket. -/
theorem Bucket.represents_nil : Bucket.Represents (⟨0, 0⟩ : Bucket τ) [] where
  ordered := List.Pairwise.nil
  endsBy _ hg := by cases hg
  drained t _ := by
    rw [Bucket.drained, backlog_nil]
    exact zero_tsub _

/-- A filled bucket. -/
theorem Bucket.Represents.fill {b : Bucket τ} {log : List (τ × τ)} (h : b.Represents log) {now w : τ}
    (hnow : b.lastUpdate ≤ now) : (b.fill now w).Represents (log ++ [(now, w)]) where
  ordered := ordered_append_singleton.mpr ⟨h.ordered, h.endsBy.mono hnow⟩
  endsBy := by
    intro g hg
    rcases List.mem_append.mp hg with hold | hnew
    · exact (h.endsBy g hold).trans hnow
    · rw [List.mem_singleton.mp hnew]
      exact le_rfl
  drained t _ := by
    rw [backlog_append, ← h.drained now hnow]
    rfl

/-- **A bucket admits exactly what keeps the contract.** -/
theorem Bucket.admit_iff {b : Bucket τ} {log : List (τ × τ)} (h : b.Represents log) {depth now w : τ}
    (hold : Conforms depth log) (hnow : b.lastUpdate ≤ now) :
    b.drained now + w ≤ depth ↔ Conforms depth (log ++ [(now, w)]) := by
  rw [conforms_append_iff h.ordered (h.endsBy.mono hnow), ← h.drained now hnow]
  exact ⟨fun hfits => ⟨hold, hfits⟩, fun hfits => hfits.2⟩

/-- The empty log keeps every contract. -/
theorem conforms_nil (depth : τ) : Conforms depth ([] : List (τ × τ)) := fun _ _ _ => zero_le

end Shaping
