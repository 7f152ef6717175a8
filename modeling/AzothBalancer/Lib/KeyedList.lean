import Mathlib.Data.List.Forall2
import Mathlib.Data.List.Nodup

/-!
# Records in a list, found by key

A list of records searched from the front by a key, as a vector of structures is searched with a
`find` on one of its fields:

* `lookup key k l` — the first record of `l` whose key is `k`;
* `update key k f l` — `l` with `f` applied to that record, and to no other.

When `f` keeps the key, `update` keeps the list of keys (`map_update_of_eq`), acts on `lookup` at `k`
as `Option.map f` (`lookup_update_self`) and is invisible at every other key
(`lookup_update_of_ne`). With pairwise distinct keys a record is found under its own key
(`lookup_of_mem`), so `lookup` is a complete view of the list.

`firsts key l` drops every record whose key occurs before it: the keys become distinct, and what is
found under a key stays.

The last section is about two lists whose records correspond one by one under equal keys.
-/

namespace KeyedList

variable {α κ : Type} [DecidableEq κ] (key : α → κ)

/-- The first record whose key is `k`. -/
def lookup (k : κ) (l : List α) : Option α := l.find? fun a => key a = k

/-- `l` with `f` applied to the first record whose key is `k`. -/
def update (k : κ) (f : α → α) : List α → List α
  | [] => []
  | a :: as => if key a = k then f a :: as else a :: update k f as

variable {key} {k k' : κ} {l : List α} {a b : α}

/-- No record of the empty list is found. -/
@[simp] theorem lookup_nil : lookup key k [] = none := rfl

/-- The first record decides, if its key is the one sought. -/
theorem lookup_cons : lookup key k (a :: l) = if key a = k then some a else lookup key k l := by
  unfold lookup
  by_cases h : key a = k <;> simp [h]

/-- A record that is found has the key sought. -/
theorem key_of_lookup (h : lookup key k l = some a) : key a = k := by
  simpa using List.find?_some h

/-- A record that is found is in the list. -/
theorem mem_of_lookup (h : lookup key k l = some a) : a ∈ l := List.mem_of_find?_eq_some h

/-- Nothing is found exactly when the key is not in the list. -/
theorem lookup_eq_none_iff : lookup key k l = none ↔ k ∉ l.map key := by
  simp [lookup, List.find?_eq_none]

/-- Something is found exactly when the key is in the list. -/
theorem lookup_isSome_iff : (lookup key k l).isSome ↔ k ∈ l.map key := by
  rw [← not_iff_not, ← lookup_eq_none_iff, Option.not_isSome_iff_eq_none]

/-- A key of the list is found, under some record with that key. -/
theorem exists_lookup (h : k ∈ l.map key) : ∃ a, lookup key k l = some a :=
  Option.isSome_iff_exists.mp (lookup_isSome_iff.mpr h)

/-- With pairwise distinct keys, every record is the one found under its key. -/
theorem lookup_of_mem (hn : (l.map key).Nodup) (ha : a ∈ l) : lookup key (key a) l = some a := by
  induction l with
  | nil => simp at ha
  | cons b l ih =>
      rw [List.map_cons, List.nodup_cons] at hn
      rw [lookup_cons]
      rcases List.mem_cons.mp ha with rfl | ha'
      · simp
      · have hne : key b ≠ key a := fun h => hn.1 (h ▸ List.mem_map_of_mem ha')
        rw [if_neg hne]
        exact ih hn.2 ha'

/-- With pairwise distinct keys, the order of the records does not matter. -/
theorem lookup_perm {l' : List α} (hp : l'.Perm l) (hn : (l.map key).Nodup) :
    lookup key k l' = lookup key k l := by
  have hn' : (l'.map key).Nodup := (hp.map key).nodup_iff.mpr hn
  rcases h : lookup key k l with _ | a
  · rw [lookup_eq_none_iff] at h ⊢
    exact fun hmem => h ((hp.map key).subset hmem)
  · have hin : a ∈ l' := hp.symm.subset (mem_of_lookup h)
    rw [← key_of_lookup h]
    exact lookup_of_mem hn' hin

/-- Lists with the same pairwise distinct keys in the same order are told apart under some key. -/
theorem ext_lookup {l' : List α} (hkeys : l'.map key = l.map key) (hn : (l.map key).Nodup)
    (h : ∀ k, lookup key k l' = lookup key k l) : l' = l := by
  induction l generalizing l' with
  | nil => exact List.map_eq_nil_iff.mp hkeys
  | cons a l ih =>
      obtain ⟨a', as', rfl, hkey, hrest⟩ := List.map_eq_cons_iff.mp hkeys
      rw [List.map_cons, List.nodup_cons] at hn
      have hhead : a' = a := by
        have ha := h (key a)
        rw [lookup_cons, lookup_cons, if_pos hkey, if_pos rfl] at ha
        exact Option.some.inj ha
      subst hhead
      rw [ih hrest hn.2 fun k => ?_]
      have hk := h k
      rw [lookup_cons, lookup_cons] at hk
      by_cases hak : key a' = k
      · have hnone : lookup key k l = none := lookup_eq_none_iff.mpr (hak ▸ hn.1)
        have hnone' : lookup key k as' = none := lookup_eq_none_iff.mpr (hrest ▸ hak ▸ hn.1)
        rw [hnone, hnone']
      · rwa [if_neg hak, if_neg hak] at hk

section update

variable {f : α → α}

/-- `update` on a list, by its first record. -/
theorem update_cons : update key k f (a :: l) =
    if key a = k then f a :: l else a :: update key k f l := rfl

/-- An update that keeps a projection of the records keeps the list of projections. -/
theorem map_update_of_eq {β : Type} {g : α → β} (hf : ∀ a, g (f a) = g a) :
    (update key k f l).map g = l.map g := by
  induction l with
  | nil => rfl
  | cons b l ih =>
      rw [update_cons]
      split
      · simp [hf]
      · simp [ih]

/-- At the updated key, the update acts on what is found. -/
theorem lookup_update_self (hf : ∀ a, key (f a) = key a) :
    lookup key k (update key k f l) = (lookup key k l).map f := by
  induction l with
  | nil => rfl
  | cons b l ih =>
      rw [update_cons, lookup_cons]
      by_cases h : key b = k
      · rw [if_pos h, if_pos h, lookup_cons, hf, if_pos h]
        rfl
      · rw [if_neg h, if_neg h, lookup_cons, if_neg h, ih]

/-- At every other key, the update is invisible. -/
theorem lookup_update_of_ne (hf : ∀ a, key (f a) = key a) (h : k' ≠ k) :
    lookup key k' (update key k f l) = lookup key k' l := by
  induction l with
  | nil => rfl
  | cons b l ih =>
      rw [update_cons]
      by_cases hb : key b = k
      · have hb' : key b ≠ k' := fun e => h (e.symm.trans hb)
        rw [if_pos hb, lookup_cons, lookup_cons, hf, if_neg hb', if_neg hb']
      · rw [if_neg hb, lookup_cons, lookup_cons, ih]

/-- What is found after an update, at any key. -/
theorem lookup_update (hf : ∀ a, key (f a) = key a) :
    lookup key k' (update key k f l) =
      if k' = k then (lookup key k' l).map f else lookup key k' l := by
  split
  · rename_i h
    rw [h, lookup_update_self hf]
  · rename_i h
    exact lookup_update_of_ne hf h

end update

section firsts

variable (key)

/-- The first record of each key, in order. -/
def firsts : List α → List α
  | [] => []
  | a :: as => a :: (firsts as).filter fun b => key b ≠ key a

variable {key}

/-- The first records are part of the list, in its order. -/
theorem firsts_sublist (l : List α) : (firsts key l).Sublist l := by
  induction l with
  | nil => exact List.Sublist.slnil
  | cons a l ih => exact (List.filter_sublist.trans ih).cons_cons a

/-- The first records have distinct keys. -/
theorem nodup_firsts (l : List α) : ((firsts key l).map key).Nodup := by
  induction l with
  | nil => exact List.nodup_nil
  | cons a l ih =>
      rw [firsts, List.map_cons, List.nodup_cons]
      refine ⟨?_, ih.sublist (List.filter_sublist.map key)⟩
      intro hmem
      obtain ⟨b, hb, hkey⟩ := List.mem_map.mp hmem
      have hne := (List.mem_filter.mp hb).2
      simp [hkey] at hne

/-- Under every key, the same record is found. -/
theorem lookup_firsts (k : κ) (l : List α) : lookup key k (firsts key l) = lookup key k l := by
  induction l with
  | nil => rfl
  | cons a l ih =>
      rw [firsts, lookup_cons, lookup_cons, ← ih]
      by_cases hk : key a = k
      · rw [if_pos hk, if_pos hk]
      · rw [if_neg hk, if_neg hk]
        unfold lookup
        rw [List.find?_filter]
        congr 1
        funext b
        by_cases hb : key b = k
        · simp [hb, Ne.symm hk]
        · simp [hb]

/-- Where the keys are distinct, every record is a first one. -/
theorem firsts_of_nodup {l : List α} (h : (l.map key).Nodup) : firsts key l = l := by
  induction l with
  | nil => rfl
  | cons a l ih =>
      rw [List.map_cons, List.nodup_cons] at h
      rw [firsts, ih h.2, List.filter_eq_self.mpr]
      intro b hb
      have hne : key b ≠ key a := fun heq => h.1 (heq ▸ List.mem_map_of_mem hb)
      simpa using hne

/-- There is a first record if there is a record. -/
theorem firsts_eq_nil {l : List α} : firsts key l = [] ↔ l = [] := by
  cases l <;> simp [firsts]

end firsts

section forall₂

variable {β γ : Type} {key' : β → κ} {R : α → β → Prop} {m : List β} {c : β}

/-- Records that agree on a value one by one give equal lists of values. -/
theorem map_eq_of_forall₂ {f : α → γ} {g : β → γ} (hR : ∀ a b, R a b → f a = g b)
    (h : List.Forall₂ R l m) : l.map f = m.map g := by
  rw [← List.forall₂_eq_eq_eq, List.forall₂_map_left_iff, List.forall₂_map_right_iff]
  exact h.imp hR

/-- Every record on the right has one on the left. -/
theorem exists_left_of_forall₂ (h : List.Forall₂ R l m) (hc : c ∈ m) : ∃ a ∈ l, R a c := by
  induction h with
  | nil => simp at hc
  | @cons a b l m hab _ ih =>
      rcases List.mem_cons.mp hc with rfl | hc'
      · exact ⟨a, List.mem_cons_self, hab⟩
      · obtain ⟨a', ha', hR⟩ := ih hc'
        exact ⟨a', List.mem_cons_of_mem _ ha', hR⟩

/-- Every record on the left has one on the right. -/
theorem exists_right_of_forall₂ (h : List.Forall₂ R l m) (ha : a ∈ l) : ∃ b ∈ m, R a b :=
  exists_left_of_forall₂ h.flip ha

/-- What is found on the left under a key corresponds to what is found on the right. -/
theorem lookup_forall₂ (hkey : ∀ a b, R a b → key a = key' b) (h : List.Forall₂ R l m)
    (ha : lookup key k l = some a) : ∃ b, lookup key' k m = some b ∧ R a b := by
  induction h with
  | nil => simp at ha
  | @cons a' b l m hab _ ih =>
      rw [lookup_cons] at ha
      rw [lookup_cons, ← hkey a' b hab]
      by_cases hk : key a' = k
      · rw [if_pos hk] at ha ⊢
        cases ha
        exact ⟨b, rfl, hab⟩
      · rw [if_neg hk] at ha ⊢
        exact ih ha

end forall₂

end KeyedList
