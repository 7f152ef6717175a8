import AzothBalancer.Lib.Runs

/-!
# Interleaved programs over a shared object

Operations that are programs of atomic actions on one shared object. A thread runs the program of its
operation (`Thread`), and a step takes the next action of one thread (`State.step`), so a list of thread
numbers is one interleaving.

* `exists_trace` — the object is what the actions taken so far make of it, in the order in which they were
  taken; where every thread has finished or has not begun, these are the actions of the finished
  operations.
* `foldl_eq_of_acts` — an object with several registers, seen at one of them.
* `exists_order` — the orders in which two registers were written can be put together to one order of the
  operations, if whatever writes both does one and the same thing to the second.
-/

namespace Interleave

variable {σ α ω : Type}

/-- An operation that has taken the actions `past` and has still to take `rest`. -/
structure Thread (program : ω → List α) where
  op : ω
  past : List α
  rest : List α
  split : past ++ rest = program op

variable {program : ω → List α}

/-- An operation that has not begun. -/
def Thread.start (program : ω → List α) (op : ω) : Thread program := ⟨op, [], program op, rfl⟩

/-- The next action of a thread, and the thread after it. -/
def Thread.next (t : Thread program) : Option (α × Thread program) :=
  match h : t.rest with
  | [] => none
  | a :: rest => some (a, ⟨t.op, t.past ++ [a], rest, by rw [← t.split, h]; simp⟩)

/-- The shared object and the threads. -/
structure State (σ : Type) (program : ω → List α) where
  shared : σ
  threads : List (Thread program)

namespace State

/-- No operation has begun. -/
def start (s : σ) (ops : List ω) : State σ program := ⟨s, ops.map (Thread.start program)⟩

/-- The next action of the thread at position `i`. -/
def step (act : σ → α → σ) (s : State σ program) (i : ℕ) : State σ program :=
  match s.threads[i]? with
  | none => s
  | some t =>
      match t.next with
      | none => s
      | some (a, t) => ⟨act s.shared a, s.threads.set i t⟩

/-- The state after an interleaving. -/
def run (act : σ → α → σ) (s : State σ program) (schedule : List ℕ) : State σ program :=
  Runs.run (step act) s schedule

/-- Every thread has finished or has not begun. -/
def Quiescent (s : State σ program) : Prop := ∀ t ∈ s.threads, t.past = [] ∨ t.rest = []

instance [DecidableEq α] (s : State σ program) : Decidable s.Quiescent :=
  inferInstanceAs (Decidable (∀ t ∈ s.threads, _))

/-- The operations that have begun. -/
def begun (s : State σ program) : List ω :=
  (s.threads.filter fun t => !t.past.isEmpty).map Thread.op

end State

/-! ## The actions taken -/

/-- The step of a thread moves one action to its past. -/
theorem next_eq_some {t t' : Thread program} {a : α} (h : t.next = some (a, t')) :
    t'.op = t.op ∧ t'.past = t.past ++ [a] := by
  unfold Thread.next at h
  split at h
  · cases h
  · cases h
    exact ⟨rfl, rfl⟩

/-- The actions of all threads after one of them has taken another. -/
theorem flatMap_past_set {threads : List (Thread program)} {i : ℕ} {t t' : Thread program} {a : α}
    (hi : threads[i]? = some t) (ha : t'.past = t.past ++ [a]) :
    ((threads.set i t').flatMap Thread.past).Perm (threads.flatMap Thread.past ++ [a]) := by
  induction threads generalizing i with
  | nil => simp at hi
  | cons u threads ih =>
      rcases i with _ | i
      · rw [List.getElem?_cons_zero, Option.some.injEq] at hi
        subst hi
        rw [List.set_cons_zero, List.flatMap_cons, List.flatMap_cons, ha, List.append_assoc,
          List.append_assoc]
        exact List.perm_append_comm.append_left _
      · rw [List.getElem?_cons_succ] at hi
        rw [List.set_cons_succ, List.flatMap_cons, List.flatMap_cons, List.append_assoc]
        exact (ih hi).append_left _

variable {act : σ → α → σ}

/-- What the steps have done: the object is what the trace makes of it, and the trace consists of the
actions taken. -/
structure Explained (act : σ → α → σ) (s₀ : σ) (ops : List ω) (s : State σ program) (trace : List α) :
    Prop where
  shared : s.shared = trace.foldl act s₀
  taken : trace.Perm (s.threads.flatMap Thread.past)
  ops : s.threads.map Thread.op = ops

/-- Before the first step. -/
theorem explained_start (s₀ : σ) (ops : List ω) :
    Explained act s₀ ops (State.start s₀ ops : State σ program) [] where
  shared := rfl
  taken := by
    have hpast : ∀ ops : List ω, (ops.map (Thread.start program)).flatMap Thread.past = [] := by
      intro ops
      simp [Thread.start]
    rw [State.start, hpast]
  ops := by simp [State.start, Thread.start, Function.comp_def]

/-- A step adds its action to the trace. -/
theorem Explained.step {s₀ : σ} {ops : List ω} {s : State σ program} {trace : List α}
    (h : Explained act s₀ ops s trace) (i : ℕ) : ∃ trace', Explained act s₀ ops (s.step act i) trace' := by
  unfold State.step
  split
  · exact ⟨trace, h⟩
  · rename_i t hi
    split
    · exact ⟨trace, h⟩
    · rename_i a t' hnext
      obtain ⟨hop, hpast⟩ := next_eq_some hnext
      refine ⟨trace ++ [a], ?_, ?_, ?_⟩
      · rw [List.foldl_append, ← h.shared]
        rfl
      · exact (h.taken.append_right [a]).trans (flatMap_past_set hi hpast).symm
      · exact (Runs.map_set_of_eq hi hop).trans h.ops

/-- **Every interleaving is explained by a trace.** -/
theorem exists_explained (program : ω → List α) (act : σ → α → σ) (s₀ : σ) (ops : List ω) (schedule : List ℕ) :
    ∃ trace, Explained act s₀ ops ((State.start s₀ ops : State σ program).run act schedule) trace :=
  Runs.invariant (fun s => ∃ trace, Explained act s₀ ops s trace) (fun _ => True)
    (fun _ i _ h => h.choose_spec.step i) (fun _ _ => trivial) ⟨[], explained_start s₀ ops⟩

/-- In a quiescent state, the actions taken are those of the operations that have begun. -/
theorem flatMap_past_of_quiescent {s : State σ program} (h : s.Quiescent) :
    s.threads.flatMap Thread.past = s.begun.flatMap program := by
  have hall : ∀ threads : List (Thread program), (∀ t ∈ threads, t.past = [] ∨ t.rest = []) →
      threads.flatMap Thread.past =
        ((threads.filter fun t => !t.past.isEmpty).map Thread.op).flatMap program := by
    intro threads hq
    induction threads with
    | nil => rfl
    | cons t threads ih =>
        rw [List.flatMap_cons, ih fun u hu => hq u (List.mem_cons_of_mem _ hu)]
        by_cases hpast : t.past = []
        · rw [List.filter_cons_of_neg (by simp [hpast]), hpast, List.nil_append]
        · have hrest : t.rest = [] := (hq t List.mem_cons_self).resolve_left hpast
          have hprogram : t.past = program t.op := by
            rw [← t.split, hrest, List.append_nil]
          rw [List.filter_cons_of_pos (by simpa using hpast), List.map_cons, List.flatMap_cons, hprogram]
  exact hall s.threads h

/-- **The trace of a quiescent state**: the object is what the actions of the operations that have begun make
of it, in some order. -/
theorem exists_trace (act : σ → α → σ) (s₀ : σ) (ops : List ω) (schedule : List ℕ)
    (h : ((State.start s₀ ops : State σ program).run act schedule).Quiescent) :
    ∃ trace : List α,
      ((State.start s₀ ops : State σ program).run act schedule).shared = trace.foldl act s₀ ∧
      trace.Perm (((State.start s₀ ops : State σ program).run act schedule).begun.flatMap program) := by
  obtain ⟨trace, htrace⟩ := exists_explained program act s₀ ops schedule
  exact ⟨trace, htrace.shared, htrace.taken.trans (.of_eq (flatMap_past_of_quiescent h))⟩

/-- Only operations that were started have begun. -/
theorem begun_sublist (act : σ → α → σ) (s₀ : σ) (ops : List ω) (schedule : List ℕ) :
    ((State.start s₀ ops : State σ program).run act schedule).begun.Sublist ops := by
  obtain ⟨trace, htrace⟩ := exists_explained program act s₀ ops schedule
  have hsub : ∀ s : State σ program, s.begun.Sublist (s.threads.map Thread.op) := fun s =>
    List.filter_sublist.map Thread.op
  have hbegun := hsub ((State.start s₀ ops : State σ program).run act schedule)
  rwa [htrace.ops] at hbegun

/-! ## Registers -/

/-- The object at one register: only the actions on the register move it. -/
theorem foldl_eq_of_acts {β γ : Type} {proj : σ → β} {on : α → Option γ} {write : β → γ → β}
    (h : ∀ s a, proj (act s a) = ((on a).map (write (proj s))).getD (proj s)) (actions : List α) (s : σ) :
    proj (actions.foldl act s) = (actions.filterMap on).foldl write (proj s) := by
  induction actions generalizing s with
  | nil => rfl
  | cons a actions ih =>
      rw [List.foldl_cons, ih, h, List.filterMap_cons]
      rcases on a with _ | c
      · rfl
      · rfl

/-- The actions of some programs on a register that no program writes twice. -/
theorem filterMap_flatMap_program {γ : Type} {on : α → Option γ} {once : ω → Option γ}
    (h : ∀ op, (program op).filterMap on = (once op).toList) (ops : List ω) :
    (ops.flatMap program).filterMap on = ops.filterMap once := by
  rw [List.filterMap_flatMap]
  simp only [h]
  induction ops with
  | nil => rfl
  | cons op ops ih =>
      rw [List.flatMap_cons, ih, List.filterMap_cons]
      rcases once op with _ | c
      · rfl
      · rfl

/-- An element that is mapped to `b`, taken out. -/
theorem exists_split {γ : Type} {f : ω → Option γ} {b : γ} {ops : List ω} (h : b ∈ ops.filterMap f) :
    ∃ op pre post, ops = pre ++ op :: post ∧ f op = some b := by
  obtain ⟨op, hop, hb⟩ := List.mem_filterMap.mp h
  obtain ⟨pre, post, rfl⟩ := List.append_of_mem hop
  exact ⟨op, pre, post, rfl, hb⟩

/-- What is left when an element has been taken out on both sides. -/
theorem perm_filterMap_of_split {γ : Type} {f : ω → Option γ} {b : γ} {op : ω} {pre post : List ω}
    {t : List γ} (hop : f op = some b) (h : (b :: t).Perm ((pre ++ op :: post).filterMap f)) :
    t.Perm ((pre ++ post).filterMap f) := by
  have hmid : ((pre ++ op :: post).filterMap f).Perm (b :: (pre ++ post).filterMap f) := by
    rw [← List.filterMap_cons_some hop]
    exact List.perm_middle.filterMap f
  exact (h.trans hmid).cons_inv

/-- What a taken element does not contribute to is not changed by taking it. -/
theorem perm_filterMap_of_none {γ : Type} {f : ω → Option γ} {op : ω} {pre post : List ω} {t : List γ}
    (hop : f op = none) (h : t.Perm ((pre ++ op :: post).filterMap f)) :
    t.Perm ((pre ++ post).filterMap f) := by
  rwa [List.filterMap_append, List.filterMap_cons_none hop, ← List.filterMap_append] at h

/-- **One order for two registers.** Where every operation that writes the first register does `d` to the
second, any order of the writes to the first and any order of the writes to the second are the orders of
one sequence of the operations. -/
theorem exists_order {γ₁ γ₂ : Type} {f₁ : ω → Option γ₁} {f₂ : ω → Option γ₂} {d : γ₂} {ops : List ω}
    {t₁ : List γ₁} {t₂ : List γ₂} (hd : ∀ op ∈ ops, (f₁ op).isSome → f₂ op = some d)
    (h₁ : t₁.Perm (ops.filterMap f₁)) (h₂ : t₂.Perm (ops.filterMap f₂)) :
    ∃ order : List ω, order.Perm ops ∧ order.filterMap f₁ = t₁ ∧ order.filterMap f₂ = t₂ := by
  induction t₂ generalizing ops t₁ with
  | nil =>
      have hnone : ∀ op ∈ ops, f₂ op = none := by
        rw [← List.filterMap_eq_nil_iff]
        exact h₂.nil_eq.symm
      have hempty : ops.filterMap f₁ = [] := by
        rw [List.filterMap_eq_nil_iff]
        intro op hop
        by_contra hsome
        have hw := hd op hop (Option.isSome_iff_ne_none.mpr hsome)
        rw [hnone op hop] at hw
        cases hw
      rw [hempty] at h₁
      exact ⟨ops, .refl ops, hempty.trans h₁.eq_nil.symm, h₂.nil_eq.symm⟩
  | cons b t₂ ih =>
      by_cases hfree : ∃ op ∈ ops, f₂ op = some b ∧ f₁ op = none
      · -- an operation that writes the second register only comes first
        obtain ⟨op, hop, hb, hnone⟩ := hfree
        obtain ⟨pre, post, rfl⟩ := List.append_of_mem hop
        obtain ⟨order, hperm, ho₁, ho₂⟩ := ih (fun o ho => hd o (by
          rcases List.mem_append.mp ho with h | h <;> simp [h]))
          (perm_filterMap_of_none hnone h₁) (perm_filterMap_of_split hb h₂)
        refine ⟨op :: order, (hperm.cons op).trans List.perm_middle.symm, ?_, ?_⟩
        · rw [List.filterMap_cons_none hnone, ho₁]
        · rw [List.filterMap_cons_some hb, ho₂]
      · -- all that do this write the first register as well, so any of them will do
        obtain ⟨op, pre, post, rfl, hb⟩ := exists_split (h₂.subset List.mem_cons_self)
        have hmem : op ∈ pre ++ op :: post := by simp
        have hsome : (f₁ op).isSome := by
          rw [Option.isSome_iff_ne_none]
          exact fun hnone => hfree ⟨op, hmem, hb, hnone⟩
        have hbd : b = d := Option.some.inj (hb.symm.trans (hd op hmem hsome))
        rcases t₁ with _ | ⟨a, t₁⟩
        · have hnil := List.filterMap_eq_nil_iff.mp h₁.nil_eq.symm op hmem
          rw [hnil] at hsome
          cases hsome
        · obtain ⟨first, pre', post', heq, ha⟩ := exists_split (h₁.subset List.mem_cons_self)
          rw [heq] at hd h₁ h₂ ⊢
          have hb' : f₂ first = some b :=
            hbd ▸ hd first (by simp) (Option.isSome_of_eq_some ha)
          obtain ⟨order, hperm, ho₁, ho₂⟩ := ih (fun o ho => hd o (by
            rcases List.mem_append.mp ho with h | h <;> simp [h]))
            (perm_filterMap_of_split ha h₁) (perm_filterMap_of_split hb' h₂)
          refine ⟨first :: order, (hperm.cons first).trans List.perm_middle.symm, ?_, ?_⟩
          · rw [List.filterMap_cons_some ha, ho₁]
          · rw [List.filterMap_cons_some hb', ho₂]

/-- Any order of the writes to one register is that of some sequence of the operations. -/
theorem exists_order_of_perm {γ : Type} {f : ω → Option γ} {ops : List ω} {t : List γ}
    (h : t.Perm (ops.filterMap f)) : ∃ order : List ω, order.Perm ops ∧ order.filterMap f = t := by
  induction t generalizing ops with
  | nil => exact ⟨ops, .refl ops, h.nil_eq.symm⟩
  | cons b t ih =>
      obtain ⟨op, pre, post, rfl, hb⟩ := exists_split (h.subset List.mem_cons_self)
      obtain ⟨order, hperm, ho⟩ := ih (perm_filterMap_of_split hb h)
      refine ⟨op :: order, (hperm.cons op).trans List.perm_middle.symm, ?_⟩
      rw [List.filterMap_cons_some hb, ho]

end Interleave
