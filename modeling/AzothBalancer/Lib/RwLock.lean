import Mathlib.Algebra.Order.Monoid.Unbundled.WithTop
import Mathlib.Data.Prod.Lex
import Mathlib.Data.Set.Finite.Basic
import Mathlib.Order.Preorder.Finite
import AzothBalancer.Lib.Runs

/-!
# Read-write locks that prefer writers

Threads that acquire and release read-write locks. A thread is the list of lock events it has still
to run, the guards it holds, and the time at which it started to queue for a write lock. A read is
refused while another thread holds the lock for writing *or queues for it*; a write is refused while
the lock is held at all. So a second read of a lock by a thread that holds it can block.

The discipline that excludes deadlocks is the usual one, weakened to the locks that are written at
all (`Safe`): guards are released in the reverse order, and a written lock is acquired only while
all written locks held have a smaller rank. `deadlock_free` is the rule: threads that keep the
discipline reach no state in which all unfinished threads wait, and none in which threads wait for
one another in a cycle. `run_prefix` runs one thread by itself, for the construction of states.
-/

namespace RwLock

/-- Shared or exclusive. -/
inductive Mode where
  | read
  | write
  deriving DecidableEq, Repr

/-- What a thread does to a lock. -/
inductive LockEvent (L : Type) where
  | acquire (m : Mode) (l : L)
  | release (l : L)
  deriving DecidableEq, Repr

/-- A thread: its remaining events, its guards with the latest first, and its place in a queue. -/
structure Thread (L : Type) where
  rest : List (LockEvent L)
  held : List (Mode × L) := []
  ticket : Option ℕ := none

/-- All threads, and the time. -/
structure State (ι L : Type) where
  threads : ι → Thread L
  clock : ℕ := 0

variable {ι L : Type}

/-- A guarded stretch: a lock is held during `body`. -/
def scope (m : Mode) (l : L) (body : List (LockEvent L)) : List (LockEvent L) :=
  .acquire m l :: (body ++ [.release l])

/-- The thread holds the lock in some mode. -/
def Thread.Holds (t : Thread L) (l : L) : Prop := ∃ m, (m, l) ∈ t.held

/-- The thread queues for writing the lock. -/
def Thread.Queued (t : Thread L) (l : L) : Prop :=
  t.ticket.isSome ∧ t.rest.head? = some (.acquire .write l)

/-- The lock can be acquired: for reading, if nobody writes it or queues for writing it; for writing,
if nobody holds it. -/
def State.Grants (s : State ι L) : Mode → L → Prop
  | .read, l => ∀ j, (Mode.write, l) ∉ (s.threads j).held ∧ ¬ (s.threads j).Queued l
  | .write, l => ∀ j, ¬ (s.threads j).Holds l

/-- Replaces a thread. -/
def State.set [DecidableEq ι] (s : State ι L) (i : ι) (t : Thread L) : State ι L :=
  { s with threads := Function.update s.threads i t }

/-- One step of one thread. A refused writer queues. -/
inductive Step [DecidableEq ι] (s : State ι L) : State ι L → Prop where
  | acquire (i : ι) (m : Mode) (l : L) (rest : List (LockEvent L)) :
      (s.threads i).rest = .acquire m l :: rest → s.Grants m l →
      Step s (s.set i ⟨rest, (m, l) :: (s.threads i).held, none⟩)
  | queue (i : ι) (l : L) (rest : List (LockEvent L)) :
      (s.threads i).rest = .acquire .write l :: rest → (s.threads i).ticket = none →
      ¬ s.Grants .write l →
      Step s { s.set i { s.threads i with ticket := some s.clock } with clock := s.clock + 1 }
  | release (i : ι) (m : Mode) (l : L) (rest : List (LockEvent L)) (held : List (Mode × L)) :
      (s.threads i).rest = .release l :: rest → (s.threads i).held = (m, l) :: held →
      Step s (s.set i ⟨rest, held, none⟩)

/-- The states reachable from `s`. -/
def Reachable [DecidableEq ι] (s s' : State ι L) : Prop := Relation.ReflTransGen Step s s'

/-! ## Deadlocks -/

/-- The thread waits for the lock: its next acquisition is refused. -/
def State.Waits (s : State ι L) (i : ι) (l : L) : Prop :=
  ∃ m rest, (s.threads i).rest = .acquire m l :: rest ∧ ¬ s.Grants m l

/-- There are unfinished threads, and all of them wait. -/
def State.Stuck (s : State ι L) : Prop :=
  (∃ i, (s.threads i).rest ≠ []) ∧ ∀ i, (s.threads i).rest ≠ [] → ∃ l, s.Waits i l

/-- `j` queues for the lock, and `i` does not queue or came later. -/
def State.QueuedAhead (s : State ι L) (i j : ι) (l : L) : Prop :=
  (s.threads j).Queued l ∧ ∀ t, (s.threads i).ticket = some t →
    ∃ t', (s.threads j).ticket = some t' ∧ t' < t

/-- `i` waits for a lock that `j` holds or queues for ahead of `i`. -/
def State.WaitsFor (s : State ι L) (i j : ι) : Prop :=
  ∃ l, s.Waits i l ∧ ((s.threads j).Holds l ∨ s.QueuedAhead i j l)

/-- Some threads wait for one another in a cycle. -/
def State.Cyclic (s : State ι L) : Prop := ∃ i, Relation.TransGen s.WaitsFor i i

/-! ## The discipline -/

/-- What is left to run keeps the discipline, from the guards held: only the locks of `W` are written,
a lock of `W` is acquired above all locks of `W` that are held, and guards are released in the
reverse order, down to none. -/
def Safe (W : L → Prop) (rank : L → ℕ) : List (Mode × L) → List (LockEvent L) → Prop
  | held, [] => held = []
  | held, .acquire m l :: rest =>
      (m = .write → W l) ∧ (W l → ∀ h ∈ held, W h.2 → rank h.2 < rank l) ∧
        Safe W rank ((m, l) :: held) rest
  | [], .release _ :: _ => False
  | (_, l') :: held, .release l :: rest => l' = l ∧ Safe W rank held rest

/-- A stretch that keeps the discipline and ends with the guards it started with. -/
def Balanced (W : L → Prop) (rank : L → ℕ) (held : List (Mode × L)) (a : List (LockEvent L)) : Prop :=
  ∀ b, Safe W rank held b → Safe W rank held (a ++ b)

section balanced

variable {W : L → Prop} {rank : L → ℕ} {held : List (Mode × L)} {a b : List (LockEvent L)}

/-- A balanced stretch that starts without guards is safe. -/
theorem Balanced.safe (h : Balanced W rank [] a) : Safe W rank [] a := by
  have hs := h [] rfl
  rwa [List.append_nil] at hs

/-- Nothing is balanced. -/
theorem balanced_nil : Balanced W rank held [] := fun _ hb => hb

/-- Balanced stretches one after the other. -/
theorem Balanced.append (ha : Balanced W rank held a) (hb : Balanced W rank held b) :
    Balanced W rank held (a ++ b) := by
  intro c hc
  rw [List.append_assoc]
  exact ha _ (hb _ hc)

/-- A guarded balanced stretch. -/
theorem balanced_scope {m : Mode} {l : L} (hm : m = .write → W l)
    (hl : W l → ∀ h ∈ held, W h.2 → rank h.2 < rank l) (ha : Balanced W rank ((m, l) :: held) a) :
    Balanced W rank held (scope m l a) := by
  intro b hb
  refine ⟨hm, hl, ?_⟩
  show Safe W rank ((m, l) :: held) (a ++ [.release l] ++ b)
  rw [List.append_assoc]
  exact ha _ ⟨rfl, hb⟩

/-- Balanced stretches, any number of them. -/
theorem balanced_flatten {as : List (List (LockEvent L))} (h : ∀ a ∈ as, Balanced W rank held a) :
    Balanced W rank held as.flatten := by
  induction as with
  | nil => exact balanced_nil
  | cons a as ih =>
      rw [List.flatten_cons]
      exact (h a List.mem_cons_self).append (ih fun b hb => h b (List.mem_cons_of_mem _ hb))

end balanced

/-- A thread that keeps the discipline: it holds for writing locks of `W` only, and queues only in
front of a write. -/
structure Thread.Disciplined (W : L → Prop) (rank : L → ℕ) (t : Thread L) : Prop where
  safe : Safe W rank t.held t.rest
  written : ∀ l, (Mode.write, l) ∈ t.held → W l
  queued : t.ticket.isSome → ∃ l rest, t.rest = .acquire .write l :: rest

/-- A thread that has not started keeps the discipline, if its events do. -/
theorem disciplined_start {W : L → Prop} {rank : L → ℕ} {events : List (LockEvent L)}
    (h : Safe W rank [] events) : Thread.Disciplined W rank ⟨events, [], none⟩ :=
  ⟨h, fun _ hl => by simp at hl, fun ht => by simp at ht⟩

section discipline

variable [DecidableEq ι] {W : L → Prop} {rank : L → ℕ} {s s' : State ι L}

/-- Replacing a thread by one that keeps the discipline. -/
theorem disciplined_set (h : ∀ i, (s.threads i).Disciplined W rank) {i : ι} {t : Thread L}
    (ht : t.Disciplined W rank) : ∀ j, ((s.set i t).threads j).Disciplined W rank := by
  intro j
  unfold State.set
  by_cases hj : j = i
  · subst hj
    simpa using ht
  · simpa [Function.update_of_ne hj] using h j

/-- **Every step keeps the discipline.** -/
theorem disciplined_step (hstep : Step s s') (h : ∀ i, (s.threads i).Disciplined W rank) :
    ∀ i, (s'.threads i).Disciplined W rank := by
  cases hstep with
  | acquire i m l rest hrest hgrants =>
      have hs := (h i).safe
      rw [hrest] at hs
      obtain ⟨hm, -, hs⟩ := hs
      refine disciplined_set h ⟨hs, ?_, fun ht => by simp at ht⟩
      intro l' hl'
      rcases List.mem_cons.mp hl' with heq | hin
      · cases heq
        exact hm rfl
      · exact (h i).written l' hin
  | queue i l rest hrest hticket hgrants =>
      exact disciplined_set h ⟨(h i).safe, (h i).written, fun _ => ⟨l, rest, hrest⟩⟩
  | release i m l rest held hrest hheld =>
      have hs := (h i).safe
      rw [hrest, hheld] at hs
      refine disciplined_set h ⟨hs.2, ?_, fun ht => by simp at ht⟩
      intro l' hl'
      exact (h i).written l' (hheld ▸ List.mem_cons_of_mem _ hl')

/-- Every reachable state keeps the discipline. -/
theorem disciplined_reachable (hr : Reachable s s') (h : ∀ i, (s.threads i).Disciplined W rank) :
    ∀ i, (s'.threads i).Disciplined W rank :=
  have hstep : ∀ s s' : State ι L, Step s s' → (∀ i, (s.threads i).Disciplined W rank) →
      ∀ i, (s'.threads i).Disciplined W rank := fun _ _ hstep h => disciplined_step hstep h
  Runs.reachable hstep h hr

end discipline

/-! ## No deadlock -/

section deadlock

variable {W : L → Prop} {rank : L → ℕ} {s : State ι L}

/-- A thread that holds a lock is unfinished. -/
theorem rest_ne_nil_of_holds {t : Thread L} (ht : t.Disciplined W rank) {l : L} (hl : t.Holds l) :
    t.rest ≠ [] := by
  intro hrest
  have hs := ht.safe
  rw [hrest] at hs
  obtain ⟨m, hm⟩ := hl
  rw [show t.held = [] from hs] at hm
  simp at hm

/-- A lock somebody waits for is written. -/
theorem written_of_waits (h : ∀ i, (s.threads i).Disciplined W rank) {i : ι} {l : L}
    (hw : s.Waits i l) : W l := by
  obtain ⟨m, rest, hrest, hng⟩ := hw
  have hs := (h i).safe
  rw [hrest] at hs
  cases m with
  | write => exact hs.1 rfl
  | read =>
      unfold State.Grants at hng
      push Not at hng
      obtain ⟨j, hj⟩ := hng
      by_cases hmem : (Mode.write, l) ∈ (s.threads j).held
      · exact (h j).written l hmem
      · obtain ⟨-, hhead⟩ := hj hmem
        obtain ⟨rest', hrest'⟩ := List.head?_eq_some_iff.mp hhead
        have hsj := (h j).safe
        rw [hrest'] at hsj
        exact hsj.1 rfl

/-- A lock that is refused is held by somebody, if everybody who queues for it waits. -/
theorem exists_holder {i : ι} {l : L} (hw : s.Waits i l)
    (hq : ∀ j, (s.threads j).Queued l → ∃ l', s.Waits j l') : ∃ j, (s.threads j).Holds l := by
  obtain ⟨m, rest, hrest, hng⟩ := hw
  cases m with
  | write =>
      unfold State.Grants at hng
      push Not at hng
      exact hng
  | read =>
      unfold State.Grants at hng
      push Not at hng
      obtain ⟨j, hj⟩ := hng
      by_cases hmem : (Mode.write, l) ∈ (s.threads j).held
      · exact ⟨j, _, hmem⟩
      · have hqueued := hj hmem
        obtain ⟨l', m', rest', hrest', hng'⟩ := hq j hqueued
        have hhead := hqueued.2
        rw [hrest'] at hhead
        -- the queued thread waits for this very lock, for writing
        cases hhead
        unfold State.Grants at hng'
        push Not at hng'
        exact hng'

/-- A thread that waits holds only locks of smaller rank, among those somebody waits for. -/
theorem rank_lt_of_holds (h : ∀ i, (s.threads i).Disciplined W rank) {j : ι} {l l' : L} (hl : W l)
    (hholds : (s.threads j).Holds l) (hw : s.Waits j l') : rank l < rank l' := by
  have hwritten := written_of_waits h hw
  obtain ⟨m, rest, hrest, -⟩ := hw
  obtain ⟨m', hm'⟩ := hholds
  have hs := (h j).safe
  rw [hrest] at hs
  exact hs.2.1 hwritten (m', l) hm' hl

/-- The rank of the lock a thread is about to acquire. -/
def State.height (rank : L → ℕ) (s : State ι L) (i : ι) : ℕ :=
  match (s.threads i).rest.head? with
  | some (.acquire _ l) => rank l
  | _ => 0

/-- The height of a thread that waits. -/
theorem height_of_waits {i : ι} {l : L} (hw : s.Waits i l) : s.height rank i = rank l := by
  obtain ⟨m, rest, hrest, -⟩ := hw
  simp [State.height, hrest]

/-- **No state in the discipline is stuck.** The lock of the highest rank somebody waits for has a
holder, who waits for a lock of a higher rank. -/
theorem not_stuck [Finite ι] (h : ∀ i, (s.threads i).Disciplined W rank) : ¬ s.Stuck := by
  rintro ⟨⟨i₀, hi₀⟩, hall⟩
  obtain ⟨i, ⟨l, hw⟩, hmax⟩ := Set.Finite.exists_maximalFor (s.height rank) {i | ∃ l, s.Waits i l}
    (Set.toFinite _) ⟨i₀, hall i₀ hi₀⟩
  obtain ⟨j, hj⟩ := exists_holder hw fun k hk => by
    refine hall k fun hnil => ?_
    have hhead := hk.2
    rw [hnil] at hhead
    cases hhead
  obtain ⟨l', hw'⟩ := hall j (rest_ne_nil_of_holds (h j) hj)
  have hlt : rank l < rank l' := rank_lt_of_holds h (written_of_waits h hw) hj hw'
  have hle := hmax (j := j) ⟨l', hw'⟩
  rw [height_of_waits hw, height_of_waits hw'] at hle
  have := hle hlt.le
  omega

/-- A chain whose end goes on is a chain of links that go on. -/
theorem transGen_goes_on {r : ι → ι → Prop} {a b : ι} (h : Relation.TransGen r a b)
    (hb : ∃ c, r b c) : Relation.TransGen (fun x y => r x y ∧ ∃ z, r y z) a b := by
  induction h with
  | single hab => exact .single ⟨hab, hb⟩
  | tail _ hbc ih => exact .tail (ih ⟨_, hbc⟩) ⟨hbc, hb⟩

/-- How urgent a thread's acquisition is: by rank, and for one lock by the time it queued. -/
def State.urgency (rank : L → ℕ) (s : State ι L) (i : ι) : ℕ ×ₗ (WithTop ℕ)ᵒᵈ :=
  toLex (s.height rank i, OrderDual.toDual ((s.threads i).ticket.elim ⊤ fun t => (t : WithTop ℕ)))

/-- A thread that waits is less urgent than a waiting thread it waits for. -/
theorem urgency_lt (h : ∀ i, (s.threads i).Disciplined W rank) {i j : ι} (hij : s.WaitsFor i j)
    {l' : L} (hw' : s.Waits j l') : s.urgency rank i < s.urgency rank j := by
  obtain ⟨l, hw, hholds | ⟨⟨hsome, hhead⟩, hahead⟩⟩ := hij
  · refine Prod.Lex.left _ _ ?_
    rw [height_of_waits hw, height_of_waits hw']
    exact rank_lt_of_holds h (written_of_waits h hw) hholds hw'
  · have hl : l' = l := by
      obtain ⟨m, rest, hrest, -⟩ := hw'
      rw [hrest] at hhead
      cases hhead
      rfl
    obtain ⟨t', ht'⟩ := Option.isSome_iff_exists.mp hsome
    have heq : s.height rank i = s.height rank j := by
      rw [height_of_waits hw, height_of_waits hw', hl]
    unfold State.urgency
    rw [heq]
    refine Prod.Lex.right _ (OrderDual.toDual_lt_toDual.mpr ?_)
    rw [ht']
    cases ht : (s.threads i).ticket with
    | none => exact WithTop.coe_lt_top t'
    | some t =>
        obtain ⟨t'', ht'', hlt⟩ := hahead t ht
        rw [ht'] at ht''
        cases ht''
        exact WithTop.coe_lt_coe.mpr hlt

/-- **No threads in the discipline wait for one another in a cycle.** Along a chain of waiting threads
the urgency grows. -/
theorem not_cyclic (h : ∀ i, (s.threads i).Disciplined W rank) : ¬ s.Cyclic := by
  rintro ⟨i, hcycle⟩
  obtain ⟨k, hk, -⟩ := Relation.TransGen.head'_iff.mp hcycle
  have hchain := transGen_goes_on hcycle ⟨k, hk⟩
  have hgrows : Relation.TransGen (· < ·) (s.urgency rank i) (s.urgency rank i) := by
    refine hchain.lift (s.urgency rank) ?_
    rintro a b ⟨hab, c, l', hw', -⟩
    exact urgency_lt h hab hw'
  rw [Relation.transGen_eq_self] at hgrows
  exact lt_irrefl _ hgrows

end deadlock

/-- **The rule.** Finitely many threads that start without guards and keep the discipline reach no
stuck state and no cycle. -/
theorem deadlock_free [DecidableEq ι] [Finite ι] {W : L → Prop} {rank : L → ℕ} {s s' : State ι L}
    (h : ∀ i, (s.threads i).Disciplined W rank) (hr : Reachable s s') : ¬ s'.Stuck ∧ ¬ s'.Cyclic :=
  have hdisc := disciplined_reachable hr h
  ⟨not_stuck hdisc, not_cyclic hdisc⟩

/-! ## One thread by itself -/

section solo

variable [DecidableEq ι] {W : L → Prop} {rank : L → ℕ} {s : State ι L} {i : ι}

/-- The guards after a stretch. -/
def heldAfter : List (Mode × L) → List (LockEvent L) → List (Mode × L)
  | held, [] => held
  | held, .acquire m l :: rest => heldAfter ((m, l) :: held) rest
  | held, .release _ :: rest => heldAfter held.tail rest

@[simp] theorem State.set_threads_self (s : State ι L) (i : ι) (t : Thread L) :
    (s.set i t).threads i = t := Function.update_self ..

theorem State.set_threads_of_ne (s : State ι L) {i j : ι} (hj : j ≠ i) (t : Thread L) :
    (s.set i t).threads j = s.threads j := Function.update_of_ne hj ..

@[simp] theorem State.set_set (s : State ι L) (i : ι) (t u : Thread L) :
    (s.set i t).set i u = s.set i u := by
  unfold State.set
  simp

theorem State.set_eq_self {t : Thread L} (h : s.threads i = t) : s.set i t = s := by
  unfold State.set
  rw [← h, Function.update_eq_self]

/-- A thread does not hold the lock of `W` it is about to acquire. -/
theorem not_holds_of_safe {held : List (Mode × L)} {m : Mode} {l : L} {rest : List (LockEvent L)}
    (h : Safe W rank held (.acquire m l :: rest)) (hl : W l) (m' : Mode) : (m', l) ∉ held :=
  fun hmem => Nat.lt_irrefl _ (h.2.1 hl (m', l) hmem hl)

/-- **A thread runs a stretch by itself**, while the others hold nothing for writing and do not queue,
and nothing at all of what the stretch writes. -/
theorem run_prefix {rest : List (LockEvent L)} (rest' : List (LockEvent L)) :
    ∀ (pre : List (LockEvent L)) {s : State ι L} {held : List (Mode × L)},
      s.threads i = ⟨pre ++ rest, held, none⟩ →
      (Thread.mk (pre ++ rest') held none).Disciplined W rank →
      (∀ j, j ≠ i → (∀ l, (Mode.write, l) ∉ (s.threads j).held) ∧ (s.threads j).ticket = none) →
      (∀ j, j ≠ i → ∀ l, .acquire .write l ∈ pre → ¬ (s.threads j).Holds l) →
      Reachable s (s.set i ⟨rest, heldAfter held pre, none⟩)
  | [], s, held, hi, _, _, _ => by
      rw [show s.set i ⟨rest, heldAfter held [], none⟩ = s from State.set_eq_self hi]
      exact .refl
  | .acquire m l :: pre, s, held, hi, hd, hothers, hwrites => by
      have hgrants : s.Grants m l := by
        have hsafe := hd.safe
        cases m with
        | read =>
            intro j
            by_cases hj : j = i
            · subst hj
              rw [hi]
              refine ⟨fun hmem => ?_, fun hq => by simp [Thread.Queued] at hq⟩
              exact not_holds_of_safe hsafe (hd.written l hmem) _ hmem
            · obtain ⟨hheld, hticket⟩ := hothers j hj
              exact ⟨hheld l, fun hq => by simp [Thread.Queued, hticket] at hq⟩
        | write =>
            intro j
            by_cases hj : j = i
            · subst hj
              rw [hi]
              rintro ⟨m', hm'⟩
              exact not_holds_of_safe hsafe (hsafe.1 rfl) m' hm'
            · exact hwrites j hj l List.mem_cons_self
      have hstep : Step s (s.set i ⟨pre ++ rest, (m, l) :: held, none⟩) := by
        have hone := Step.acquire (s := s) i m l (pre ++ rest) (by rw [hi]; rfl) hgrants
        rwa [hi] at hone
      have hrec := run_prefix rest' pre
        (s := s.set i ⟨pre ++ rest, (m, l) :: held, none⟩) (State.set_threads_self ..)
        ⟨hd.safe.2.2, ?_, fun ht => by simp at ht⟩
        (fun j hj => by rw [State.set_threads_of_ne s hj]; exact hothers j hj)
        (fun j hj l' hl' => by
          rw [State.set_threads_of_ne s hj]
          exact hwrites j hj l' (List.mem_cons_of_mem _ hl'))
      · rw [State.set_set] at hrec
        exact Relation.ReflTransGen.head hstep hrec
      · intro l' hl'
        rcases List.mem_cons.mp hl' with heq | hin
        · cases heq
          exact hd.safe.1 rfl
        · exact hd.written l' hin
  | .release l :: pre, s, held, hi, hd, hothers, hwrites => by
      have hsafe := hd.safe
      cases held with
      | nil => exact hsafe.elim
      | cons g held =>
          obtain ⟨m, l'⟩ := g
          obtain ⟨rfl, hsafe⟩ := hsafe
          have hstep : Step s (s.set i ⟨pre ++ rest, held, none⟩) :=
            Step.release i m l' (pre ++ rest) held (by rw [hi]; rfl) (by rw [hi])
          have hrec := run_prefix rest' pre
            (s := s.set i ⟨pre ++ rest, held, none⟩) (State.set_threads_self ..)
            ⟨hsafe, fun l hl => hd.written l (List.mem_cons_of_mem _ hl), fun ht => by simp at ht⟩
            (fun j hj => by rw [State.set_threads_of_ne s hj]; exact hothers j hj)
            (fun j hj l hl => by
              rw [State.set_threads_of_ne s hj]
              exact hwrites j hj l (List.mem_cons_of_mem _ hl))
          rw [State.set_set] at hrec
          exact Relation.ReflTransGen.head hstep hrec

end solo

end RwLock
