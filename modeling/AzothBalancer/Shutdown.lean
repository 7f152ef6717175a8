import AzothBalancer.Lib.LeastBy
import Mathlib.Algebra.Order.Monoid.Unbundled.WithTop
import Mathlib.Data.Nat.Cast.Order.Ring

/-!
# Graceful shutdown

`shutdown.rs`: the manager drops the shutdown channel and joins the tasks of its `JoinSet` one after
another, in the order in which they complete, under a timeout. When the call returns, the set is
dropped, and with it the tasks that have not completed.

Times are counted from the signal. A task is known by when it completes and by whether it panics
then; a `JoinOrder` is an order in which `join_next` may yield the tasks. `tokio::time::timeout` polls
the join loop before the timer, so a completion at the deadline itself is still joined.

* `joinAllLogic_spec` — how far the loop gets by the deadline, by recursion on the order;
* `graceful_iff` — the shutdown lets every task finish exactly if nothing outlives a panic.
-/

namespace AzothBalancer

/-- A managed task, as the shutdown sees it: when it completes after the signal (`none`: never), and
whether it panics then.
Source: `shutdown.rs` `spawn_task` -/
structure ManagedTask where
  completion : Option ℕ
  panics : Bool
  deriving DecidableEq, Repr

/-- Source: `shutdown.rs` `ShutdownError` -/
inductive ShutdownError where
  | panic
  | timeout (after : ℕ)
  deriving DecidableEq, Repr

/-- The task has completed at time `t`. -/
def ManagedTask.CompletesBy (task : ManagedTask) (t : ℕ) : Prop := ∃ c ∈ task.completion, c ≤ t

/-- The completion time, with `⊤` for a task that never completes. -/
def ManagedTask.completesAt (task : ManagedTask) : WithTop ℕ :=
  match task.completion with
  | some t => t
  | none => ⊤

/-- An order in which `join_next` can yield the tasks: that of their completion. -/
structure JoinOrder (tasks : List ManagedTask) where
  order : List ManagedTask
  perm : order.Perm tasks
  sorted : order.Pairwise fun a b => a.completesAt ≤ b.completesAt

/-- Every set of tasks has such an order. -/
def JoinOrder.ofTasks (tasks : List ManagedTask) : JoinOrder tasks where
  order := tasks.insertionSort fun a b => a.completesAt ≤ b.completesAt
  perm := List.perm_insertionSort _ tasks
  sorted := LeastBy.pairwise_insertionSort _ tasks

/-- How far the join loop has got by the deadline: it has ended, at this time, or it still waits.
`rest` are the tasks still in the set. -/
inductive JoinProgress where
  | ready (time : ℕ) (result : Except ShutdownError Unit) (rest : List ManagedTask)
  | pending (rest : List ManagedTask)
  deriving DecidableEq

/-- The join loop, from time `now` on.
Source: `shutdown.rs` `graceful_shutdown`, `join_all_logic` -/
def joinAllLogic (deadline : ℕ) : ℕ → List ManagedTask → JoinProgress
  | now, [] => .ready now (.ok ()) []
  | now, task :: rest =>
      match task.completion with
      | none => .pending (task :: rest)
      | some t =>
          if deadline < t then .pending (task :: rest)
          -- `res?` leaves the loop with the rest of the set unjoined
          else if task.panics then .ready t (.error .panic) rest
          else joinAllLogic deadline (max now t) rest

/-- How a shutdown returns: the result, the time, and the tasks it drops with the set. -/
structure ShutdownReturn where
  result : Except ShutdownError Unit
  time : ℕ
  dropped : List ManagedTask

/-- Source: `shutdown.rs` `graceful_shutdown` -/
def gracefulShutdown (timeout : ℕ) {tasks : List ManagedTask} (join : JoinOrder tasks) :
    ShutdownReturn :=
  match joinAllLogic timeout 0 join.order with
  | .ready time result rest => ⟨result, time, rest⟩
  | .pending rest => ⟨.error (.timeout timeout), timeout, rest⟩

/-- A dropped task is aborted unless it has completed. -/
def ShutdownReturn.Aborts (r : ShutdownReturn) (task : ManagedTask) : Prop :=
  task ∈ r.dropped ∧ ¬ task.CompletesBy r.time

/-- What a graceful shutdown is for: no task that completes within the timeout is aborted; a return
before the timeout finds every task completed and reports whether one of them panicked; and the
timeout is the latest time of return. -/
structure LetsEveryTaskFinish (tasks : List ManagedTask) (timeout : ℕ) (r : ShutdownReturn) :
    Prop where
  aborts : ∀ task ∈ tasks, task.CompletesBy timeout → ¬ r.Aborts task
  early : r.time < timeout → (∀ task ∈ tasks, task.CompletesBy r.time) ∧
    r.result = if ∃ task ∈ tasks, task.panics then .error .panic else .ok ()
  latest : r.time ≤ timeout

/-- Completion, as an order relation. -/
theorem ManagedTask.completesBy_iff {task : ManagedTask} {t : ℕ} :
    task.CompletesBy t ↔ task.completesAt ≤ t := by
  unfold CompletesBy completesAt
  cases task.completion with
  | none => simp
  | some c => simp

/-- A completed task stays completed. -/
theorem ManagedTask.CompletesBy.mono {task : ManagedTask} {s t : ℕ} (h : task.CompletesBy s)
    (hst : s ≤ t) : task.CompletesBy t := by
  obtain ⟨c, hc, hcs⟩ := h
  exact ⟨c, hc, hcs.trans hst⟩

/-- What is yielded earlier has completed when the later task has. -/
theorem JoinOrder.completesBy {tasks : List ManagedTask} (join : JoinOrder tasks)
    {pre rest : List ManagedTask} {a b : ManagedTask} (h : join.order = pre ++ a :: rest)
    (hb : b ∈ a :: rest) {t : ℕ} (hbt : b.CompletesBy t) : a.CompletesBy t := by
  have hsorted := join.sorted
  rw [h] at hsorted
  have hcons := (List.pairwise_append.mp hsorted).2.1
  rcases List.mem_cons.mp hb with rfl | hrest
  · exact hbt
  · rw [ManagedTask.completesBy_iff] at hbt ⊢
    exact ((List.pairwise_cons.mp hcons).1 b hrest).trans hbt

/-- How far the loop gets, from time `now` on. -/
inductive JoinedUpTo (deadline now : ℕ) (order : List ManagedTask) : JoinProgress → Prop where
  /-- Every task has completed, and none panicked. -/
  | all {time : ℕ} : (∀ task ∈ order, task.CompletesBy time ∧ task.panics = false) →
      now ≤ time → time ≤ deadline → JoinedUpTo deadline now order (.ready time (.ok ()) [])
  /-- `task` is the first that panicked. -/
  | panicked {time : ℕ} (pre : List ManagedTask) {rest : List ManagedTask} {task : ManagedTask} :
      order = pre ++ task :: rest → (∀ a ∈ pre, a.panics = false) →
      task.completion = some time → task.panics = true → time ≤ deadline →
      JoinedUpTo deadline now order (.ready time (.error .panic) rest)
  /-- `task` has not completed by the deadline. -/
  | waiting (pre : List ManagedTask) {rest : List ManagedTask} {task : ManagedTask} :
      order = pre ++ task :: rest → (∀ a ∈ pre, a.panics = false) → ¬ task.CompletesBy deadline →
      JoinedUpTo deadline now order (.pending (task :: rest))

/-- **The join loop**, by recursion on the order.
Source: `shutdown.rs` `graceful_shutdown`, `join_all_logic` -/
theorem joinAllLogic_spec {deadline : ℕ} : ∀ {order : List ManagedTask} {now : ℕ}, now ≤ deadline →
    JoinedUpTo deadline now order (joinAllLogic deadline now order)
  | [], now, hnow => .all (by simp) le_rfl hnow
  | task :: rest, now, hnow => by
      rw [joinAllLogic]
      cases hc : task.completion with
      | none =>
          refine .waiting [] rfl (by simp) ?_
          simp [ManagedTask.CompletesBy, hc]
      | some t =>
          dsimp only
          split
          · rename_i hlate
            refine .waiting [] rfl (by simp) ?_
            simpa [ManagedTask.CompletesBy, hc] using hlate
          · rename_i hlate
            have ht : t ≤ deadline := Nat.not_lt.mp hlate
            split
            · rename_i hp
              exact .panicked [] rfl (by simp) hc hp ht
            · rename_i hp
              have hquiet : task.panics = false := by simpa using hp
              have hpre : ∀ {pre : List ManagedTask}, (∀ a ∈ pre, a.panics = false) →
                  ∀ a ∈ task :: pre, a.panics = false := by
                intro pre h
                exact List.forall_mem_cons.mpr ⟨hquiet, h⟩
              -- the rest of the loop starts when this task has been joined
              have hrest : JoinedUpTo deadline (max now t) rest (joinAllLogic deadline (max now t) rest) :=
                joinAllLogic_spec (max_le hnow ht)
              generalize joinAllLogic deadline (max now t) rest = progress at hrest ⊢
              cases hrest with
              | all hall hle hdl =>
                  refine .all ?_ ((le_max_left now t).trans hle) hdl
                  exact List.forall_mem_cons.mpr
                    ⟨⟨⟨t, hc, (le_max_right now t).trans hle⟩, hquiet⟩, hall⟩
              | panicked pre horder hq hcp hpp hdl =>
                  exact .panicked (task :: pre) (by rw [horder]; rfl) (hpre hq) hcp hpp hdl
              | waiting pre horder hq hw =>
                  exact .waiting (task :: pre) (by rw [horder]; rfl) (hpre hq) hw

/-- **Exactly when a shutdown lets every task finish**: whenever a task panics before the timeout, every
task has completed by then. The loop returns at the first panic it joins, so everything after it is
dropped with the set.
Source: `shutdown.rs` `graceful_shutdown` -/
theorem graceful_iff (tasks : List ManagedTask) (timeout : ℕ) (join : JoinOrder tasks) :
    LetsEveryTaskFinish tasks timeout (gracefulShutdown timeout join) ↔
      ∀ task ∈ tasks, task.panics → ∀ t ∈ task.completion, t < timeout →
        ∀ other ∈ tasks, other.CompletesBy t := by
  have hmem : ∀ {task}, task ∈ join.order ↔ task ∈ tasks := join.perm.mem_iff
  unfold gracefulShutdown
  have hspec : JoinedUpTo timeout 0 join.order (joinAllLogic timeout 0 join.order) :=
    joinAllLogic_spec (Nat.zero_le timeout)
  generalize joinAllLogic timeout 0 join.order = progress at hspec ⊢
  cases hspec with
  | all hall _ hdl =>
      constructor
      · intro _ task htask hp
        rw [(hall task (hmem.mpr htask)).2] at hp
        cases hp
      · intro _
        refine ⟨?_, fun _ => ⟨fun task htask => (hall task (hmem.mpr htask)).1, ?_⟩, hdl⟩
        · intro task _ _ haborts
          exact absurd haborts.1 List.not_mem_nil
        · rw [if_neg]
          rintro ⟨task, htask, hp⟩
          rw [(hall task (hmem.mpr htask)).2] at hp
          cases hp
  | @panicked time pre rest task horder hq hc hp hdl =>
      have htask : task ∈ tasks := hmem.mp (by rw [horder]; simp)
      have hfirst : ∀ other ∈ tasks, other.panics → other ∈ task :: rest := by
        intro other hother hpo
        have hin := hmem.mpr hother
        rw [horder] at hin
        rcases List.mem_append.mp hin with hpre | hrest
        · rw [hq other hpre] at hpo
          cases hpo
        · exact hrest
      constructor
      · intro h other hother hpo t ht hlt
        -- nothing that panics completes before the first panic
        obtain ⟨c, hcc, hct⟩ := join.completesBy horder (hfirst other hother hpo) ⟨t, ht, le_rfl⟩
        rw [hc, Option.mem_some_iff] at hcc
        subst hcc
        intro third hthird
        exact ((h.early (lt_of_le_of_lt hct hlt)).1 third hthird).mono hct
      · intro h
        refine ⟨?_, ?_, hdl⟩
        · rintro other hother hby ⟨-, hnot⟩
          apply hnot
          rcases hdl.lt_or_eq with hlt | heq
          · exact h task htask hp time hc hlt other hother
          · subst heq
            exact hby
        · intro hlt
          exact ⟨h task htask hp time hc hlt, (if_pos ⟨task, htask, hp⟩).symm⟩
  | @waiting pre rest task horder hq hw =>
      constructor
      · intro _ other hother hpo t ht hlt
        have hin := hmem.mpr hother
        rw [horder] at hin
        rcases List.mem_append.mp hin with hpre | hrest
        · rw [hq other hpre] at hpo
          cases hpo
        · exact absurd (join.completesBy horder hrest ⟨t, ht, hlt.le⟩) hw
      · intro _
        exact ⟨fun _ _ hby h => h.2 hby, fun h => absurd h (lt_irrefl timeout), le_rfl⟩

/-- A task that panics after one second and one that would have finished after two, with three seconds
to wait: the shutdown returns after the first and aborts the second. -/
theorem panic_aborts_rest :
    ¬ LetsEveryTaskFinish [⟨some 1, true⟩, ⟨some 2, false⟩] 3
      (gracefulShutdown 3 (.ofTasks [⟨some 1, true⟩, ⟨some 2, false⟩])) := by
  intro h
  apply h.aborts ⟨some 2, false⟩ (by decide) ⟨2, rfl, by decide⟩
  refine ⟨by decide, ?_⟩
  rintro ⟨c, hc, hle⟩
  have hval : c = 2 := (Option.some.inj hc).symm
  subst hval
  exact absurd hle (by decide)

end AzothBalancer
