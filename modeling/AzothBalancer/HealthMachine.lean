import AzothBalancer.Cooldown

/-!
# The health machine

The abstract side of marks and health rounds. What they decide about an endpoint is three fields,
its *vitals*: the health flag, the end of the cooldown, the attempt count. An endpoint is a small
state machine over its vitals with three events, and the balancer is a table of such machines, one
for each URL, that takes events one at a time (`HealthTable.step`). A step answers whether it
panicked, and a list of events stops at its first panic (`HealthTable.run`).

* `Vitals.Counted` — the counting invariant of one machine: the attempts are those of the 429s since
  the last recovery, plus one while the endpoint is down. `Vitals.Counted.step` is its step lemma.
* `HealthTable.run_apply` — a run that does not panic acts on each URL by that URL's own events.
* `HealthTable.run_probes_apply` — a round of probes acts on each URL by that URL's own result, if the
  round gets that far (`HealthTable.reached`).

Source: `utils/cooldown.rs`, `utils/health.rs`, `balancer.rs`
-/

namespace AzothBalancer

/-- The fields of an endpoint that marks and health rounds decide about. -/
structure Vitals where
  healthy : Bool
  cooldownUntil : Option Instant
  cooldownAttempts : ℕ
  deriving DecidableEq, Repr

/-- The vitals of a record. -/
def RpcEndpoint.vitals (ep : RpcEndpoint) : Vitals :=
  ⟨ep.healthy, ep.cooldownUntil, ep.cooldownAttempts⟩

/-- What can happen to an endpoint: an upstream 429, a failed request, a probe result. -/
inductive HealthEvent where
  | rateLimited (now : Instant)
  | unhealthy (now : Instant)
  | probe (isHealthy : Bool) (now : Instant)
  deriving DecidableEq, Repr

/-- When it happens. -/
def HealthEvent.now : HealthEvent → Instant
  | .rateLimited now => now
  | .unhealthy now => now
  | .probe _ now => now

namespace Vitals

/-- The vitals of a new endpoint. -/
def initial : Vitals := ⟨true, none, 0⟩

/-- One more attempt and a new end of the cooldown, and whether adding the cooldown to the clock
panicked. -/
def trigger (base max_ : ℕ) (now : Instant) (v : Vitals) : Vitals × Bool :=
  let attempts := saturatingAdd32 v.cooldownAttempts 1
  match Instant.checkedAddSecs now (cooldownDuration attempts base max_) with
  | some until_ => (⟨v.healthy, some until_, attempts⟩, false)
  | none => (⟨v.healthy, v.cooldownUntil, attempts⟩, true)

/-- The machine. Only a 429 triggers a cooldown in every state; the other triggers need the edge from
healthy to unhealthy, and only the edge back clears the cooldown. -/
def step (base max_ : ℕ) (v : Vitals) : HealthEvent → Vitals × Bool
  | .rateLimited now => v.trigger base max_ now
  | .unhealthy now => if v.healthy then { v with healthy := false }.trigger base max_ now else (v, false)
  | .probe true _ => if v.healthy then (v, false) else (.initial, false)
  | .probe false now =>
      if v.healthy then { v with healthy := false }.trigger base max_ now else (v, false)

/-- The event calls `trigger_cooldown`: a 429 always, the others on the edge to unhealthy. -/
def triggers (v : Vitals) : HealthEvent → Bool
  | .rateLimited _ => true
  | .unhealthy _ => v.healthy
  | .probe isHealthy _ => !isHealthy && v.healthy

/-- The event takes a down endpoint back. -/
def recovers (v : Vitals) : HealthEvent → Bool
  | .probe isHealthy _ => isHealthy && !v.healthy
  | _ => false

/-- Only a down endpoint is taken back. -/
theorem healthy_of_recovers {v : Vitals} {x : HealthEvent} (h : v.recovers x = true) :
    v.healthy = false := by
  cases x with
  | probe isHealthy now => simp_all [recovers]
  | _ => cases h

/-- The vitals after an event, if there is one. -/
def receive (base max_ : ℕ) (v : Vitals) : Option HealthEvent → Vitals
  | none => v
  | some e => (v.step base max_ e).1

/-- The events of a list, one after another, panics ignored. -/
def steps (base max_ : ℕ) (v : Vitals) (events : List HealthEvent) : Vitals :=
  events.foldl (fun v e => (v.step base max_ e).1) v

/-- A trigger counts an attempt, keeps the health flag and never clears a cooldown. -/
theorem trigger_spec (base max_ : ℕ) (now : Instant) (v : Vitals) :
    (v.trigger base max_ now).1.cooldownAttempts = saturatingAdd32 v.cooldownAttempts 1 ∧
      (v.trigger base max_ now).1.healthy = v.healthy ∧
      (v.cooldownUntil.isSome → (v.trigger base max_ now).1.cooldownUntil.isSome) := by
  unfold trigger
  dsimp only
  split
  · exact ⟨rfl, rfl, fun _ => rfl⟩
  · exact ⟨rfl, rfl, id⟩

/-- Where the cooldown of a trigger that does not panic ends. -/
theorem trigger_ends_iff {base max_ : ℕ} {now until_ : Instant} {v : Vitals} :
    (v.trigger base max_ now).2 = false ∧ (v.trigger base max_ now).1.cooldownUntil = some until_ ↔
      Instant.checkedAddSecs now (cooldownDuration (saturatingAdd32 v.cooldownAttempts 1) base max_) =
        some until_ := by
  unfold trigger
  dsimp only
  split
  · rename_i hu
    simp [hu]
  · rename_i hu
    simp [hu]

/-- **What an event can do**: trigger a cooldown, on an endpoint that stays down if it was; take the
endpoint back; or nothing. -/
theorem step_cases (base max_ : ℕ) (v : Vitals) (x : HealthEvent) :
    (v.triggers x = true ∧ v.recovers x = false ∧ ∃ b, (v.healthy = false → b = false) ∧
        v.step base max_ x = { v with healthy := b }.trigger base max_ x.now) ∨
      (v.triggers x = false ∧ v.recovers x = true ∧ v.step base max_ x = (.initial, false)) ∨
      (v.triggers x = false ∧ v.recovers x = false ∧ v.step base max_ x = (v, false)) := by
  cases x with
  | rateLimited now => exact .inl ⟨rfl, rfl, v.healthy, id, rfl⟩
  | unhealthy now =>
      by_cases hh : v.healthy
      · exact .inl ⟨hh, rfl, false, fun _ => rfl, if_pos hh⟩
      · exact .inr (.inr ⟨by simpa [triggers] using hh, rfl, if_neg hh⟩)
  | probe isHealthy now =>
      cases isHealthy with
      | true =>
          by_cases hh : v.healthy
          · exact .inr (.inr ⟨rfl, by simp [recovers, hh], if_pos hh⟩)
          · exact .inr (.inl ⟨rfl, by simpa [recovers] using hh, if_neg hh⟩)
      | false =>
          by_cases hh : v.healthy
          · exact .inl ⟨by simpa [triggers] using hh, rfl, false, fun _ => rfl, if_pos hh⟩
          · exact .inr (.inr ⟨by simpa [triggers] using hh, rfl, if_neg hh⟩)

/-! ## Counting the 429s -/

/-- The number of 429s since the endpoint was created or last recovered, after one more event. -/
def count (v : Vitals) (r : ℕ) : HealthEvent → ℕ
  | .rateLimited _ => r + 1
  | .unhealthy _ => r
  | .probe true _ => if v.healthy then r else 0
  | .probe false _ => r

/-- The counting invariant, for `r` 429s since creation or the last recovery. -/
structure Counted (v : Vitals) (r : ℕ) : Prop where
  attempts : v.cooldownAttempts = min u32Max (r + if v.healthy then 0 else 1)
  cooldown : v.cooldownAttempts = 0 ↔ v.cooldownUntil = none
  down : v.healthy = false → v.cooldownUntil.isSome

/-- A new endpoint has counted nothing. -/
theorem counted_initial : Vitals.initial.Counted 0 where
  attempts := rfl
  cooldown := by simp [Vitals.initial]
  down h := by simp [Vitals.initial] at h

variable {base max_ : ℕ} {now : Instant} {v : Vitals} {r k : ℕ}

/-- A trigger that does not panic counts one attempt and sets the end of the cooldown. -/
theorem trigger_of_not_panicked (h : (v.trigger base max_ now).2 = false) :
    ∃ until_, (v.trigger base max_ now).1 =
      ⟨v.healthy, some until_, saturatingAdd32 v.cooldownAttempts 1⟩ := by
  unfold trigger at h ⊢
  dsimp only at h ⊢
  split
  · rename_i until_ hu
    exact ⟨until_, rfl⟩
  · rename_i hn
    rw [hn] at h
    cases h

/-- After a trigger on an endpoint with `k` attempts, up to saturation, the invariant holds for the
count that makes `k + 1`. -/
theorem counted_of_trigger (hk : v.cooldownAttempts = min u32Max k)
    (hr : r + (if v.healthy then 0 else 1) = k + 1) (h : (v.trigger base max_ now).2 = false) :
    (v.trigger base max_ now).1.Counted r := by
  obtain ⟨until_, ht⟩ := trigger_of_not_panicked h
  have hsat : saturatingAdd32 v.cooldownAttempts 1 = min u32Max (k + 1) := by
    rw [hk]
    exact saturatingAdd32_one_of_min k
  have hpos : 0 < saturatingAdd32 v.cooldownAttempts 1 := by
    rw [hsat]
    exact lt_min (by decide) (Nat.succ_pos k)
  rw [ht]
  refine ⟨?_, ?_, fun _ => rfl⟩
  · show saturatingAdd32 v.cooldownAttempts 1 = min u32Max (r + if v.healthy then 0 else 1)
    rw [hr, hsat]
  · exact ⟨fun h0 => absurd h0 hpos.ne', fun h0 => by cases h0⟩

/-- **Every event that does not panic keeps the counting invariant.** The cases are the events; each
trigger counts one attempt, on a 429 for the 429 and on the edge to unhealthy for being down. -/
theorem Counted.step (h : v.Counted r) (e : HealthEvent) (hp : (v.step base max_ e).2 = false) :
    (v.step base max_ e).1.Counted (v.count r e) := by
  have hdown : ∀ now, v.healthy = true →
      ({ v with healthy := false }.trigger base max_ now).2 = false →
      ({ v with healthy := false }.trigger base max_ now).1.Counted r := by
    intro now hh hpan
    refine counted_of_trigger (k := r) ?_ rfl hpan
    have ha := h.attempts
    rw [hh] at ha
    exact ha
  cases e with
  | rateLimited now =>
      refine counted_of_trigger h.attempts ?_ hp
      show r + 1 + _ = r + _ + 1
      omega
  | unhealthy now =>
      simp only [Vitals.step, count] at hp ⊢
      split
      · rename_i hh
        rw [if_pos hh] at hp
        exact hdown now hh hp
      · exact h
  | probe isHealthy now =>
      cases isHealthy with
      | true =>
          simp only [Vitals.step, count]
          split
          · exact h
          · exact counted_initial
      | false =>
          simp only [Vitals.step, count] at hp ⊢
          split
          · rename_i hh
            rw [if_pos hh] at hp
            exact hdown now hh hp
          · exact h

end Vitals

/-! ## The table -/

/-- The vitals of every endpoint, by URL. -/
abbrev HealthTable := String → Option Vitals

namespace HealthTable

/-- One event at one URL; an unknown URL ignores it. -/
def step (base max_ : ℕ) (t : HealthTable) (x : String × HealthEvent) : HealthTable × Bool :=
  match t x.1 with
  | none => (t, false)
  | some v => (Function.update t x.1 (some (v.step base max_ x.2).1), (v.step base max_ x.2).2)

/-- Events in order, up to the first panic. -/
def run (base max_ : ℕ) : List (String × HealthEvent) → HealthTable → HealthTable × Bool
  | [], t => (t, false)
  | x :: xs, t =>
      match t.step base max_ x with
      | (t, true) => (t, true)
      | (t, false) => run base max_ xs t

/-- The events of a list that concern one URL. -/
def eventsAt (url : String) (xs : List (String × HealthEvent)) : List HealthEvent :=
  (xs.filter fun x => x.1 = url).map Prod.snd

variable {base max_ : ℕ} {t : HealthTable} {x : String × HealthEvent}
  {xs : List (String × HealthEvent)} {url : String}

/-- What one step does to one URL. -/
theorem step_apply : (t.step base max_ x).1 url =
    if x.1 = url then (t url).map fun v => (v.step base max_ x.2).1 else t url := by
  unfold step
  by_cases hu : x.1 = url
  · subst hu
    rw [if_pos rfl]
    cases ht : t x.1 with
    | none => exact ht
    | some v => exact Function.update_self ..
  · rw [if_neg hu]
    cases ht : t x.1 with
    | none => rfl
    | some v => exact Function.update_of_ne (Ne.symm hu) _ _

/-- A run by its first event. -/
theorem run_cons_of_not_panicked (h : (run base max_ (x :: xs) t).2 = false) :
    (t.step base max_ x).2 = false ∧
      run base max_ (x :: xs) t = run base max_ xs (t.step base max_ x).1 := by
  rw [run] at h ⊢
  cases hs : t.step base max_ x with
  | mk t' panicked =>
      cases panicked with
      | true => simp [hs] at h
      | false => exact ⟨rfl, rfl⟩

/-- **A run that does not panic is, at each URL, the run of that URL's events.** -/
theorem run_apply : ∀ {xs : List (String × HealthEvent)} {t : HealthTable},
    (run base max_ xs t).2 = false →
    (run base max_ xs t).1 url = (t url).map fun v => v.steps base max_ (eventsAt url xs)
  | [], t, _ => by simp [run, Vitals.steps, eventsAt]
  | x :: xs, t, h => by
      obtain ⟨-, heq⟩ := run_cons_of_not_panicked h
      rw [heq] at h ⊢
      rw [run_apply h, step_apply]
      by_cases hu : x.1 = url
      · rw [if_pos hu, Option.map_map]
        simp [eventsAt, hu, Vitals.steps, Function.comp_def]
      · rw [if_neg hu]
        simp [eventsAt, hu]

/-! ## Probe results

The results of one round, for distinct URLs. An event does not touch the other URLs, so whether a result
panics, and what it does, is decided by the table the round starts with. -/

section probes

variable {now : Instant} {r : String × Bool} {results : List (String × Bool)} {t' : HealthTable}

/-- The result asks for a cooldown that does not fit the clock. -/
def overflows (base max_ : ℕ) (now : Instant) (t : HealthTable) (r : String × Bool) : Bool :=
  match t r.1 with
  | none => false
  | some v =>
      !r.2 && v.healthy &&
        (Instant.checkedAddSecs now
          (cooldownDuration (saturatingAdd32 v.cooldownAttempts 1) base max_)).isNone

/-- The results that are applied: all of them, or those up to the first that overflows. -/
def reached (base max_ : ℕ) (now : Instant) (t : HealthTable) :
    List (String × Bool) → List (String × Bool)
  | [] => []
  | r :: rest => r :: if t.overflows base max_ now r then [] else reached base max_ now t rest

/-- A result panics exactly if it overflows. -/
theorem step_probe_snd :
    (t.step base max_ (r.1, .probe r.2 now)).2 = t.overflows base max_ now r := by
  obtain ⟨url, isHealthy⟩ := r
  unfold step overflows
  cases t url with
  | none => rfl
  | some v =>
      dsimp only
      cases isHealthy with
      | true => by_cases hh : v.healthy <;> simp [Vitals.step, hh]
      | false =>
          by_cases hh : v.healthy
          · simp only [Vitals.step, Vitals.trigger, hh, if_true]
            split
            · rename_i until_ hu
              simp [hu]
            · rename_i hu
              simp [hu]
          · simp [Vitals.step, hh]

/-- Only a result's own URL decides whether it overflows. -/
theorem overflows_congr (h : t r.1 = t' r.1) :
    t.overflows base max_ now r = t'.overflows base max_ now r := by
  unfold overflows
  rw [h]

/-- A result does not touch the URLs of the others. -/
theorem step_probe_of_not_mem (h : r.1 ∉ results.map Prod.fst) :
    ∀ r' ∈ results, (t.step base max_ (r.1, .probe r.2 now)).1 r'.1 = t r'.1 := by
  intro r' hr'
  rw [step_apply, if_neg]
  intro he
  exact h (List.mem_map.mpr ⟨r', hr', he.symm⟩)

/-- What overflows decides which results are applied. -/
theorem reached_congr (h : ∀ r ∈ results, t.overflows base max_ now r = t'.overflows base max_ now r) :
    reached base max_ now t results = reached base max_ now t' results := by
  induction results with
  | nil => rfl
  | cons r rest ih =>
      obtain ⟨hr, hrest⟩ := List.forall_mem_cons.mp h
      rw [reached, reached, hr, ih hrest]

/-- What is applied is a part of the results. -/
theorem reached_sublist (results : List (String × Bool)) :
    (reached base max_ now t results).Sublist results := by
  induction results with
  | nil => exact List.Sublist.slnil
  | cons r rest ih =>
      rw [reached]
      apply List.Sublist.cons_cons
      split
      · exact List.nil_sublist rest
      · exact ih

/-- **A round of probes, at one URL**: the URL's own result, if it is applied.
The induction is on the results; the table after the first is the table before at the URLs of the rest. -/
theorem run_probes_apply (hn : (results.map Prod.fst).Nodup) (url : String) :
    (run base max_ (results.map fun r => (r.1, .probe r.2 now)) t).1 url =
      (t url).map fun v => v.receive base max_
        ((KeyedList.lookup Prod.fst url (reached base max_ now t results)).map fun r =>
          .probe r.2 now) := by
  induction results generalizing t with
  | nil => exact (Option.map_id' (x := t url)).symm
  | cons r rest ih =>
      rw [List.map_cons, List.nodup_cons] at hn
      have hat := @step_apply base max_ t (r.1, .probe r.2 now) url
      have hpanic := @step_probe_snd base max_ t now r
      have hrest : reached base max_ now (t.step base max_ (r.1, .probe r.2 now)).1 rest =
          reached base max_ now t rest :=
        reached_congr fun r' hr' => overflows_congr (step_probe_of_not_mem hn.1 r' hr')
      rw [List.map_cons, run, reached, KeyedList.lookup_cons]
      cases hs : t.step base max_ (r.1, .probe r.2 now) with
      | mk t' panicked =>
          rw [hs] at hat hpanic hrest
          dsimp only at hat hpanic hrest
          rw [← hpanic]
          cases panicked with
          | true =>
              show t' url = _
              rw [hat]
              split
              · rfl
              · exact (Option.map_id' (x := t url)).symm
          | false =>
              show (run base max_ (rest.map fun r => (r.1, .probe r.2 now)) t').1 url = _
              rw [ih hn.2, hrest, hat, if_neg Bool.false_ne_true]
              by_cases hu : r.1 = url
              · have hnone : KeyedList.lookup Prod.fst url (reached base max_ now t rest) = none := by
                  rw [KeyedList.lookup_eq_none_iff, ← hu]
                  intro hmem
                  exact hn.1 (((reached_sublist rest).map Prod.fst).subset hmem)
                rw [hnone, if_pos hu, if_pos hu, Option.map_map]
                rfl
              · rw [if_neg hu, if_neg hu]

end probes

end HealthTable

end AzothBalancer
