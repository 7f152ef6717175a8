import AzothBalancer.StoreInvariant

/-!
# Interleavings

Operations and reloads running at the same time. A reload call in flight is its settings, its local
variables and the sections it has still to run (`ReloadCall`); the system is the world with the calls
in flight. An event (`SystemEvent`) is one operation, the start of a reload, or the next section of
one call, so a list of events is one interleaving, and every interleaving is such a list.

`System.Reachable` are the states of all interleavings from a startup. In each of them the world is
well formed and so is what the calls in flight are about to publish (`System.Sound`); whether
limiters and endpoints match is another matter.
-/

namespace AzothBalancer

variable {M : Meter}

/-- A reload in flight.
Source: `config_reloader.rs` `reload` -/
structure ReloadCall where
  settings : Settings
  now : Instant
  frame : ReloadFrame := {}
  /-- The sections still to run. -/
  rest : List ReloadSection := reloadProgram

/-- The world and the reloads in flight, in the order they started. -/
structure System (M : Meter) where
  world : World M
  reloads : List ReloadCall

/-- One step of an interleaving. -/
inductive SystemEvent where
  | operation (op : Operation)
  | startReload (read : String → ReadResult) (now : Instant)
  /-- The next section of the reload at this position. -/
  | reloadSection (i : ℕ)

/-- The next section of a call in a world: the world and the call afterwards. -/
def ReloadCall.advance (P : Platform) (w : World M) (call : ReloadCall) : World M × ReloadCall :=
  match call.rest with
  | [] => (w, call)
  | sec :: rest =>
      let (w, frame) := execSection P call.settings call.now w call.frame sec
      (w, { call with frame := frame, rest := rest })

/-- One step. A reload whose configuration is refused ends at once, without effect. -/
def System.step (P : Platform) (s : System M) : SystemEvent → System M
  | .operation op => { s with world := (s.world.exec op).1 }
  | .startReload read now =>
      match loadSettings P read s.world.lb.configPath with
      | .ok c => { s with reloads := s.reloads ++ [{ settings := c, now := now }] }
      | _ => s
  | .reloadSection i =>
      match s.reloads[i]? with
      | none => s
      | some call =>
          let (w, call) := call.advance P s.world
          { world := w, reloads := s.reloads.set i call }

/-- The step of a call in flight. -/
theorem System.step_reloadSection (P : Platform) {s : System M} {k : ℕ} {call : ReloadCall}
    (h : s.reloads[k]? = some call) :
    s.step P (.reloadSection k) =
      ⟨(call.advance P s.world).1, s.reloads.set k (call.advance P s.world).2⟩ := by
  unfold System.step
  dsimp only
  rw [h]

/-- The step of a call that is not in flight. -/
theorem System.step_reloadSection_of_none (P : Platform) {s : System M} {k : ℕ}
    (h : s.reloads[k]? = none) : s.step P (.reloadSection k) = s := by
  unfold System.step
  dsimp only
  rw [h]

/-- The state after an interleaving. -/
def System.run (P : Platform) (s : System M) (events : List SystemEvent) : System M :=
  Runs.run (System.step P) s events

/-- The states of all interleavings from a startup. -/
def System.Reachable (P : Platform) (s : System M) : Prop :=
  ∃ config path now w events, LoadBalancer.new M P.toLowercase config path now = some w ∧
    s = System.run P ⟨w, []⟩ events

/-- The worlds of all interleavings from a startup. -/
def World.Reachable (P : Platform) (w : World M) : Prop :=
  ∃ s : System M, s.Reachable P ∧ s.world = w

/-! ## Every state is well formed -/

/-- What a call is about to publish is well formed. -/
structure ReloadFrame.Sound (frame : ReloadFrame) (w : World M) : Prop where
  nodup : (frame.newRpcEndpoints.map RpcEndpoint.url).Nodup
  metrics : ∀ ep ∈ frame.newRpcEndpoints, w.metrics.Valid ep.metrics
  limiters : ∀ url r, frame.newRateLimiters url = some r → w.limiters.Valid r

/-- The world is well formed, and so is what the calls in flight publish. -/
structure System.Sound (s : System M) : Prop where
  world : s.world.WellFormed
  settings : ∀ call ∈ s.reloads, call.settings.Valid
  frames : ∀ call ∈ s.reloads, call.frame.Sound s.world

/-- References of `w` are references of `w'`. -/
structure World.Grows (w w' : World M) : Prop where
  metrics : ∀ r, w.metrics.Valid r → w'.metrics.Valid r
  limiters : ∀ r, w.limiters.Valid r → w'.limiters.Valid r

/-- An operation keeps every reference. -/
theorem World.Keeps.grows {w w' : World M} (h : w.Keeps w') : w.Grows w' where
  metrics r hr := (h.metrics r).mpr hr
  limiters r hr := by
    obtain ⟨l, hl⟩ := RefHeap.valid_iff_exists.mp hr
    have hp := h.limiters r
    rw [hl] at hp
    obtain ⟨l', hl', -⟩ := Option.map_eq_some_iff.mp hp
    exact RefHeap.valid_of_get? hl'

/-- A frame stays sound while references stay. -/
theorem ReloadFrame.Sound.mono {frame : ReloadFrame} {w w' : World M} (hg : w.Grows w')
    (h : frame.Sound w) : frame.Sound w' where
  nodup := h.nodup
  metrics ep hep := hg.metrics _ (h.metrics ep hep)
  limiters url r hr := hg.limiters _ (h.limiters url r hr)

/-- The frame of a call that has not merged yet is sound. -/
theorem ReloadFrame.sound_empty (w : World M) : ReloadFrame.Sound {} w where
  nodup := List.nodup_nil
  metrics _ hep := by simp at hep
  limiters _ _ hr := by simp at hr

/-- The sections that neither merge nor publish the two stores. -/
def ReloadSection.isQuiet : ReloadSection → Bool
  | .merge | .writeEndpoints | .writeRateLimiters => false
  | _ => true

/-- Neither store, and no object, differs. -/
structure World.SameStores (w w' : World M) : Prop where
  endpoints : w'.lb.endpoints = w.lb.endpoints
  rateLimiters : w'.lb.rateLimiters = w.lb.rateLimiters
  metrics : w'.metrics = w.metrics
  limiters : w'.limiters = w.limiters

/-- A quiet section leaves the two stores, and what is about to be published, as they are. -/
theorem execSection_quiet (P : Platform) (c : Settings) (now : Instant) (w : World M)
    (frame : ReloadFrame) {sec : ReloadSection} (h : sec.isQuiet) :
    w.SameStores (execSection P c now w frame sec).1 ∧
      (execSection P c now w frame sec).2.newRpcEndpoints = frame.newRpcEndpoints ∧
      (execSection P c now w frame sec).2.newRateLimiters = frame.newRateLimiters ∧
      (execSection P c now w frame sec).2.panicked = frame.panicked := by
  unfold execSection
  split
  · exact ⟨⟨rfl, rfl, rfl, rfl⟩, rfl, rfl, rfl⟩
  · cases sec with
    | merge => cases h
    | writeEndpoints => cases h
    | writeRateLimiters => cases h
    | writeClient =>
        dsimp only
        split <;> exact ⟨⟨rfl, rfl, rfl, rfl⟩, rfl, rfl, rfl⟩
    | writeClientField f =>
        dsimp only
        split
        · cases f <;> exact ⟨⟨rfl, rfl, rfl, rfl⟩, rfl, rfl, rfl⟩
        · exact ⟨⟨rfl, rfl, rfl, rfl⟩, rfl, rfl, rfl⟩
    | publish p => cases p <;> exact ⟨⟨rfl, rfl, rfl, rfl⟩, rfl, rfl, rfl⟩
    | compareClient f => exact ⟨⟨rfl, rfl, rfl, rfl⟩, rfl, rfl, rfl⟩
    | diff => exact ⟨⟨rfl, rfl, rfl, rfl⟩, rfl, rfl, rfl⟩
    | cleanup => exact ⟨⟨rfl, rfl, rfl, rfl⟩, rfl, rfl, rfl⟩
    | setTotal => exact ⟨⟨rfl, rfl, rfl, rfl⟩, rfl, rfl, rfl⟩
    | countHealthy => exact ⟨⟨rfl, rfl, rfl, rfl⟩, rfl, rfl, rfl⟩

/-- The merge section on valid settings does not panic; it computes the merged list and map.
Source: `config_reloader.rs` `reload`, the second read section -/
theorem mergeSection_spec {c : Settings} (hc : c.Valid) (now : Instant) (w : World M)
    (frame : ReloadFrame) :
    ∃ (s : MergeState M) (eps : List RpcEndpoint),
      MergeStep w.lb now c.endpoints w.mergeStart s eps ∧
      mergeSection c now w frame =
        ({ w with metrics := s.metrics, limiters := s.limiters, prom := s.prom },
          { frame with newRpcEndpoints := eps, newRateLimiters := s.newRateLimiters }) := by
  obtain ⟨s, eps, hs, hstep⟩ :=
    mergeEndpoints_spec w.lb now c.endpoints w.mergeStart hc.endpoint hc.nodup fun _ _ => rfl
  have heps : s.newRpcEndpoints = eps := hstep.endpoints
  refine ⟨s, eps, hstep, ?_⟩
  unfold mergeSection
  rw [hs, ← heps]

/-- What a section leaves behind: a well-formed world that keeps every reference, and a sound frame.
Source: `config_reloader.rs` `reload` -/
theorem sound_execSection (P : Platform) {c : Settings} (hc : c.Valid) (now : Instant) {w : World M}
    {frame : ReloadFrame} (hw : w.WellFormed) (hf : frame.Sound w) (sec : ReloadSection) :
    (execSection P c now w frame sec).1.WellFormed ∧
      (execSection P c now w frame sec).2.Sound (execSection P c now w frame sec).1 ∧
      w.Grows (execSection P c now w frame sec).1 := by
  by_cases hq : sec.isQuiet
  · obtain ⟨hs, heps, hmap, -⟩ := execSection_quiet P c now w frame hq
    have hg : w.Grows (execSection P c now w frame sec).1 :=
      ⟨fun r hr => by rw [hs.metrics]; exact hr, fun r hr => by rw [hs.limiters]; exact hr⟩
    refine ⟨⟨?_, ?_, ?_⟩, ⟨?_, ?_, ?_⟩, hg⟩
    · rw [hs.endpoints]
      exact hw.nodup
    · rw [hs.endpoints, hs.metrics]
      exact hw.metrics
    · rw [hs.rateLimiters, hs.limiters]
      exact hw.limiters
    · rw [heps]
      exact hf.nodup
    · rw [heps, hs.metrics]
      exact hf.metrics
    · rw [hmap, hs.limiters]
      exact hf.limiters
  · unfold execSection
    split
    · exact ⟨hw, hf, ⟨fun _ h => h, fun _ h => h⟩⟩
    · cases sec with
      | merge =>
          obtain ⟨s, eps, hstep, heq⟩ := mergeSection_spec hc now w frame
          rw [heq]
          have hg : w.Grows { w with metrics := s.metrics, limiters := s.limiters, prom := s.prom } :=
            ⟨fun _ hr => hstep.metrics.valid hr, fun _ hr => hstep.limiterHeap.valid hr⟩
          refine ⟨⟨hw.nodup, fun ep hep => hg.metrics _ (hw.metrics ep hep),
            fun url r hr => hg.limiters _ (hw.limiters url r hr)⟩, ⟨?_, ?_, ?_⟩, hg⟩
          · show (eps.map RpcEndpoint.url).Nodup
            rw [hstep.urls]
            exact hc.nodup
          · exact hstep.metrics_valid hw.metrics
          · exact hstep.limiters_valid rfl hw.limiters
      | writeEndpoints =>
          exact ⟨⟨hf.nodup, hf.metrics, hw.limiters⟩, ⟨hf.nodup, hf.metrics, hf.limiters⟩,
            ⟨fun _ h => h, fun _ h => h⟩⟩
      | writeRateLimiters =>
          exact ⟨⟨hw.nodup, hw.metrics, hf.limiters⟩, ⟨hf.nodup, hf.metrics, hf.limiters⟩,
            ⟨fun _ h => h, fun _ h => h⟩⟩
      | _ => exact absurd rfl hq

/-- A call keeps its settings. -/
@[simp] theorem ReloadCall.advance_settings (P : Platform) (w : World M) (call : ReloadCall) :
    (call.advance P w).2.settings = call.settings := by
  unfold ReloadCall.advance
  split <;> rfl

/-- Advancing a call leaves a well-formed world that keeps every reference, and a sound frame. -/
theorem sound_advance (P : Platform) {w : World M} {call : ReloadCall} (hc : call.settings.Valid)
    (hw : w.WellFormed) (hf : call.frame.Sound w) :
    (call.advance P w).1.WellFormed ∧ (call.advance P w).2.frame.Sound (call.advance P w).1 ∧
      w.Grows (call.advance P w).1 := by
  unfold ReloadCall.advance
  split
  · exact ⟨hw, hf, ⟨fun _ h => h, fun _ h => h⟩⟩
  · exact sound_execSection P hc call.now hw hf _

/-- **Every event keeps the system sound.** -/
theorem sound_step (P : Platform) {s : System M} (e : SystemEvent) (h : s.Sound) :
    (s.step P e).Sound := by
  cases e with
  | operation op =>
      have hk := keeps_exec s.world op
      exact ⟨hk.wellFormed h.world, h.settings, fun call hcall => (h.frames call hcall).mono hk.grows⟩
  | startReload read now =>
      unfold System.step
      dsimp only
      split
      · rename_i c hc
        obtain ⟨-, -, -, -, -, -, -, hvalid⟩ := loadSettings_eq_ok hc
        refine ⟨h.world, ?_, ?_⟩
        · intro call hcall
          rcases List.mem_append.mp hcall with hold | hnew
          · exact h.settings call hold
          · rw [List.mem_singleton] at hnew
            subst hnew
            exact hvalid
        · intro call hcall
          rcases List.mem_append.mp hcall with hold | hnew
          · exact h.frames call hold
          · rw [List.mem_singleton] at hnew
            subst hnew
            exact ReloadFrame.sound_empty _
      · exact h
  | reloadSection i =>
      unfold System.step
      dsimp only
      cases hi : s.reloads[i]? with
      | none => exact h
      | some call =>
          have hcall : call ∈ s.reloads := List.mem_of_getElem? hi
          obtain ⟨hw, hf, hg⟩ :=
            sound_advance P (h.settings call hcall) h.world (h.frames call hcall)
          refine ⟨hw, ?_, ?_⟩
          · intro call' hcall'
            rcases List.mem_or_eq_of_mem_set hcall' with hold | rfl
            · exact h.settings call' hold
            · rw [ReloadCall.advance_settings]
              exact h.settings call hcall
          · intro call' hcall'
            rcases List.mem_or_eq_of_mem_set hcall' with hold | rfl
            · exact (h.frames call' hold).mono hg
            · exact hf

/-- Every run keeps the system sound. -/
theorem sound_run (P : Platform) {s : System M} (h : s.Sound) (events : List SystemEvent) :
    (s.run P events).Sound :=
  Runs.invariant System.Sound (fun _ => True) (fun _ e _ h => sound_step P e h)
    (fun _ _ => trivial) h

/-- **Every reachable system is sound.** -/
theorem System.Reachable.sound {P : Platform} {s : System M} (h : s.Reachable P) : s.Sound := by
  obtain ⟨config, path, now, w, events, hnew, rfl⟩ := h
  obtain ⟨-, -, c, -, -, -, hstart⟩ := started_of_new hnew
  exact sound_run P ⟨hstart.wellFormed, fun _ h => by simp at h, fun _ h => by simp at h⟩ events

/-- Every reachable world is well formed. -/
theorem World.Reachable.wellFormed {P : Platform} {w : World M} (h : w.Reachable P) :
    w.WellFormed := by
  obtain ⟨s, hs, rfl⟩ := h
  exact hs.sound.world

/-- A startup is reachable. -/
theorem World.reachable_of_new {P : Platform} {config : Option Config} {path : String}
    {now : Instant} {w : World M} (h : LoadBalancer.new M P.toLowercase config path now = some w) :
    w.Reachable P :=
  ⟨⟨w, []⟩, ⟨config, path, now, w, [], h, rfl⟩, rfl⟩

/-! ## Invariants of the world and of what reloads publish -/

/-- `W` holds of the world, and `F` of what every call in flight is about to publish. -/
structure System.Holds (W : World M → Prop) (F : ReloadFrame → Prop) (s : System M) : Prop where
  world : W s.world
  frames : ∀ call ∈ s.reloads, F call.frame

/-- `W` and `F` are kept by all that happens to a sound system: by operations, by the start of a reload,
and by every section of one. -/
structure System.Kept (P : Platform) (W : World M → Prop) (F : ReloadFrame → Prop) : Prop where
  operation : ∀ w op, W w → W (w.exec op).1
  empty : F {}
  section_ : ∀ c now w frame sec, c.Valid → w.WellFormed → W w → F frame →
    W (execSection P c now w frame sec).1 ∧ F (execSection P c now w frame sec).2

section kept

variable {P : Platform} {W : World M → Prop} {F : ReloadFrame → Prop}

/-- Every event keeps such properties. -/
theorem System.Kept.step (hk : System.Kept P W F) {s : System M} (e : SystemEvent) (hsound : s.Sound)
    (h : s.Holds W F) : (s.step P e).Holds W F := by
  cases e with
  | operation op => exact ⟨hk.operation s.world op h.world, h.frames⟩
  | startReload read now =>
      unfold System.step
      dsimp only
      split
      · refine ⟨h.world, fun call hcall => ?_⟩
        rcases List.mem_append.mp hcall with hold | hnew
        · exact h.frames call hold
        · rw [List.mem_singleton] at hnew
          subst hnew
          exact hk.empty
      · exact h
  | reloadSection i =>
      cases hi : s.reloads[i]? with
      | none =>
          rw [System.step_reloadSection_of_none P hi]
          exact h
      | some call =>
          have hcall : call ∈ s.reloads := List.mem_of_getElem? hi
          have hadv : W (call.advance P s.world).1 ∧ F (call.advance P s.world).2.frame := by
            unfold ReloadCall.advance
            split
            · exact ⟨h.world, h.frames call hcall⟩
            · exact hk.section_ _ call.now s.world call.frame _ (hsound.settings call hcall) hsound.world
                h.world (h.frames call hcall)
          rw [System.step_reloadSection P hi]
          refine ⟨hadv.1, fun call' hcall' => ?_⟩
          rcases List.mem_or_eq_of_mem_set hcall' with hold | rfl
          · exact h.frames call' hold
          · exact hadv.2

/-- **What startup establishes, and all events keep, holds in every reachable state.** -/
theorem System.Reachable.of_kept (hk : System.Kept P W F)
    (hnew : ∀ config path now w, LoadBalancer.new M P.toLowercase config path now = some w → W w)
    {s : System M} (h : s.Reachable P) : s.Holds W F := by
  obtain ⟨config, path, now, w₀, events, hstart, rfl⟩ := h
  have hsound : System.Sound ⟨w₀, []⟩ :=
    System.Reachable.sound ⟨config, path, now, w₀, [], hstart, rfl⟩
  have hinv : (System.run P ⟨w₀, []⟩ events).Sound ∧ (System.run P ⟨w₀, []⟩ events).Holds W F :=
    Runs.invariant (fun s : System M => s.Sound ∧ s.Holds W F) (fun _ => True)
      (fun _ e _ h => ⟨sound_step P e h.1, hk.step e h.1 h.2⟩) (fun _ _ => trivial)
      ⟨hsound, hnew config path now w₀ hstart, fun _ h => by simp at h⟩
  exact hinv.2

end kept

/-! ## The phases of a reload -/

/-- The sections before the merge. -/
def readSections : List ReloadSection := clientSections ++ [.diff, .cleanup]

/-- The sections after both stores have been published. -/
def settleSections : List ReloadSection := publishSections.drop 2 ++ [.setTotal, .countHealthy]

/-- The program by its three sections that are not quiet. -/
theorem reloadProgram_eq : reloadProgram =
    readSections ++ .merge :: .writeEndpoints :: .writeRateLimiters :: settleSections := rfl

/-- Where a reload stands: before its merge, between the merge and the new endpoint list, between
the new list and the new limiter map, or after that. -/
inductive ReloadPhase where
  | reading
  | merged
  | swapped
  | settled
  deriving DecidableEq, Repr

/-- The sections still to run in a phase. -/
inductive AtPhase : ReloadPhase → List ReloadSection → Prop where
  | reading (r : List ReloadSection) : (∀ sec ∈ r, sec.isQuiet) →
      AtPhase .reading (r ++ .merge :: .writeEndpoints :: .writeRateLimiters :: settleSections)
  | merged : AtPhase .merged (.writeEndpoints :: .writeRateLimiters :: settleSections)
  | swapped : AtPhase .swapped (.writeRateLimiters :: settleSections)
  | settled (r : List ReloadSection) : (∀ sec ∈ r, sec.isQuiet) → AtPhase .settled r

/-- In the merged phase the next section publishes the list. -/
theorem AtPhase.head_of_merged {phase : ReloadPhase} {rest : List ReloadSection}
    (h : AtPhase phase rest) (hp : phase = .merged) : rest.head? = some .writeEndpoints := by
  cases h <;> first | rfl | cases hp

/-- In the swapped phase the next section publishes the map. -/
theorem AtPhase.head_of_swapped {phase : ReloadPhase} {rest : List ReloadSection}
    (h : AtPhase phase rest) (hp : phase = .swapped) : rest.head? = some .writeRateLimiters := by
  cases h <;> first | rfl | cases hp

/-- The new list is still to be published, or it has been. -/
theorem AtPhase.before_or_after {phase : ReloadPhase} {rest : List ReloadSection} (h : AtPhase phase rest) :
    (phase = .reading ∨ phase = .merged) ∨ .writeEndpoints ∉ rest := by
  cases h with
  | reading r hr => exact .inl (.inl rfl)
  | merged => exact .inl (.inr rfl)
  | swapped => exact .inr (by decide)
  | settled _ hr => exact .inr fun hmem => absurd (hr _ hmem) (by decide)

/-- A call about to publish the map is in the swapped phase. -/
theorem AtPhase.swapped_of_head {phase : ReloadPhase} {rest : List ReloadSection}
    (h : AtPhase phase rest) (hhead : rest.head? = some .writeRateLimiters) : phase = .swapped := by
  have hquiet : ∀ r : List ReloadSection, (∀ sec ∈ r, sec.isQuiet) →
      r.head? ≠ some .writeRateLimiters := by
    intro r hr hr'
    exact absurd (hr _ (List.mem_of_head? hr')) (by decide)
  cases h with
  | reading r hr =>
      cases r with
      | nil => cases hhead
      | cons sec r => exact absurd hhead (hquiet (sec :: r) hr)
  | merged => cases hhead
  | swapped => rfl
  | settled _ hr => exact absurd hhead (hquiet rest hr)

/-- A reload starts by reading. -/
theorem atPhase_start : AtPhase .reading reloadProgram := by
  rw [reloadProgram_eq]
  exact .reading _ (by decide)

/-- The sections after the publication of the stores are quiet. -/
theorem isQuiet_of_mem_settle : ∀ sec ∈ settleSections, sec.isQuiet := by decide

/-- The call has merged and is about to publish the new endpoint list. -/
def ReloadCall.BeforeSwap (call : ReloadCall) : Prop := call.rest.head? = some .writeEndpoints

/-- The call has published the new endpoint list and not yet the new limiter map. -/
def ReloadCall.InSwap (call : ReloadCall) : Prop := call.rest.head? = some .writeRateLimiters

instance (call : ReloadCall) : Decidable call.BeforeSwap :=
  inferInstanceAs (Decidable (call.rest.head? = some .writeEndpoints))

instance (call : ReloadCall) : Decidable call.InSwap :=
  inferInstanceAs (Decidable (call.rest.head? = some .writeRateLimiters))

/-- What the next section of a reload in a given phase does: the phase, the world and the local
variables afterwards. -/
inductive Advances (P : Platform) (c : Settings) (now : Instant) (w : World M)
    (frame : ReloadFrame) : ReloadPhase → ReloadPhase → World M → ReloadFrame → Prop where
  /-- The reload has ended. -/
  | done : Advances P c now w frame .settled .settled w frame
  /-- A quiet section, before the merge or after both publications. -/
  | quiet {phase : ReloadPhase} (sec : ReloadSection) : sec.isQuiet → phase ≠ .merged →
      phase ≠ .swapped → Advances P c now w frame phase phase
        (execSection P c now w frame sec).1 (execSection P c now w frame sec).2
  /-- The merge. -/
  | merge {s : MergeState M} {eps : List RpcEndpoint} :
      MergeStep w.lb now c.endpoints w.mergeStart s eps →
      Advances P c now w frame .reading .merged
        { w with metrics := s.metrics, limiters := s.limiters, prom := s.prom }
        { frame with newRpcEndpoints := eps, newRateLimiters := s.newRateLimiters }
  /-- The publication of the endpoint list. -/
  | swap : Advances P c now w frame .merged .swapped
      { w with lb := { w.lb with endpoints := frame.newRpcEndpoints } } frame
  /-- The publication of the limiter map. -/
  | settle : Advances P c now w frame .swapped .settled
      { w with lb := { w.lb with rateLimiters := frame.newRateLimiters } } frame

/-- **Every section of a reload**, by the phase it is in. No section panics on valid settings, and only
the merge section merges.
Source: `config_reloader.rs` `reload` -/
theorem advance_spec (P : Platform) (w : World M) {call : ReloadCall} {phase : ReloadPhase}
    (hc : call.settings.Valid) (hpan : call.frame.panicked = false) (h : AtPhase phase call.rest) :
    ∃ phase' w' frame' rest', call.advance P w = (w', { call with frame := frame', rest := rest' }) ∧
      frame'.panicked = false ∧ AtPhase phase' rest' ∧
      (phase = .reading → phase' = .merged → call.rest.head? = some .merge) ∧
      Advances P call.settings call.now w call.frame phase phase' w' frame' := by
  obtain ⟨c, now, frame, rest⟩ := call
  dsimp only at hc hpan h
  have hquiet : ∀ (sec : ReloadSection) (rest' : List ReloadSection), sec.isQuiet →
      AtPhase phase rest' → phase ≠ .merged → phase ≠ .swapped →
      ∃ phase' w' frame' rest'', ReloadCall.advance P w ⟨c, now, frame, sec :: rest'⟩ =
          (w', ⟨c, now, frame', rest''⟩) ∧
        frame'.panicked = false ∧ AtPhase phase' rest'' ∧
        (phase = .reading → phase' = .merged → (sec :: rest').head? = some .merge) ∧
        Advances P c now w frame phase phase' w' frame' := by
    intro sec rest' hq hat hm hs
    obtain ⟨-, -, -, hpan'⟩ := execSection_quiet P c now w frame hq
    exact ⟨phase, _, _, rest', rfl, hpan'.trans hpan, hat, fun _ h => absurd h hm,
      .quiet sec hq hm hs⟩
  cases h with
  | reading r hr =>
      cases r with
      | cons sec r =>
          exact hquiet sec _ (hr sec List.mem_cons_self)
            (.reading r fun a ha => hr a (List.mem_cons_of_mem _ ha)) (by simp) (by simp)
      | nil =>
          obtain ⟨m, eps, hstep, heq⟩ := mergeSection_spec hc now w frame
          refine ⟨.merged, _, { frame with newRpcEndpoints := eps, newRateLimiters := m.newRateLimiters },
            _, ?_, hpan, .merged, fun _ _ => rfl, .merge hstep⟩
          simp [ReloadCall.advance, execSection, hpan, heq]
  | merged =>
      refine ⟨.swapped, _, _, _, ?_, hpan, .swapped, (by simp), .swap⟩
      simp [ReloadCall.advance, execSection, hpan]
  | swapped =>
      refine ⟨.settled, _, _, _, ?_, hpan, .settled _ isQuiet_of_mem_settle, (by simp), .settle⟩
      simp [ReloadCall.advance, execSection, hpan]
  | settled _ hr =>
      cases rest with
      | nil => exact ⟨.settled, w, frame, [], rfl, hpan, .settled [] hr, (by simp), .done⟩
      | cons sec r =>
          exact hquiet sec _ (hr sec List.mem_cons_self)
            (.settled r fun a ha => hr a (List.mem_cons_of_mem _ ha)) (by simp) (by simp)

/-! ## One reload among operations -/

/-- The start of a reload in a world where no other is in flight. -/
def System.solo (w : World M) (c : Settings) (now : Instant) : System M :=
  ⟨w, [{ settings := c, now := now }]⟩

/-- Where the only reload of a system stands: its settings are `c`, it has not panicked, and `phase` is
its phase. -/
structure Solo (c : Settings) (phase : ReloadPhase) (call : ReloadCall) (s : System M) : Prop where
  reloads : s.reloads = [call]
  settings : call.settings = c
  panicked : call.frame.panicked = false
  atPhase : AtPhase phase call.rest

/-- The only reload starts by reading. -/
theorem solo_start (w : World M) (c : Settings) (now : Instant) :
    Solo c .reading { settings := c, now := now } (System.solo w c now) :=
  ⟨rfl, rfl, rfl, atPhase_start⟩

/-- An operation does not move the reload. -/
theorem Solo.operation (P : Platform) {c : Settings} {phase : ReloadPhase} {call : ReloadCall}
    {s : System M} (h : Solo c phase call s) (op : Operation) :
    Solo c phase call (s.step P (.operation op)) :=
  ⟨h.reloads, h.settings, h.panicked, h.atPhase⟩

/-- **A section event of a system with one reload** advances it, or finds no such reload. -/
theorem Solo.reloadSection (P : Platform) {c : Settings} {phase : ReloadPhase} {call : ReloadCall}
    {s : System M} (hc : c.Valid) (h : Solo c phase call s) (i : ℕ) :
    s.step P (.reloadSection i) = s ∨ ∃ phase' call',
      Solo c phase' call' (s.step P (.reloadSection i)) ∧
      Advances P c call.now s.world call.frame phase phase' (s.step P (.reloadSection i)).world
        call'.frame := by
  obtain ⟨w, reloads⟩ := s
  have hreloads : reloads = [call] := h.reloads
  subst hreloads
  cases i with
  | succ i => exact Or.inl rfl
  | zero =>
      obtain ⟨phase', w', frame', rest', heq, hpan', hat', -, hadv⟩ :=
        advance_spec P w (h.settings.symm ▸ hc) h.panicked h.atPhase
      rw [h.settings] at hadv
      refine Or.inr ⟨phase', { call with frame := frame', rest := rest' }, ?_, ?_⟩
      · refine ⟨?_, h.settings, hpan', hat'⟩
        show [(call.advance P w).2] = _
        rw [heq]
      · show Advances P c call.now w call.frame phase phase' (call.advance P w).1 frame'
        rw [heq]
        exact hadv

end AzothBalancer
