import AzothBalancer.RestartRefinement
import Mathlib.Data.Fintype.Defs

/-!
# Two reloads at once

Two reload calls run section by section, with nothing to keep them apart. The outcome need not be
that of any order of the two: a merge that falls between the other call's publication of the
endpoint list and that of the limiter map leaves an endpoint without limiter
(`unlimited_after_race`).

`serialised_of_inOrder` says when the outcome is a serial one, for either choice of the later call
`X`: every write of the earlier call `Y` is still to be overwritten by `X`, unless both write the
same; `X` skips the client or a client setting only if its own is there already; and a merge inside the other call's
swap finds the right limiter for every endpoint it leaves unchanged. The invariant (`Race`) says that
every setting either shows what `X` writes or is still to be written by `X` (`World.Shows`), and, for
each of the calls, that what it has merged fits together (`StoresSeen`).
-/

namespace AzothBalancer

variable {M : Meter}

/-! ## Limiters of a list of entries -/

/-- The map holds, under each entry's URL, a limiter created from the entry's burst and rate, and
nothing else. -/
structure LimitersOf (es : List EndpointConfig) (map : String → Option LimiterRef)
    (heap : RefHeap (RateLimiter M)) : Prop where
  params : ∀ e ∈ es, (map e.url >>= heap.get?).map RateLimiter.params =
    some (e.burstSize, e.rateLimitPerSec)
  elsewhere : ∀ url, url ∉ es.map EndpointConfig.url → map url = none

/-- Allocating more limiters changes none of them. -/
theorem LimitersOf.mono {es : List EndpointConfig} {map : String → Option LimiterRef}
    {heap heap' : RefHeap (RateLimiter M)} (hheap : RefHeap.Extends heap heap')
    (h : LimitersOf es map heap) : LimitersOf es map heap' where
  params e he := by
    have hold := h.params e he
    cases hr : map e.url with
    | none => simp [hr] at hold
    | some r =>
        rw [hr] at hold
        obtain ⟨l, hl, -⟩ := Option.map_eq_some_iff.mp hold
        rw [← hold]
        exact congrArg (Option.map RateLimiter.params) (hheap.get? (RefHeap.valid_of_get? hl))
  elsewhere := h.elsewhere

/-- In a matched world the map holds the limiters of the endpoints' entries. -/
theorem World.Matched.limitersOf {w : World M} (h : w.Matched) :
    LimitersOf (w.lb.endpoints.map RpcEndpoint.toConfig) w.lb.rateLimiters w.limiters where
  params e he := by
    obtain ⟨ep, hep, rfl⟩ := List.mem_map.mp he
    exact h.params ep hep
  elsewhere url hurl := by
    rw [← Option.not_isSome_iff_eq_none, h.keys]
    rw [List.map_map] at hurl
    exact hurl

/-- **The merge makes the limiters of its entries**, if it finds the right limiter for each entry it
leaves unchanged.
Source: `config_reloader.rs` `reload`, the second read section -/
theorem MergeStep.limitersOf {lb : LoadBalancer} {now : Instant} {new : List EndpointConfig}
    {start s : MergeState M} {eps : List RpcEndpoint} (h : MergeStep lb now new start s eps)
    (hstart : start.newRateLimiters = fun _ => none)
    (hkeep : ∀ e ∈ new, keepsLimiter lb e →
      (lb.rateLimiters e.url >>= start.limiters.get?).map RateLimiter.params =
        some (e.burstSize, e.rateLimitPerSec)) :
    LimitersOf new s.newRateLimiters s.limiters where
  params e he := h.params he (hkeep e he)
  elsewhere url hurl := by rw [h.elsewhere url hurl, hstart]

/-- An entry that is left unchanged is the entry of an endpoint, up to its weight; so its limiter is
the right one when the map holds those of the endpoints. -/
theorem LimitersOf.of_keepsLimiter {lb : LoadBalancer} {heap : RefHeap (RateLimiter M)}
    (h : LimitersOf (lb.endpoints.map RpcEndpoint.toConfig) lb.rateLimiters heap)
    {e : EndpointConfig} (hk : keepsLimiter lb e) :
    (lb.rateLimiters e.url >>= heap.get?).map RateLimiter.params =
      some (e.burstSize, e.rateLimitPerSec) := by
  obtain ⟨ep, hep, hrate, hburst⟩ := hk
  have hparams := h.params ep.toConfig (List.mem_map_of_mem (KeyedList.mem_of_lookup hep))
  have hurl : ep.url = e.url := KeyedList.key_of_lookup hep
  rw [← hurl, ← hrate, ← hburst]
  exact hparams

/-! ## Serial outcomes -/

/-- Two worlds have the same settings, the same client, the same endpoints' configuration in order, and
limiters under the same URLs with the same parameters. -/
structure World.SameConfiguration (w w' : World M) : Prop where
  settings : w.lb.settings = w'.lb.settings
  client : w.lb.client = w'.lb.client
  keys : ∀ url, (w.lb.rateLimiters url).isSome ↔ (w'.lb.rateLimiters url).isSome
  params : ∀ url, w.limiterParams url = w'.limiterParams url

/-- Settings, their client and their limiters determine the configuration. -/
theorem sameConfiguration_of_limitersOf {w w' : World M} {c : Settings} (hw : w.lb.settings = c)
    (hw' : w'.lb.settings = c) (hclient : w.lb.client = c.client) (hclient' : w'.lb.client = c.client)
    (h : LimitersOf c.endpoints w.lb.rateLimiters w.limiters)
    (h' : LimitersOf c.endpoints w'.lb.rateLimiters w'.limiters) : w.SameConfiguration w' := by
  have hparams : ∀ url, w.limiterParams url = w'.limiterParams url := by
    intro url
    by_cases hurl : url ∈ c.endpoints.map EndpointConfig.url
    · obtain ⟨e, he, rfl⟩ := List.mem_map.mp hurl
      exact (h.params e he).trans (h'.params e he).symm
    · unfold World.limiterParams World.limiter?
      rw [h.elsewhere url hurl, h'.elsewhere url hurl]
      rfl
  have hkey : ∀ {w : World M}, LimitersOf c.endpoints w.lb.rateLimiters w.limiters → ∀ url,
      (w.lb.rateLimiters url).isSome ↔ url ∈ c.endpoints.map EndpointConfig.url := by
    intro w h url
    constructor
    · intro hsome
      by_contra hurl
      rw [h.elsewhere url hurl] at hsome
      cases hsome
    · intro hurl
      obtain ⟨e, he, rfl⟩ := List.mem_map.mp hurl
      have hp := h.params e he
      cases hr : w.lb.rateLimiters e.url with
      | none => simp [hr] at hp
      | some r => rfl
  exact ⟨hw.trans hw'.symm, hclient.trans hclient'.symm, fun url => (hkey h url).trans (hkey h' url).symm, hparams⟩

/-- The outcome is that of the two reloads run one after the other, in one of the two orders, and
every endpoint has a limiter. -/
def Serialised (P : Platform) (w : World M) (readA : String → ReadResult) (nowA : Instant)
    (readB : String → ReadResult) (nowB : Instant) (final : World M) : Prop :=
  (final.SameConfiguration (w.runCommands P [.reload readA nowA, .reload readB nowB]) ∨
    final.SameConfiguration (w.runCommands P [.reload readB nowB, .reload readA nowA])) ∧
  ∀ ep ∈ final.lb.endpoints, (final.limiter? ep.url).isSome

/-- A reload run alone keeps the client and the stored client settings the same.
Source: `config_reloader.rs` `reload` -/
theorem client_reload (P : Platform) {w : World M} {c : Settings} (hc : c.Valid) (now : Instant)
    (h : w.lb.client = w.lb.clientSettings) :
    (execSections P c now w {} reloadProgram).1.lb.client = c.client := by
  obtain ⟨-, s, eps, -, -, -, -, -, hexec⟩ := execSections_reloadProgram P now w hc
  rw [hexec]
  show (w.lb.withClient c.client).client = c.client
  unfold LoadBalancer.withClient
  split
  · rename_i hsame
    exact h.trans hsame
  · rfl

/-- Two reloads one after the other leave the settings of the second, with its client and limiters.
Source: `config_reloader.rs` `reload` -/
theorem serial_outcome {P : Platform} {w : World M} (hw : w.WellFormed) (hm : w.Matched)
    (hclient : w.lb.client = w.lb.clientSettings) {readY readX : String → ReadResult} {cy cx : Settings}
    (nowY nowX : Instant) (hy : loadSettings P readY w.lb.configPath = .ok cy)
    (hx : loadSettings P readX w.lb.configPath = .ok cx) :
    (w.runCommands P [.reload readY nowY, .reload readX nowX]).lb.settings = cx ∧
      (w.runCommands P [.reload readY nowY, .reload readX nowX]).lb.client = cx.client ∧
      (w.runCommands P [.reload readY nowY, .reload readX nowX]).Matched := by
  obtain ⟨-, -, -, -, -, -, -, hcy⟩ := loadSettings_eq_ok hy
  obtain ⟨-, -, -, -, -, -, -, hcx⟩ := loadSettings_eq_ok hx
  obtain ⟨hw₁, hm₁⟩ := invariant_reload P readY nowY hw hm
  have hfirst : (reload P readY w nowY).2 = (execSections P cy nowY w {} reloadProgram).1 := by
    rw [reload_eq_ok nowY hy]
  have heffect := reloadEffect_execSections P hcy nowY hw
  have hpath : (reload P readY w nowY).2.lb.configPath = w.lb.configPath := by
    rw [hfirst]
    exact heffect.configPath
  have hclient₁ : (reload P readY w nowY).2.lb.client = (reload P readY w nowY).2.lb.clientSettings := by
    rw [hfirst, client_reload P hcy nowY hclient]
    exact (congrArg Settings.client heffect.settings).symm
  obtain ⟨-, hm₂⟩ := invariant_reload P readX nowX hw₁ hm₁
  have hsecond : w.runCommands P [.reload readY nowY, .reload readX nowX] =
      (execSections P cx nowX (reload P readY w nowY).2 {} reloadProgram).1 := by
    show (reload P readX (reload P readY w nowY).2 nowX).2 = _
    rw [reload_eq_ok nowX (hpath ▸ hx)]
  refine ⟨?_, ?_, hm₂⟩
  · rw [hsecond]
    exact (reloadEffect_execSections P hcx nowX hw₁).settings
  · rw [hsecond]
    exact client_reload P hcx nowX hclient₁

/-! ## What a section shows -/

/-- The world shows, of the settings `c`, what the section writes. -/
def World.Shows (w : World M) (c : Settings) : ReloadSection → Prop
  | .writeClient => w.lb.client = c.client
  | .writeClientField f => w.lb.clientSettings.get f = c.client.get f
  | .writeEndpoints => w.lb.endpoints.map RpcEndpoint.toConfig = c.endpoints
  | .writeRateLimiters => LimitersOf c.endpoints w.lb.rateLimiters w.limiters
  | .publish .maxBatchSize => w.lb.maxBatchSize = c.maxBatchSize
  | .publish .baseCooldownSecs => w.lb.baseCooldownSecs = c.baseCooldownSecs
  | .publish .maxCooldownSecs => w.lb.maxCooldownSecs = c.maxCooldownSecs
  | .publish .healthCheckIntervalSecs => w.lb.healthCheckIntervalSecs = c.healthCheckIntervalSecs
  | .publish .healthCheckTimeoutSecs => w.lb.healthCheckTimeoutSecs = c.healthCheckTimeoutSecs
  | .publish .latencySmoothingFactor => w.lb.latencySmoothingFactor = c.latencySmoothingFactor
  | _ => True

/-- The settings agree on what the section writes. -/
def Settings.AgreeOn (a b : Settings) : ReloadSection → Prop
  | .writeClient => a.client = b.client
  | .writeClientField f => a.client.get f = b.client.get f
  | .writeEndpoints | .writeRateLimiters => a.endpoints = b.endpoints
  | .publish .maxBatchSize => a.maxBatchSize = b.maxBatchSize
  | .publish .baseCooldownSecs => a.baseCooldownSecs = b.baseCooldownSecs
  | .publish .maxCooldownSecs => a.maxCooldownSecs = b.maxCooldownSecs
  | .publish .healthCheckIntervalSecs => a.healthCheckIntervalSecs = b.healthCheckIntervalSecs
  | .publish .healthCheckTimeoutSecs => a.healthCheckTimeoutSecs = b.healthCheckTimeoutSecs
  | .publish .latencySmoothingFactor => a.latencySmoothingFactor = b.latencySmoothingFactor
  | _ => True

instance (a b : Settings) : ∀ sec, Decidable (a.AgreeOn b sec)
  | .writeClient => inferInstanceAs (Decidable (a.client = b.client))
  | .writeClientField f => inferInstanceAs (Decidable (a.client.get f = b.client.get f))
  | .writeEndpoints | .writeRateLimiters => inferInstanceAs (Decidable (a.endpoints = b.endpoints))
  | .publish .maxBatchSize => inferInstanceAs (Decidable (a.maxBatchSize = b.maxBatchSize))
  | .publish .baseCooldownSecs =>
      inferInstanceAs (Decidable (a.baseCooldownSecs = b.baseCooldownSecs))
  | .publish .maxCooldownSecs => inferInstanceAs (Decidable (a.maxCooldownSecs = b.maxCooldownSecs))
  | .publish .healthCheckIntervalSecs =>
      inferInstanceAs (Decidable (a.healthCheckIntervalSecs = b.healthCheckIntervalSecs))
  | .publish .healthCheckTimeoutSecs =>
      inferInstanceAs (Decidable (a.healthCheckTimeoutSecs = b.healthCheckTimeoutSecs))
  | .publish .latencySmoothingFactor =>
      inferInstanceAs (Decidable (a.latencySmoothingFactor = b.latencySmoothingFactor))
  | .compareClient _ | .diff | .cleanup | .merge | .setTotal | .countHealthy =>
      inferInstanceAs (Decidable True)

/-- What the settings agree on, they show alike. -/
theorem World.Shows.congr {w : World M} {a b : Settings} {sec : ReloadSection}
    (hab : a.AgreeOn b sec) (h : w.Shows a sec) : w.Shows b sec := by
  cases sec with
  | writeClient => exact Eq.trans h hab
  | writeClientField f => exact Eq.trans h hab
  | writeEndpoints => exact Eq.trans h hab
  | writeRateLimiters =>
      have heq : a.endpoints = b.endpoints := hab
      have hold : LimitersOf a.endpoints w.lb.rateLimiters w.limiters := h
      show LimitersOf b.endpoints w.lb.rateLimiters w.limiters
      rw [← heq]
      exact hold
  | publish s => cases s <;> exact Eq.trans h hab
  | _ => trivial

/-- A world that shows everything has the settings. -/
theorem settings_of_shows {w : World M} {c : Settings} (h : ∀ sec, w.Shows c sec) :
    w.lb.settings = c := by
  unfold LoadBalancer.settings
  have h1 : w.lb.maxBatchSize = c.maxBatchSize := h (.publish .maxBatchSize)
  have h2 : w.lb.baseCooldownSecs = c.baseCooldownSecs := h (.publish .baseCooldownSecs)
  have h3 : w.lb.maxCooldownSecs = c.maxCooldownSecs := h (.publish .maxCooldownSecs)
  have h4 : w.lb.healthCheckIntervalSecs = c.healthCheckIntervalSecs :=
    h (.publish .healthCheckIntervalSecs)
  have h5 : w.lb.healthCheckTimeoutSecs = c.healthCheckTimeoutSecs :=
    h (.publish .healthCheckTimeoutSecs)
  have h6 : w.lb.latencySmoothingFactor = c.latencySmoothingFactor :=
    h (.publish .latencySmoothingFactor)
  have h7 : w.lb.connectTimeoutMs = c.connectTimeoutMs := h (.writeClientField .connectTimeoutMs)
  have h8 : w.lb.timeoutSecs = c.timeoutSecs := h (.writeClientField .timeoutSecs)
  have h9 : w.lb.poolIdleTimeoutSecs = c.poolIdleTimeoutSecs :=
    h (.writeClientField .poolIdleTimeoutSecs)
  have h10 : w.lb.poolMaxIdlePerHost = c.poolMaxIdlePerHost :=
    h (.writeClientField .poolMaxIdlePerHost)
  have h11 : w.lb.endpoints.map RpcEndpoint.toConfig = c.endpoints := h .writeEndpoints
  rw [h1, h2, h3, h4, h5, h6, h7, h8, h9, h10, h11]

/-- Another section keeps what a section shows. The merge only allocates limiters.
Source: `config_reloader.rs` `reload` -/
theorem World.Shows.execSection (P : Platform) {c d : Settings} (hc : c.Valid) (now : Instant)
    {w : World M} (frame : ReloadFrame) {sec sec' : ReloadSection} (hne : sec ≠ sec')
    (h : w.Shows d sec') : (execSection P c now w frame sec).1.Shows d sec' := by
  unfold AzothBalancer.execSection
  split
  · exact h
  · cases sec with
    | merge =>
        obtain ⟨s, eps, hstep, heq⟩ := mergeSection_spec hc now w frame
        rw [heq]
        cases sec' with
        | writeRateLimiters =>
            have hold : LimitersOf d.endpoints w.lb.rateLimiters w.limiters := h
            exact hold.mono hstep.limiterHeap
        | publish s => cases s <;> exact h
        | _ => exact h
    | writeEndpoints =>
        cases sec' with
        | writeEndpoints => exact absurd rfl hne
        | publish s => cases s <;> exact h
        | _ => exact h
    | writeRateLimiters =>
        cases sec' with
        | writeRateLimiters => exact absurd rfl hne
        | publish s => cases s <;> exact h
        | _ => exact h
    | writeClient =>
        dsimp only
        split
        · cases sec' with
          | writeClient => exact absurd rfl hne
          | publish s => cases s <;> exact h
          | _ => exact h
        · exact h
    | writeClientField f =>
        dsimp only
        split
        · cases sec' with
          | writeClientField g =>
              have hg : w.lb.clientSettings.get g = d.client.get g := h
              show (w.lb.writeClientField f (c.client.get f)).clientSettings.get g = d.client.get g
              cases f <;> cases g <;> first | exact absurd rfl hne | exact hg
          | publish s => cases f <;> cases s <;> exact h
          | _ => cases f <;> exact h
        · exact h
    | publish s =>
        cases sec' with
        | publish t => cases s <;> cases t <;> first | exact absurd rfl hne | exact h
        | _ => cases s <;> exact h
    | cleanup =>
        cases sec' with
        | publish s => cases s <;> exact h
        | _ => exact h
    | setTotal =>
        cases sec' with
        | publish s => cases s <;> exact h
        | _ => exact h
    | countHealthy =>
        cases sec' with
        | publish s => cases s <;> exact h
        | _ => exact h
    | _ => exact h

/-- The section writes the client or a stored client setting. -/
def ReloadSection.WritesClient : ReloadSection → Prop
  | .writeClient | .writeClientField _ => True
  | _ => False

instance : DecidablePred ReloadSection.WritesClient
  | .writeClient | .writeClientField _ => inferInstanceAs (Decidable True)
  | .compareClient _ | .diff | .cleanup | .merge | .writeEndpoints | .writeRateLimiters | .publish _
  | .setTotal | .countHealthy => inferInstanceAs (Decidable False)

/-- A section that takes effect shows its own settings, if what the call has merged belongs to them.
Source: `config_reloader.rs` `reload` -/
theorem shows_execSection (P : Platform) {c : Settings} (now : Instant) {w : World M}
    {frame : ReloadFrame} (hpan : frame.panicked = false) {sec : ReloadSection}
    (hflag : sec.WritesClient → frame.clientSettingsChanged = true)
    (heps : sec = .writeEndpoints → frame.newRpcEndpoints.map RpcEndpoint.toConfig = c.endpoints)
    (hmap : sec = .writeRateLimiters → LimitersOf c.endpoints frame.newRateLimiters w.limiters) :
    (execSection P c now w frame sec).1.Shows c sec := by
  unfold execSection
  rw [if_neg (by rw [hpan]; exact Bool.false_ne_true)]
  cases sec with
  | writeClient =>
      dsimp only
      rw [if_pos (hflag trivial)]
      rfl
  | writeClientField f =>
      dsimp only
      rw [if_pos (hflag trivial)]
      cases f <;> rfl
  | writeEndpoints => exact heps rfl
  | writeRateLimiters => exact hmap rfl
  | publish s => cases s <;> rfl
  | _ => trivial

/-- A call that found no change in the client settings writes none.
Source: `config_reloader.rs` `reload` -/
theorem execSection_of_unchanged (P : Platform) (c : Settings) (now : Instant) (w : World M)
    {frame : ReloadFrame} (hflag : frame.clientSettingsChanged = false) {sec : ReloadSection}
    (hsec : sec.WritesClient) : (execSection P c now w frame sec).1 = w := by
  unfold execSection
  rw [hflag]
  split
  · rfl
  · cases sec with
    | writeClient | writeClientField f => rfl
    | _ => exact hsec.elim

/-! ## One call beside another -/

/-- A call in flight that reloads to `c` and has not panicked, and its phase. -/
structure InFlight (c : Settings) (phase : ReloadPhase) (call : ReloadCall) : Prop where
  settings : call.settings = c
  panicked : call.frame.panicked = false
  atPhase : AtPhase phase call.rest

/-- What a call `own`, in phase `po`, can rely on beside a call `other`, in phase `pt`: what it has
merged fits together; until then the stores fit, except inside the other's swap, where the endpoint
list is the other's already. -/
structure StoresSeen (po : ReloadPhase) (own : ReloadCall) (pt : ReloadPhase) (other : ReloadCall)
    (w : World M) : Prop where
  merged : po ≠ .reading →
    own.frame.newRpcEndpoints.map RpcEndpoint.toConfig = own.settings.endpoints ∧
      LimitersOf own.settings.endpoints own.frame.newRateLimiters w.limiters
  swapped : po = .reading → pt = .swapped →
    w.lb.endpoints.map RpcEndpoint.toConfig = other.settings.endpoints
  matched : po = .reading → pt ≠ .swapped →
    LimitersOf (w.lb.endpoints.map RpcEndpoint.toConfig) w.lb.rateLimiters w.limiters

/-- The condition on a merge: inside the other call's swap, it finds the right limiter for every
endpoint it leaves unchanged. -/
def ReloadCall.MergesRightly (own other : ReloadCall) (w : World M) : Prop :=
  own.rest.head? = some .merge → other.InSwap → ∀ e ∈ own.settings.endpoints, keepsLimiter w.lb e →
    w.limiterParams e.url = some (e.burstSize, e.rateLimitPerSec)

/-- The condition on the writes of the earlier call `Y`: the later call `X` is still to write the same,
or both write the same value. -/
def ReloadCall.YieldsTo (Y X : ReloadCall) : Prop :=
  ∀ sec ∈ Y.rest.head?, (sec.WritesClient → Y.frame.clientSettingsChanged = true) →
    sec ∈ X.rest ∨ Y.settings.AgreeOn X.settings sec

/-- The condition on the client writes that the later call skips: the client, or the stored setting, is
the call's already. -/
def ReloadCall.SkipsRightly (X : ReloadCall) (w : World M) : Prop :=
  (X.rest.head? = some .writeClient → X.frame.clientSettingsChanged = false →
    w.lb.client = X.settings.client) ∧
  ∀ f, X.rest.head? = some (.writeClientField f) → X.frame.clientSettingsChanged = false →
    w.lb.clientSettings.get f = X.settings.client.get f

instance : Fintype ClientField :=
  ⟨{.connectTimeoutMs, .timeoutSecs, .poolIdleTimeoutSecs, .poolMaxIdlePerHost},
    fun f => by cases f <;> decide⟩

instance (lb : LoadBalancer) (e : EndpointConfig) : Decidable (keepsLimiter lb e) :=
  decidable_of_iff (∃ ep ∈ lb.endpoint? e.url,
    ep.rateLimitPerSec = e.rateLimitPerSec ∧ ep.burstSize = e.burstSize) Iff.rfl

instance (own other : ReloadCall) (w : World M) : Decidable (own.MergesRightly other w) :=
  inferInstanceAs (Decidable (own.rest.head? = some .merge → other.InSwap →
    ∀ e ∈ own.settings.endpoints, keepsLimiter w.lb e →
      w.limiterParams e.url = some (e.burstSize, e.rateLimitPerSec)))

instance (Y X : ReloadCall) : Decidable (Y.YieldsTo X) :=
  inferInstanceAs (Decidable (∀ sec ∈ Y.rest.head?,
    (sec.WritesClient → Y.frame.clientSettingsChanged = true) →
      sec ∈ X.rest ∨ Y.settings.AgreeOn X.settings sec))

instance (X : ReloadCall) (w : World M) : Decidable (X.SkipsRightly w) :=
  inferInstanceAs (Decidable ((X.rest.head? = some .writeClient →
      X.frame.clientSettingsChanged = false → w.lb.client = X.settings.client) ∧
    ∀ f, X.rest.head? = some (.writeClientField f) → X.frame.clientSettingsChanged = false →
      w.lb.clientSettings.get f = X.settings.client.get f))

section seen

variable {P : Platform} {w w' : World M} {po po' pt pt' : ReloadPhase} {own other : ReloadCall}
  {frame' : ReloadFrame} {rest' : List ReloadSection} {now : Instant}

/-- The call's own section keeps what it can rely on. -/
theorem StoresSeen.stepOwn (h : StoresSeen po own pt other w)
    (hmerge : po = .reading → po' = .merged → pt = .swapped → ∀ e ∈ own.settings.endpoints,
      keepsLimiter w.lb e → w.limiterParams e.url = some (e.burstSize, e.rateLimitPerSec))
    (hadv : Advances P own.settings now w own.frame po po' w' frame') :
    StoresSeen po' { own with frame := frame', rest := rest' } pt other w' := by
  cases hadv with
  | done => exact ⟨h.merged, (nomatch ·), (nomatch ·)⟩
  | quiet sec hq hm hs =>
      obtain ⟨hsame, heps, hmap, -⟩ := execSection_quiet P own.settings now w own.frame hq
      refine ⟨fun hp => ?_, fun hp ht => ?_, fun hp ht => ?_⟩
      · show (execSection P own.settings now w own.frame sec).2.newRpcEndpoints.map _ = _ ∧
          LimitersOf _ (execSection P own.settings now w own.frame sec).2.newRateLimiters _
        rw [heps, hmap, hsame.limiters]
        exact h.merged hp
      · rw [hsame.endpoints]
        exact h.swapped hp ht
      · rw [hsame.endpoints, hsame.rateLimiters, hsame.limiters]
        exact h.matched hp ht
  | merge hstep =>
      refine ⟨fun _ => ⟨hstep.toConfig, hstep.limitersOf rfl fun e he hk => ?_⟩, (nomatch ·),
        (nomatch ·)⟩
      by_cases ht : pt = .swapped
      · exact hmerge rfl rfl ht e he hk
      · exact (h.matched rfl ht).of_keepsLimiter hk
  | swap => exact ⟨fun _ => h.merged (by simp), (nomatch ·), (nomatch ·)⟩
  | settle => exact ⟨fun _ => h.merged (by simp), (nomatch ·), (nomatch ·)⟩

/-- A section of the other call keeps what the call can rely on. -/
theorem StoresSeen.stepOther (h : StoresSeen po own pt other w) (ho : StoresSeen pt other po own w)
    (hadv : Advances P other.settings now w other.frame pt pt' w' frame') :
    StoresSeen po own pt' { other with frame := frame', rest := rest' } w' := by
  cases hadv with
  | done => exact ⟨h.merged, h.swapped, h.matched⟩
  | quiet sec hq hm hs =>
      obtain ⟨hsame, -, -, -⟩ := execSection_quiet P other.settings now w other.frame hq
      refine ⟨fun hp => ?_, fun hp ht => absurd ht hs, fun hp ht => ?_⟩
      · rw [hsame.limiters]
        exact h.merged hp
      · rw [hsame.endpoints, hsame.rateLimiters, hsame.limiters]
        exact h.matched hp ht
  | merge hstep =>
      refine ⟨fun hp => ?_, fun _ => (nomatch ·), fun hp _ => ?_⟩
      · obtain ⟨hcfg, hlim⟩ := h.merged hp
        exact ⟨hcfg, hlim.mono hstep.limiterHeap⟩
      · exact (h.matched hp (by simp)).mono hstep.limiterHeap
  | swap =>
      exact ⟨h.merged, fun _ _ => (ho.merged (by simp)).1, fun _ ht => absurd rfl ht⟩
  | settle =>
      refine ⟨h.merged, fun _ => (nomatch ·), fun hp _ => ?_⟩
      show LimitersOf (w.lb.endpoints.map RpcEndpoint.toConfig) other.frame.newRateLimiters w.limiters
      rw [h.swapped hp rfl]
      exact (ho.merged (by simp)).2

end seen

/-! ## The race -/

/-- The next section of a call, by its name. -/
theorem ReloadCall.advance_cons (P : Platform) (w : World M) {call : ReloadCall} {sec : ReloadSection}
    {rest : List ReloadSection} (h : call.rest = sec :: rest) :
    call.advance P w = ((execSection P call.settings call.now w call.frame sec).1,
      { call with frame := (execSection P call.settings call.now w call.frame sec).2, rest := rest }) := by
  unfold ReloadCall.advance
  rw [h]

/-- A call that is about to publish one of the stores has merged. -/
theorem AtPhase.ne_reading {phase : ReloadPhase} {sec : ReloadSection} {rest : List ReloadSection}
    (h : AtPhase phase (sec :: rest)) (hsec : sec = .writeEndpoints ∨ sec = .writeRateLimiters) :
    phase ≠ .reading := by
  intro hp
  generalize hl : sec :: rest = l at h
  cases h with
  | reading r hr =>
      cases r with
      | nil =>
          injection hl with hhead
          subst hhead
          simp at hsec
      | cons a r =>
          injection hl with hhead
          have hq := hr a List.mem_cons_self
          subst hhead
          rcases hsec with rfl | rfl <;> cases hq
  | _ => cases hp

/-- **The invariant of a race** of a call `Y` to `cy` with a later call `X` to `cx`: every setting shows
what `X` writes, or `X` is still to write it. -/
structure Race (cy cx : Settings) (py px : ReloadPhase) (Y X : ReloadCall) (w : World M) : Prop where
  earlier : InFlight cy py Y
  later : InFlight cx px X
  earlierStores : StoresSeen py Y px X w
  laterStores : StoresSeen px X py Y w
  shown : ∀ sec, sec ∈ X.rest ∨ w.Shows cx sec

section race

variable {P : Platform} {cy cx : Settings} {py px : ReloadPhase} {Y X : ReloadCall} {w : World M}

/-- A call that is about to publish a store publishes its own entries. -/
theorem StoresSeen.published {po pt : ReloadPhase} {own other : ReloadCall} {c : Settings}
    (h : StoresSeen po own pt other w) (hf : InFlight c po own) {sec : ReloadSection}
    {rest : List ReloadSection} (hrest : own.rest = sec :: rest) :
    (sec = .writeEndpoints → own.frame.newRpcEndpoints.map RpcEndpoint.toConfig = c.endpoints) ∧
      (sec = .writeRateLimiters → LimitersOf c.endpoints own.frame.newRateLimiters w.limiters) := by
  have hat := hf.atPhase
  rw [hrest] at hat
  rw [← hf.settings]
  exact ⟨fun hsec => (h.merged (hat.ne_reading (Or.inl hsec))).1,
    fun hsec => (h.merged (hat.ne_reading (Or.inr hsec))).2⟩

/-- A section of a call shows the call's settings, or it is a write that the call skips. -/
theorem StoresSeen.section_cases {po pt : ReloadPhase} {own other : ReloadCall} {c : Settings}
    (P : Platform) (h : StoresSeen po own pt other w) (hf : InFlight c po own) {sec : ReloadSection}
    {rest : List ReloadSection} (hrest : own.rest = sec :: rest) :
    ((sec.WritesClient → own.frame.clientSettingsChanged = true) ∧
        (execSection P c own.now w own.frame sec).1.Shows c sec) ∨
      (sec.WritesClient ∧ own.frame.clientSettingsChanged = false ∧
        (execSection P c own.now w own.frame sec).1 = w) := by
  by_cases hflag : sec.WritesClient → own.frame.clientSettingsChanged = true
  · obtain ⟨heps, hmap⟩ := h.published hf hrest
    exact .inl ⟨hflag, shows_execSection P own.now hf.panicked hflag heps hmap⟩
  · obtain ⟨hsec, hnot⟩ := Classical.not_imp.mp hflag
    have hskip := Bool.eq_false_of_not_eq_true hnot
    exact .inr ⟨hsec, hskip, execSection_of_unchanged P c own.now w hskip hsec⟩

/-- After a section of the earlier call every setting still shows what the later one writes, or the later
call is still to write it. -/
theorem Race.shownEarlier (hcy : cy.Valid) (h : Race cy cx py px Y X w) (hyields : Y.YieldsTo X)
    (sec : ReloadSection) : sec ∈ X.rest ∨ (Y.advance P w).1.Shows cx sec := by
  cases hrest : Y.rest with
  | nil =>
      unfold ReloadCall.advance
      rw [hrest]
      exact h.shown sec
  | cons cur rest =>
      rw [Y.advance_cons P w hrest, h.earlier.settings]
      rcases h.shown sec with hahead | hshown
      · exact .inl hahead
      · by_cases hsec : cur = sec
        · subst hsec
          rcases h.earlierStores.section_cases P h.earlier hrest with
            ⟨hflag, hshows⟩ | ⟨-, -, hsame⟩
          · rcases hyields cur (by rw [hrest]; rfl) hflag with hahead | hagree
            · exact .inl hahead
            · rw [h.earlier.settings, h.later.settings] at hagree
              exact .inr (hshows.congr hagree)
          · rw [hsame]
            exact .inr hshown
        · exact .inr (hshown.execSection P hcy Y.now Y.frame hsec)

/-- After a section of the later call too: the section it runs shows its settings. -/
theorem Race.shownLater (hcx : cx.Valid) (h : Race cy cx py px Y X w) (hskips : X.SkipsRightly w)
    (sec : ReloadSection) : sec ∈ (X.advance P w).2.rest ∨ (X.advance P w).1.Shows cx sec := by
  cases hrest : X.rest with
  | nil =>
      unfold ReloadCall.advance
      rw [hrest]
      rcases h.shown sec with hahead | hshown
      · rw [hrest] at hahead
        cases hahead
      · exact .inr hshown
  | cons cur rest =>
      rw [X.advance_cons P w hrest, h.later.settings]
      by_cases hsec : cur = sec
      · subst hsec
        right
        rcases h.laterStores.section_cases P h.later hrest with ⟨-, hshows⟩ | ⟨hsec, hskip, hsame⟩
        · exact hshows
        · rw [hsame]
          cases cur with
          | writeClient =>
              have hbuilt := hskips.1 (by rw [hrest]; rfl) hskip
              rw [h.later.settings] at hbuilt
              exact hbuilt
          | writeClientField f =>
              have hstored := hskips.2 f (by rw [hrest]; rfl) hskip
              rw [h.later.settings] at hstored
              exact hstored
          | _ => exact hsec.elim
      · rcases h.shown sec with hahead | hshown
        · rw [hrest] at hahead
          rcases List.mem_cons.mp hahead with heq | hin
          · exact absurd heq.symm hsec
          · exact .inl hin
        · exact .inr (hshown.execSection P hcx X.now X.frame hsec)

/-- **A section of the earlier call keeps the invariant.**
Source: `config_reloader.rs` `reload` -/
theorem Race.stepEarlier (hcy : cy.Valid) (h : Race cy cx py px Y X w) (hyields : Y.YieldsTo X)
    (hmerge : Y.MergesRightly X w) :
    ∃ py', Race cy cx py' px (Y.advance P w).2 X (Y.advance P w).1 := by
  have hvalid : Y.settings.Valid := by
    rw [h.earlier.settings]
    exact hcy
  have hshown := h.shownEarlier (P := P) hcy hyields
  obtain ⟨py', w', frame', rest', heq, hpan, hat, hhead, hadv⟩ :=
    advance_spec P w hvalid h.earlier.panicked h.earlier.atPhase
  refine ⟨py', ?_⟩
  rw [heq] at hshown ⊢
  refine {
    earlier := ⟨h.earlier.settings, hpan, hat⟩
    later := h.later
    earlierStores := h.earlierStores.stepOwn (fun hr hm hs => ?_) hadv
    laterStores := h.laterStores.stepOther h.earlierStores hadv
    shown := hshown }
  exact hmerge (hhead hr hm) (h.later.atPhase.head_of_swapped hs)

/-- **A section of the later call keeps the invariant.**
Source: `config_reloader.rs` `reload` -/
theorem Race.stepLater (hcx : cx.Valid) (h : Race cy cx py px Y X w) (hskips : X.SkipsRightly w)
    (hmerge : X.MergesRightly Y w) :
    ∃ px', Race cy cx py px' Y (X.advance P w).2 (X.advance P w).1 := by
  have hvalid : X.settings.Valid := by
    rw [h.later.settings]
    exact hcx
  have hshown := h.shownLater (P := P) hcx hskips
  obtain ⟨px', w', frame', rest', heq, hpan, hat, hhead, hadv⟩ :=
    advance_spec P w hvalid h.later.panicked h.later.atPhase
  refine ⟨px', ?_⟩
  rw [heq] at hshown ⊢
  refine {
    earlier := h.earlier
    later := ⟨h.later.settings, hpan, hat⟩
    earlierStores := h.earlierStores.stepOther h.laterStores hadv
    laterStores := h.laterStores.stepOwn (fun hr hm hs => ?_) hadv
    shown := hshown }
  exact hmerge (hhead hr hm) (h.earlier.atPhase.head_of_swapped hs)

end race

/-! ## Runs -/

/-- Two reloads about to start in `w`, to the settings `A` and `B`. -/
def System.race (w : World M) (A : Settings) (nowA : Instant) (B : Settings) (nowB : Instant) :
    System M :=
  ⟨w, [{ settings := A, now := nowA }, { settings := B, now := nowB }]⟩

/-- The condition on a step, when call `i` is to be the earlier one and call `j` the later one. -/
def System.InOrder (i j : ℕ) (s : System M) : SystemEvent → Prop
  | .reloadSection k => ∀ Y ∈ s.reloads[i]?, ∀ X ∈ s.reloads[j]?,
      (k = i → Y.YieldsTo X ∧ Y.MergesRightly X s.world) ∧
      (k = j → X.SkipsRightly s.world ∧ X.MergesRightly Y s.world)
  | _ => True

instance (i j : ℕ) (s : System M) : ∀ e, Decidable (s.InOrder i j e)
  | .reloadSection k => inferInstanceAs (Decidable (∀ Y ∈ s.reloads[i]?, ∀ X ∈ s.reloads[j]?,
      (k = i → Y.YieldsTo X ∧ Y.MergesRightly X s.world) ∧
      (k = j → X.SkipsRightly s.world ∧ X.MergesRightly Y s.world)))
  | .operation _ | .startReload _ _ => inferInstanceAs (Decidable True)

/-- The system is a race of call `i` with the later call `j`. -/
def System.Races (cy cx : Settings) (i j : ℕ) (s : System M) : Prop :=
  ∃ py px Y X, s.reloads[i]? = some Y ∧ s.reloads[j]? = some X ∧
    (∀ k, k ≠ i → k ≠ j → s.reloads[k]? = none) ∧ Race cy cx py px Y X s.world

section races

variable {P : Platform} {cy cx : Settings} {i j : ℕ} {s : System M}

/-- **Every section that is in order keeps the race.** -/
theorem System.Races.step (hcy : cy.Valid) (hcx : cx.Valid) (hij : i ≠ j) (h : s.Races cy cx i j)
    {k : ℕ} (horder : s.InOrder i j (.reloadSection k)) :
    (s.step P (.reloadSection k)).Races cy cx i j := by
  obtain ⟨py, px, Y, X, hY, hX, hrest, hrace⟩ := h
  obtain ⟨hfirst, hsecond⟩ := horder Y hY X hX
  have hlen : ∀ {k : ℕ} {call : ReloadCall}, s.reloads[k]? = some call → k < s.reloads.length :=
    fun hk => (List.getElem?_eq_some_iff.mp hk).1
  by_cases hi : k = i
  · subst hi
    obtain ⟨py', hstep⟩ := hrace.stepEarlier (P := P) hcy (hfirst rfl).1 (hfirst rfl).2
    rw [System.step_reloadSection P hY]
    refine ⟨py', px, _, X, ?_, ?_, ?_, hstep⟩
    · exact List.getElem?_set_self (hlen hY)
    · rw [List.getElem?_set_ne hij]
      exact hX
    · intro l hl hl'
      rw [List.getElem?_set_ne (Ne.symm hl)]
      exact hrest l hl hl'
  · by_cases hj : k = j
    · subst hj
      obtain ⟨px', hstep⟩ := hrace.stepLater (P := P) hcx (hsecond rfl).1 (hsecond rfl).2
      rw [System.step_reloadSection P hX]
      refine ⟨py, px', Y, _, ?_, ?_, ?_, hstep⟩
      · rw [List.getElem?_set_ne (Ne.symm hij)]
        exact hY
      · exact List.getElem?_set_self (hlen hX)
      · intro l hl hl'
        rw [List.getElem?_set_ne (Ne.symm hl')]
        exact hrest l hl hl'
    · rw [System.step_reloadSection_of_none P (hrest k hi hj)]
      exact ⟨py, px, Y, X, hY, hX, hrest, hrace⟩

/-- A race starts in a matched world, whichever call is to be the later one. -/
theorem race_start {w : World M} (hm : w.Matched) {Y X : ReloadCall}
    (hY : Y = { settings := cy, now := Y.now }) (hX : X = { settings := cx, now := X.now }) :
    Race cy cx .reading .reading Y X w := by
  rw [hY, hX]
  refine ⟨⟨rfl, rfl, atPhase_start⟩, ⟨rfl, rfl, atPhase_start⟩, ?_, ?_, ?_⟩
  · exact ⟨(absurd rfl ·), fun _ => (nomatch ·), fun _ _ => hm.limitersOf⟩
  · exact ⟨(absurd rfl ·), fun _ => (nomatch ·), fun _ _ => hm.limitersOf⟩
  · intro sec
    show sec ∈ reloadProgram ∨ _
    cases sec with
    | writeClient => exact Or.inl (by decide)
    | writeClientField f => exact Or.inl (by cases f <;> decide)
    | writeEndpoints => exact Or.inl (by decide)
    | writeRateLimiters => exact Or.inl (by decide)
    | publish p => exact Or.inl (by cases p <;> decide)
    | _ => exact Or.inr trivial

/-- At the end of a race the world has the later call's settings, its client and its limiters. -/
theorem System.Races.outcome (h : s.Races cy cx i j) (hdone : ∀ call ∈ s.reloads, call.rest = []) :
    s.world.lb.settings = cx ∧ s.world.lb.client = cx.client ∧
      LimitersOf cx.endpoints s.world.lb.rateLimiters s.world.limiters := by
  obtain ⟨py, px, Y, X, -, hX, -, hrace⟩ := h
  have hrest : X.rest = [] := hdone X (List.mem_of_getElem? hX)
  have hshows : ∀ sec, s.world.Shows cx sec := by
    intro sec
    rcases hrace.shown sec with hahead | hshown
    · rw [hrest] at hahead
      cases hahead
    · exact hshown
  exact ⟨settings_of_shows hshows, hshows .writeClient, hshows .writeRateLimiters⟩

end races

/-- A run whose sections are in order ends with the later call's settings, its client and its limiters. -/
theorem outcome_of_inOrder {P : Platform} {cy cx : Settings} {i j : ℕ} (hij : i ≠ j) {s : System M}
    (hcy : cy.Valid) (hcx : cx.Valid) (hstart : s.Races cy cx i j) {events : List SystemEvent}
    (hevents : ∀ e ∈ events, ∃ k, e = .reloadSection k)
    (hdone : ∀ call ∈ (s.run P events).reloads, call.rest = [])
    (horder : Runs.Along (System.step P) (System.InOrder i j) s events) :
    (s.run P events).world.lb.settings = cx ∧ (s.run P events).world.lb.client = cx.client ∧
      LimitersOf cx.endpoints (s.run P events).world.lb.rateLimiters
        (s.run P events).world.limiters := by
  have hraces : (s.run P events).Races cy cx i j := by
    refine Runs.invariant_along (System.Races cy cx i j) _ ?_
      (Runs.along_and_of_forall hevents horder) hstart
    rintro s e ⟨⟨k, rfl⟩, hin⟩ h
    exact h.step hcy hcx hij hin
  exact hraces.outcome hdone

/-- **When two concurrent reloads are serialised.** Two reloads start in a reachable world whose
limiters match its endpoints and whose client has the stored settings, and run to their ends. If for one of the
two orders every section is in order, the outcome is a serial one, and every endpoint has a limiter.
Source: `config_reloader.rs` `reload`; `main.rs` `handle_reload` -/
theorem serialised_of_inOrder {P : Platform} {w : World M} {readA readB : String → ReadResult}
    {A B : Settings} (nowA nowB : Instant) (hw : w.Reachable P) (hm : w.Matched)
    (hclient : w.lb.client = w.lb.clientSettings)
    (hA : loadSettings P readA w.lb.configPath = .ok A)
    (hB : loadSettings P readB w.lb.configPath = .ok B) {events : List SystemEvent}
    (hevents : ∀ e ∈ events, ∃ k, e = .reloadSection k)
    (hdone : ∀ call ∈ ((System.race w A nowA B nowB).run P events).reloads, call.rest = [])
    (horder : Runs.Along (System.step P) (System.InOrder 0 1) (.race w A nowA B nowB) events ∨
      Runs.Along (System.step P) (System.InOrder 1 0) (.race w A nowA B nowB) events) :
    Serialised P w readA nowA readB nowB ((System.race w A nowA B nowB).run P events).world := by
  obtain ⟨-, -, -, -, -, -, -, hvA⟩ := loadSettings_eq_ok hA
  obtain ⟨-, -, -, -, -, -, -, hvB⟩ := loadSettings_eq_ok hB
  have hlimited : ∀ {final : World M} {c : Settings}, final.lb.settings = c →
      LimitersOf c.endpoints final.lb.rateLimiters final.limiters →
      ∀ ep ∈ final.lb.endpoints, (final.limiter? ep.url).isSome := by
    intro final c hc hl ep hep
    have hmem : ep.toConfig ∈ c.endpoints := by
      rw [← hc]
      exact List.mem_map_of_mem hep
    have hparams := hl.params ep.toConfig hmem
    obtain ⟨l, hl', -⟩ := Option.map_eq_some_iff.mp hparams
    exact Option.isSome_iff_exists.mpr ⟨l, hl'⟩
  have hserial : ∀ {c : Settings} {w' : World M}, w'.lb.settings = c → w'.Matched →
      LimitersOf c.endpoints w'.lb.rateLimiters w'.limiters := by
    rintro c w' rfl hm'
    exact hm'.limitersOf
  have hnone : ∀ {a b : ReloadCall} (k : ℕ), k ≠ 0 → k ≠ 1 → ([a, b] : List ReloadCall)[k]? = none := by
    intro a b k h0 h1
    rw [List.getElem?_eq_none_iff]
    simp only [List.length_cons, List.length_nil]
    omega
  rcases horder with horder | horder
  · obtain ⟨hset, hbuilt, hlim⟩ := outcome_of_inOrder (by decide) hvA hvB
      ⟨_, _, _, _, rfl, rfl, hnone, race_start hm rfl rfl⟩ hevents hdone horder
    obtain ⟨hset', hbuilt', hm'⟩ := serial_outcome hw.wellFormed hm hclient nowA nowB hA hB
    exact ⟨Or.inl (sameConfiguration_of_limitersOf hset hset' hbuilt hbuilt' hlim (hserial hset' hm')),
      hlimited hset hlim⟩
  · obtain ⟨hset, hbuilt, hlim⟩ := outcome_of_inOrder (by decide) hvB hvA
      ⟨_, _, _, _, rfl, rfl, fun k h1 h0 => hnone k h0 h1, race_start hm rfl rfl⟩ hevents hdone horder
    obtain ⟨hset', hbuilt', hm'⟩ := serial_outcome hw.wellFormed hm hclient nowB nowA hB hA
    exact ⟨Or.inr (sameConfiguration_of_limitersOf hset hset' hbuilt hbuilt' hlim (hserial hset' hm')),
      hlimited hset hlim⟩

/-- **An endpoint without limiter.** The sample world reloads the other file twice at once. The second
call merges after the first has published the new endpoint and before it has published its limiter:
the second call finds the endpoint unchanged and carries no limiter over. Its map is the last.
Source: `config_reloader.rs` `reload`; `main.rs` `handle_reload` -/
theorem unlimited_after_race : ¬ ∀ (w : World leakyBucket) (readA readB : String → ReadResult)
    (A B : Settings) (nowA nowB : Instant) (events : List SystemEvent), w.Reachable samplePlatform →
    loadSettings samplePlatform readA w.lb.configPath = .ok A →
    loadSettings samplePlatform readB w.lb.configPath = .ok B →
    (∀ e ∈ events, ∃ k, e = .reloadSection k) →
    (∀ call ∈ ((System.race w A nowA B nowB).run samplePlatform events).reloads, call.rest = []) →
    Serialised samplePlatform w readA nowA readB nowB
      ((System.race w A nowA B nowB).run samplePlatform events).world := by
  intro h
  let B : Settings := .ofEndpoints [otherEndpoint]
  let events : List SystemEvent := List.replicate 13 (.reloadSection 0) ++
    List.replicate 12 (.reloadSection 1) ++ List.replicate 9 (.reloadSection 0) ++
    List.replicate 10 (.reloadSection 1)
  obtain ⟨-, hlimited⟩ := h sampleWorld (fun _ => .content otherFile) (fun _ => .content otherFile) B B
    1 1 events (World.reachable_of_new new_sampleWorld) (loadSettings_otherFile _)
    (loadSettings_otherFile _) (by simp [events]) (by decide +kernel)
  have hlist : ((System.race sampleWorld B 1 B 1).run samplePlatform events).world.lb.endpoints =
      [⟨"http://b", true, 1, none, 0, 5, 7, 60, 1⟩] := by
    decide +kernel
  have hsome := hlimited ⟨"http://b", true, 1, none, 0, 5, 7, 60, 1⟩
    (by rw [hlist]; exact List.mem_singleton_self _)
  have hnone : ((System.race sampleWorld B 1 B 1).run samplePlatform events).world.limiter?
      "http://b" = none := by
    decide +kernel
  rw [hnone] at hsome
  cases hsome

/-- `serialised_of_inOrder` for two reloads to different files, the second merging first. -/
theorem serialised_of_inOrder_sample :
    let events : List SystemEvent := List.replicate 12 (.reloadSection 1) ++
      List.replicate 22 (.reloadSection 0) ++ List.replicate 10 (.reloadSection 1)
    Serialised samplePlatform sampleWorld (fun _ => .content otherFile) 1
      (fun _ => .content sampleFile) 2
      ((System.race sampleWorld (.ofEndpoints [otherEndpoint]) 1 (.ofEndpoints [sampleEndpoint])
        2).run samplePlatform events).world := by
  intro events
  obtain ⟨-, -, c, -, -, -, hstart⟩ := started_of_new new_sampleWorld
  exact serialised_of_inOrder 1 2 (World.reachable_of_new new_sampleWorld) hstart.matched
    (hstart.client.trans hstart.clientSettings.symm) (loadSettings_otherFile _) (loadSettings_sampleFile _)
    (by simp [events]) (by decide +kernel) (Or.inl (by decide +kernel))

end AzothBalancer
