import AzothBalancer.Balancer
import Mathlib.Data.Finset.SDiff

/-!
# Hot reload

`config_reloader.rs`: `reload` reads the configuration file, finalizes it and carries the result
into the shared state. It takes the locks one after another, so it is given here as a program of
*sections* (`ReloadSection`, `reloadProgram`): every read section, every single
`*lock.write() = ..`, and the two stretches that touch only the registry. `execSection` is what one
section does to the world and to the call's own variables (`ReloadFrame`); other operations can run
between two sections. `reload` is the whole call with nothing in between.

The merge section creates limiters, and `createRateLimiter` can panic; a call that has panicked
takes no further effect (`ReloadFrame.panicked`). With valid settings it never does
(`mergeEndpoints_spec`).
-/

namespace AzothBalancer

variable {M : Meter}

/-- What the balancer uses of the platform and of the crates it calls. -/
structure Platform where
  /-- `str::to_lowercase`. -/
  toLowercase : List Char → List Char
  /-- `toml::from_str`; an error carries its text. -/
  tomlFromStr : String → Except String Config
  /-- The iteration order of a `HashSet<String>`. -/
  hashOrder : Finset String → List String
  /-- The iteration visits no element twice. -/
  hashOrder_nodup : ∀ s, (hashOrder s).Nodup
  /-- The iteration visits exactly the elements. -/
  mem_hashOrder : ∀ s u, u ∈ hashOrder s ↔ u ∈ s

/-- The result of `fs::read_to_string`. -/
inductive ReadResult where
  | content (raw : String)
  | notFound
  | failed (msg : String)
  deriving DecidableEq, Repr

/-- Reads and parses the configuration file; a missing file is no configuration.
Source: `config.rs` `try_load_config` -/
def tryLoadConfig (P : Platform) (read : String → ReadResult) (path : String) :
    Except ConfigError (Option Config) :=
  match read path with
  | .content raw =>
      match P.tomlFromStr raw with
      | .ok cfg => .ok (some cfg)
      | .error e => .error (.configError e)
  | .notFound => .ok none
  | .failed e => .error (.configError e)

/-! ## The sections of a reload -/

/-- The four stored client settings, in the order they are compared and written. -/
inductive ClientField where
  | connectTimeoutMs
  | timeoutSecs
  | poolIdleTimeoutSecs
  | poolMaxIdlePerHost
  deriving DecidableEq, Repr

/-- One of the four settings. -/
def ClientSettings.get (s : ClientSettings) : ClientField → ℕ
  | .connectTimeoutMs => s.connectTimeoutMs
  | .timeoutSecs => s.timeoutSecs
  | .poolIdleTimeoutSecs => s.poolIdleTimeoutSecs
  | .poolMaxIdlePerHost => s.poolMaxIdlePerHost

/-- The write of one stored client setting. -/
def LoadBalancer.writeClientField (lb : LoadBalancer) (f : ClientField) (v : ℕ) : LoadBalancer :=
  match f with
  | .connectTimeoutMs => { lb with connectTimeoutMs := v }
  | .timeoutSecs => { lb with timeoutSecs := v }
  | .poolIdleTimeoutSecs => { lb with poolIdleTimeoutSecs := v }
  | .poolMaxIdlePerHost => { lb with poolMaxIdlePerHost := v }

/-- The six scalar settings a reload publishes, in order. -/
inductive PublishedSetting where
  | maxBatchSize
  | baseCooldownSecs
  | maxCooldownSecs
  | healthCheckIntervalSecs
  | healthCheckTimeoutSecs
  | latencySmoothingFactor
  deriving DecidableEq, Repr

/-- The write of one published setting. -/
def LoadBalancer.publish (lb : LoadBalancer) (c : Settings) : PublishedSetting → LoadBalancer
  | .maxBatchSize => { lb with maxBatchSize := c.maxBatchSize }
  | .baseCooldownSecs => { lb with baseCooldownSecs := c.baseCooldownSecs }
  | .maxCooldownSecs => { lb with maxCooldownSecs := c.maxCooldownSecs }
  | .healthCheckIntervalSecs => { lb with healthCheckIntervalSecs := c.healthCheckIntervalSecs }
  | .healthCheckTimeoutSecs => { lb with healthCheckTimeoutSecs := c.healthCheckTimeoutSecs }
  | .latencySmoothingFactor => { lb with latencySmoothingFactor := c.latencySmoothingFactor }

/-- The atomic sections of `reload` after the configuration has been finalized. -/
inductive ReloadSection where
  /-- One operand of the `client_settings_changed` comparison. -/
  | compareClient (f : ClientField)
  /-- `*balancer.client.write() = new_client`, if the settings changed. -/
  | writeClient
  /-- The write of a stored client setting, if the settings changed. -/
  | writeClientField (f : ClientField)
  /-- The first read section over the endpoints: what is added, removed and modified. -/
  | diff
  /-- `cleanup_endpoint_metrics` for the removed URLs. -/
  | cleanup
  /-- The second read section, over endpoints and limiters: the new list and the new map. -/
  | merge
  /-- `*balancer.endpoints.write() = new_rpc_endpoints`. -/
  | writeEndpoints
  /-- `*balancer.rate_limiters.write() = new_rate_limiters`. -/
  | writeRateLimiters
  /-- The write of a scalar setting. -/
  | publish (s : PublishedSetting)
  /-- `TOTAL_ENDPOINTS.set(..)`. -/
  | setTotal
  /-- The last read section and `HEALTHY_ENDPOINTS.set(..)`. -/
  | countHealthy
  deriving DecidableEq, Repr

/-- The comparison of the client settings and, if they changed, the writes that replace them. -/
def clientSections : List ReloadSection := [
  .compareClient .connectTimeoutMs, .compareClient .timeoutSecs,
  .compareClient .poolIdleTimeoutSecs, .compareClient .poolMaxIdlePerHost,
  .writeClient,
  .writeClientField .connectTimeoutMs, .writeClientField .timeoutSecs,
  .writeClientField .poolIdleTimeoutSecs, .writeClientField .poolMaxIdlePerHost]

/-- The eight writes under the comment "Atomically update the load balancer state". -/
def publishSections : List ReloadSection := [
  .writeEndpoints, .writeRateLimiters,
  .publish .maxBatchSize, .publish .baseCooldownSecs, .publish .maxCooldownSecs,
  .publish .healthCheckIntervalSecs, .publish .healthCheckTimeoutSecs,
  .publish .latencySmoothingFactor]

/-- The sections in program order.
Source: `config_reloader.rs` `reload` -/
def reloadProgram : List ReloadSection :=
  clientSections ++ [.diff, .cleanup, .merge] ++ publishSections ++ [.setTotal, .countHealthy]

/-- The local variables of a reload call. -/
structure ReloadFrame where
  clientSettingsChanged : Bool := false
  endpointsAdded : List String := []
  endpointsRemoved : List String := []
  endpointsModified : List String := []
  newRpcEndpoints : List RpcEndpoint := []
  newRateLimiters : String → Option LimiterRef := fun _ => none
  /-- The call has unwound. -/
  panicked : Bool := false

/-- Removes the series of an endpoint.
Source: `config_reloader.rs` `cleanup_endpoint_metrics` -/
def cleanupEndpointMetrics (url : String) (m : Registry) : Registry :=
  let m := m.removeLabelValues .cooldownSecondsGauge [url]
  let m := m.removeLabelValues .cooldownsTriggered [url]
  let m := m.removeLabelValues .endpointRateLimitDeferred [url]
  let m := m.removeLabelValues .rpcRequestsSucceeded [url]
  let m := m.removeLabelValues .rpcRequestsFailed [url]
  let m := m.removeLabelValues .healthcheckFailed [url]
  m.removeLabelValues .requestLatencyPerEndpoint [url]

/-- Whether a configured endpoint differs from its current record. The weight is present in every
finalized entry, so the source's `unwrap` cannot fail. -/
def modifies (current : RpcEndpoint) (new : EndpointConfig) : Bool :=
  current.rateLimitPerSec != new.rateLimitPerSec || current.burstSize != new.burstSize ||
    some current.weight != new.weight

/-- The URLs added, removed and modified.
Source: `config_reloader.rs` `reload`, the first read section -/
def diffSection (P : Platform) (lb : LoadBalancer) (c : Settings) (frame : ReloadFrame) :
    ReloadFrame :=
  let currentUrls := (lb.endpoints.map RpcEndpoint.url).toFinset
  let newUrls := (c.endpoints.map EndpointConfig.url).toFinset
  let modified := c.endpoints.filter fun new =>
    match lb.endpoint? new.url with
    | some current => modifies current new
    | none => false
  { frame with
    endpointsAdded := P.hashOrder (newUrls \ currentUrls)
    endpointsRemoved := P.hashOrder (currentUrls \ newUrls)
    endpointsModified := modified.map EndpointConfig.url }

/-- The variables of the merge loop and what it has allocated. -/
structure MergeState (M : Meter) where
  newRpcEndpoints : List RpcEndpoint
  newRateLimiters : String → Option LimiterRef
  metrics : RefHeap EndpointMetrics
  limiters : RefHeap (RateLimiter M)
  prom : Registry

/-- `new_rate_limiters.insert(url, create_rate_limiter(burst, rate))`; `none` is a panic. -/
def MergeState.insertFresh (s : MergeState M) (url : String) (burst rate : ℕ) :
    Option (MergeState M) := do
  let l ← createRateLimiter M burst rate
  let (limiters, r) := s.limiters.alloc l
  return { s with
    limiters := limiters
    newRateLimiters := Function.update s.newRateLimiters url (some r) }

/-- The record of an endpoint that stays: its state is kept, its configuration replaced. -/
def RpcEndpoint.reconfigured (ep : RpcEndpoint) (rate burst weight : ℕ) : RpcEndpoint :=
  { ep with rateLimitPerSec := rate, burstSize := burst, weight := weight }

/-- One round of the merge loop; `none` is a panic.
Source: `config_reloader.rs` `reload`, the second read section -/
def mergeEndpoint (lb : LoadBalancer) (now : Instant) (s : MergeState M) (new : EndpointConfig) :
    Option (MergeState M) := do
  let newWeight ← new.weight
  let newRateLimit := new.rateLimitPerSec
  let newBurst := new.burstSize
  match lb.endpoint? new.url with
  | some existing =>
      let updated := existing.reconfigured newRateLimit newBurst newWeight
      let s := { s with newRpcEndpoints := s.newRpcEndpoints ++ [updated] }
      if existing.rateLimitPerSec ≠ newRateLimit ∨ existing.burstSize ≠ newBurst then
        s.insertFresh new.url newBurst newRateLimit
      else
        match lb.rateLimiters new.url with
        | some r => return { s with newRateLimiters := Function.update s.newRateLimiters new.url (some r) }
        -- an unchanged endpoint without limiter gets none
        | none => return s
  | none =>
      let (metrics, r) := s.metrics.alloc (.initial lb.timeoutSecs)
      let newEp := RpcEndpoint.initial new.url newRateLimit newBurst newWeight now r
      let s := { s with newRpcEndpoints := s.newRpcEndpoints ++ [newEp], metrics := metrics }
      let s ← s.insertFresh new.url newBurst newRateLimit
      return { s with prom := initializeEndpointMetrics new.url s.prom }

/-- The merge loop; `none` is a panic. -/
def mergeEndpoints (lb : LoadBalancer) (now : Instant) (s : MergeState M)
    (new : List EndpointConfig) : Option (MergeState M) :=
  new.foldlM (mergeEndpoint lb now) s

/-- The state the merge loop starts in. -/
def World.mergeStart (w : World M) : MergeState M :=
  ⟨[], fun _ => none, w.metrics, w.limiters, w.prom⟩

/-- The second read section: the new endpoint list and limiter map, and what was allocated.
Source: `config_reloader.rs` `reload` -/
def mergeSection (c : Settings) (now : Instant) (w : World M) (frame : ReloadFrame) :
    World M × ReloadFrame :=
  match mergeEndpoints w.lb now w.mergeStart c.endpoints with
  | none => (w, { frame with panicked := true })
  | some s =>
      ({ w with metrics := s.metrics, limiters := s.limiters, prom := s.prom },
        { frame with
          newRpcEndpoints := s.newRpcEndpoints
          newRateLimiters := s.newRateLimiters })

/-- One section of a reload to the settings `c`.
Source: `config_reloader.rs` `reload` -/
def execSection (P : Platform) (c : Settings) (now : Instant) (w : World M) (frame : ReloadFrame)
    (sec : ReloadSection) : World M × ReloadFrame :=
  if frame.panicked then (w, frame)
  else
    match sec with
    | .compareClient f =>
        (w, { frame with
          clientSettingsChanged :=
            frame.clientSettingsChanged || w.lb.clientSettings.get f != c.client.get f })
    | .writeClient =>
        if frame.clientSettingsChanged then ({ w with lb := { w.lb with client := c.client } }, frame)
        else (w, frame)
    | .writeClientField f =>
        if frame.clientSettingsChanged then
          ({ w with lb := w.lb.writeClientField f (c.client.get f) }, frame)
        else (w, frame)
    | .diff => (w, diffSection P w.lb c frame)
    | .cleanup =>
        let prom := frame.endpointsRemoved.foldl (fun m url => cleanupEndpointMetrics url m) w.prom
        ({ w with prom := prom }, frame)
    | .merge => mergeSection c now w frame
    | .writeEndpoints =>
        ({ w with lb := { w.lb with endpoints := frame.newRpcEndpoints } }, frame)
    | .writeRateLimiters =>
        ({ w with lb := { w.lb with rateLimiters := frame.newRateLimiters } }, frame)
    | .publish s => ({ w with lb := w.lb.publish c s }, frame)
    | .setTotal => ({ w with prom := w.prom.set .totalEndpoints [] c.endpoints.length }, frame)
    | .countHealthy => (updateHealthyCount w now, frame)

/-- Sections run one after another with nothing in between. -/
def execSections (P : Platform) (c : Settings) (now : Instant) (w : World M) (frame : ReloadFrame)
    (secs : List ReloadSection) : World M × ReloadFrame :=
  secs.foldl (fun s sec => execSection P c now s.1 s.2 sec) (w, frame)

/-! ## The whole call -/

/-- The changes a reload reports.
Source: `config_reloader.rs` `ConfigChanges` -/
structure ConfigChanges where
  endpointsAdded : List String
  endpointsRemoved : List String
  endpointsModified : List String
  configUpdated : Bool
  clientRebuilt : Bool
  deriving DecidableEq, Repr

/-- The answer of a successful reload.
Source: `config_reloader.rs` `ReloadResponse` -/
structure ReloadResponse where
  success : Bool
  message : String
  error : Option String
  changes : ConfigChanges
  deriving DecidableEq, Repr

/-- The answer built from a call's variables. -/
def ReloadFrame.response (frame : ReloadFrame) : ReloadResponse where
  success := true
  message := "Configuration reloaded successfully"
  error := none
  changes := {
    endpointsAdded := frame.endpointsAdded
    endpointsRemoved := frame.endpointsRemoved
    endpointsModified := frame.endpointsModified
    configUpdated := true
    clientRebuilt := frame.clientSettingsChanged }

/-- `From<ConfigError> for LoadBalancerError`. -/
def ConfigError.toLoadBalancerError (e : ConfigError) : LoadBalancerError :=
  .configError e.toMessage

/-- The settings a reload is going to apply, or how it ends before it has touched anything.
Source: `config_reloader.rs` `reload`, up to the destructuring -/
def loadSettings (P : Platform) (read : String → ReadResult) (configPath : String) :
    Outcome LoadBalancerError Settings :=
  match tryLoadConfig P read configPath with
  | .error e => .err e.toLoadBalancerError
  | .ok raw =>
      match (raw.getD {}).finalize P.toLowercase with
      | .panic => .panic
      | .err e => .err e.toLoadBalancerError
      | .ok config =>
          match config.balancer with
          | none => .panic
          | some balancerCfg =>
              match balancerCfg.destructure with
              | some c => .ok c
              | none => .err (.configError "Finalized config is missing required values.")

/-- A reload run alone.
Source: `config_reloader.rs` `reload` -/
def reload (P : Platform) (read : String → ReadResult) (w : World M) (now : Instant) :
    Outcome LoadBalancerError ReloadResponse × World M :=
  match loadSettings P read w.lb.configPath with
  | .panic => (.panic, w)
  | .err e => (.err e, w)
  | .ok c =>
      let (w, frame) := execSections P c now w {} reloadProgram
      if frame.panicked then (.panic, w) else (.ok frame.response, w)

end AzothBalancer
