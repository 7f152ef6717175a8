import AzothBalancer.ConfigReloader

/-!
# A meter and a platform

Concrete values for the two parameters of the model, on which its functions can be run: the leaky
bucket, the crate's default algorithm, and a platform with ASCII lower-casing that knows the parses
of a few texts. The sample world is a startup with one endpoint.
-/

namespace AzothBalancer

/-- A leaky bucket: each cell adds `tokenInterval` to the level, which drains with time. -/
structure LeakyBucket where
  full : ℕ
  tokenInterval : ℕ
  level : ℕ
  lastUpdate : Instant
  deriving DecidableEq, Repr

/-- The level at a later time. -/
def LeakyBucket.drained (b : LeakyBucket) (now : Instant) : ℕ := b.level - (now - b.lastUpdate)

/-- The leaky bucket as a meter: cells are granted while they fit. -/
def leakyBucket : Meter where
  Limiter := LeakyBucket
  new capacity periodNanos := ⟨periodNanos, periodNanos / capacity, 0, 0⟩
  checkN b now n :=
    let level := b.drained now + b.tokenInterval * n
    if level ≤ b.full then (true, { b with level := level, lastUpdate := now }) else (false, b)
  checkN_refused b now n h := by
    dsimp only at h ⊢
    split at h
    · cases h
    · rename_i hfull
      rw [if_neg hfull]

/-- ASCII lower-casing. -/
def asciiLowercase (s : List Char) : List Char := s.map Char.toLower

/-- A platform with ASCII lower-casing that parses the texts of a table. -/
noncomputable def Platform.ofTable (table : List (String × Config)) : Platform where
  toLowercase := asciiLowercase
  tomlFromStr raw :=
    match table.lookup raw with
    | some config => .ok config
    | none => .error "TOML parse error"
  hashOrder s := s.toList
  hashOrder_nodup s := s.nodup_toList
  mem_hashOrder _ _ := Finset.mem_toList

/-- The configuration with one endpoint table and defaults elsewhere. -/
def Config.ofEndpoints (endpoints : List EndpointConfig) : Config :=
  { balancer := some { endpoints := some endpoints } }

/-- The settings of such a configuration, once finalized. -/
def Settings.ofEndpoints (endpoints : List EndpointConfig) : Settings where
  maxBatchSize := defaultMaxBatchSize
  baseCooldownSecs := defaultBaseCooldownSecs
  maxCooldownSecs := defaultMaxCooldownSecs
  healthCheckIntervalSecs := defaultHealthCheckIntervalSecs
  healthCheckTimeoutSecs := defaultHealthCheckTimeoutSecs
  latencySmoothingFactor := defaultLatencySmoothingFactor
  connectTimeoutMs := defaultConnectTimeoutMs
  timeoutSecs := defaultTimeoutSecs
  poolIdleTimeoutSecs := defaultPoolIdleTimeoutSecs
  poolMaxIdlePerHost := defaultPoolMaxIdlePerHost
  endpoints := endpoints

/-- A file with the one endpoint of the sample world. -/
def sampleFile : String :=
  "[[balancer.endpoints]]\nurl = \"http://a\"\nrate_limit_per_sec = 20\nburst_size = 25\nweight = 60\n"

/-- The one endpoint of the sample world. -/
def sampleEndpoint : EndpointConfig := ⟨"http://a", 20, 25, some 60⟩

/-- A file with another endpoint. -/
def otherFile : String :=
  "[[balancer.endpoints]]\nurl = \"http://b\"\nrate_limit_per_sec = 5\nburst_size = 7\nweight = 60\n"

/-- The endpoint of the other file. -/
def otherEndpoint : EndpointConfig := ⟨"http://b", 5, 7, some 60⟩

/-- A platform that can parse the two files. -/
noncomputable def samplePlatform : Platform :=
  .ofTable [(sampleFile, .ofEndpoints [sampleEndpoint]), (otherFile, .ofEndpoints [otherEndpoint])]

/-- The world started from the sample file. -/
def sampleWorld : World leakyBucket :=
  (LoadBalancer.new leakyBucket asciiLowercase (some (.ofEndpoints [sampleEndpoint])) "config.toml"
    0).get (by decide)

/-- The sample world is a startup. -/
theorem new_sampleWorld : LoadBalancer.new leakyBucket samplePlatform.toLowercase
    (some (.ofEndpoints [sampleEndpoint])) "config.toml" 0 = some sampleWorld :=
  (Option.some_get _).symm

/-- The settings in the sample file. -/
theorem loadSettings_sampleFile (path : String) :
    loadSettings samplePlatform (fun _ => .content sampleFile) path =
      .ok (.ofEndpoints [sampleEndpoint]) := by
  show loadSettings samplePlatform (fun _ => .content sampleFile) "config.toml" = _
  decide +kernel

/-- The settings in the other file. -/
theorem loadSettings_otherFile (path : String) :
    loadSettings samplePlatform (fun _ => .content otherFile) path =
      .ok (.ofEndpoints [otherEndpoint]) := by
  show loadSettings samplePlatform (fun _ => .content otherFile) "config.toml" = _
  decide +kernel

end AzothBalancer
