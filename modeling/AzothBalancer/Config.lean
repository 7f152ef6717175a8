import AzothBalancer.Machine
import Mathlib.Data.Finset.Basic
import Mathlib.Data.List.DropRight

/-!
# Configuration

`config.rs`: the configuration record as the TOML file gives it, the constants, the endpoint filter
`validateAndDedupeEndpoints` and `Config.finalize`, which fills in defaults and clamps.

Strings are lists of characters here and lengths are in UTF-8 bytes, as in Rust. `char::is_control`
and `char::is_whitespace` are given by the Unicode sets they stand for; full Unicode lowercasing is
a parameter (`toLowercase`). `replace_range(0..k)` panics when byte `k` is past the end or inside a
character, so the filter can panic in principle.

`Settings` is a finalized configuration taken apart (`BalancerConfig.destructure`), and
`Settings.Valid` is what `finalize` guarantees of it (`valid_of_finalize`): the endpoint URLs are
pairwise distinct, and every endpoint has a weight, a burst and a rate.
-/

namespace AzothBalancer

/-- `ConfigError` has one constructor, which carries a text. -/
inductive ConfigError where
  | configError (msg : String)
  deriving DecidableEq, Repr

/-- The `Display` text of a configuration error. -/
def ConfigError.toMessage : ConfigError → String
  | configError msg => "Configuration error: " ++ msg

/-- One `[[balancer.endpoints]]` entry. -/
structure EndpointConfig where
  url : String
  rateLimitPerSec : ℕ
  burstSize : ℕ
  weight : Option ℕ
  deriving DecidableEq, Repr

/-- The `[balancer]` table. -/
structure BalancerConfig where
  healthCheckIntervalSecs : Option ℕ := none
  healthCheckTimeoutSecs : Option ℕ := none
  baseCooldownSecs : Option ℕ := none
  maxCooldownSecs : Option ℕ := none
  latencySmoothingFactor : Option F64 := none
  endpoints : Option (List EndpointConfig) := none
  maxBatchSize : Option ℕ := none
  maxConcurrency : Option ℕ := none
  connectTimeoutMs : Option ℕ := none
  timeoutSecs : Option ℕ := none
  poolIdleTimeoutSecs : Option ℕ := none
  poolMaxIdlePerHost : Option ℕ := none
  deriving DecidableEq

/-- The `[server]` table. -/
structure ServerConfig where
  bindAddr : Option String := none
  deriving DecidableEq

/-- A configuration file. -/
structure Config where
  server : Option ServerConfig := none
  balancer : Option BalancerConfig := none
  deriving DecidableEq

/-! ## Constants -/

section constants

def defaultBurstSize : ℕ := 25
def defaultBindAddr : String := "0.0.0.0:8549"
def defaultHealthCheckIntervalSecs : ℕ := 30
def defaultHealthCheckTimeoutSecs : ℕ := 5
def defaultBaseCooldownSecs : ℕ := 3
def defaultMaxCooldownSecs : ℕ := 60
def defaultLatencySmoothingFactor : F64 := .finite (1 / 10)
def defaultEndpointRateLimit : ℕ := 20
def defaultEndpointWeight : ℕ := 20
def defaultMaxBatchSize : ℕ := 100
def defaultConnectTimeoutMs : ℕ := 500
def defaultTimeoutSecs : ℕ := 5
def defaultPoolIdleTimeoutSecs : ℕ := 20
def defaultPoolMaxIdlePerHost : ℕ := 50
def defaultMaxConcurrency : ℕ := 50

/-- The built-in endpoint URLs. -/
def defaultEndpoints : List String := [
  "https://arbitrum-one.blastapi.io/0bbf5840-7702-4ae8-8d06-c081e6089381",
  "https://arbitrum.blockpi.network/v1/rpc/47d30766a0860ce4418ede1ab9b65b6fa8e63133",
  "https://rpc.ankr.com/arbitrum/432820e33bd905ed5a2f63eca52792fb302e1ce6c025bb591c6d2e588f52e3ee",
  "https://arbitrum.drpc.org/"]

/-- The endpoints used when the file lists none.
Source: `config.rs` `get_default_endpoints` -/
def getDefaultEndpoints : List EndpointConfig :=
  defaultEndpoints.map fun s => ⟨s, defaultEndpointRateLimit, defaultBurstSize, some defaultEndpointWeight⟩

def maxUrlLen : ℕ := 2048
def maxRateLimit : ℕ := 100000
def maxBurstSize : ℕ := 10000

end constants

/-! ## Characters and bytes -/

/-- `char::is_control`: general category `Cc`. -/
def isControl (c : Char) : Bool := c.toNat ≤ 0x1F || (0x7F ≤ c.toNat && c.toNat ≤ 0x9F)

/-- `char::is_whitespace`: the Unicode property `White_Space`. -/
def isWhitespace (c : Char) : Bool :=
  let n := c.toNat
  (0x9 ≤ n && n ≤ 0xD) || n == 0x20 || n == 0x85 || n == 0xA0 || n == 0x1680 ||
    (0x2000 ≤ n && n ≤ 0x200A) || n == 0x2028 || n == 0x2029 || n == 0x202F || n == 0x205F ||
    n == 0x3000

/-- `str::trim`. -/
def trim (s : List Char) : List Char := (s.dropWhile isWhitespace).rdropWhile isWhitespace

/-- `str::len`: the length of the UTF-8 encoding. -/
def byteLen (s : List Char) : ℕ := (s.map Char.utf8Size).sum

/-- `s` without its first `k` bytes; `none` if byte `k` is past the end or inside a character. -/
def dropBytes : ℕ → List Char → Option (List Char)
  | 0, s => some s
  | _ + 1, [] => none
  | k + 1, c :: s => if c.utf8Size ≤ k + 1 then dropBytes (k + 1 - c.utf8Size) s else none

/-- `replace_range(0..k, new)`; `none` is its panic. -/
def replacePrefix (k : ℕ) (new s : List Char) : Option (List Char) := (dropBytes k s).map (new ++ ·)

/-- The lower-case schemes the filter accepts. -/
def httpScheme : List Char := "http://".toList

@[inherit_doc httpScheme]
def httpsScheme : List Char := "https://".toList

/-! ## The endpoint filter -/

section filter

variable (toLowercase : List Char → List Char)

/-- The scheme in lower case and no trailing slash; `none` is the panic of `replace_range`.
Source: `config.rs` `validate_and_dedupe_endpoints`, the canonicalization -/
def canonicalizeUrl (url : List Char) : Option (List Char) := do
  let url ←
    if httpScheme.isPrefixOf (toLowercase url) then replacePrefix 7 httpScheme url
    else if httpsScheme.isPrefixOf (toLowercase url) then replacePrefix 8 httpsScheme url
    else some url
  some (url.rdropWhile (· == '/'))

/-- The tests an entry has to pass, on its trimmed URL, in the order of the source.
Source: `config.rs` `validate_and_dedupe_endpoints`, the early returns -/
def passesChecks (url : List Char) (e : EndpointConfig) : Bool :=
  !url.isEmpty &&
  (httpScheme.isPrefixOf (toLowercase url) || httpsScheme.isPrefixOf (toLowercase url)) &&
  byteLen url ≤ maxUrlLen &&
  !url.any (fun c => isControl c || isWhitespace c) &&
  !(e.rateLimitPerSec == 0 || maxRateLimit < e.rateLimitPerSec) &&
  !(e.burstSize == 0 || maxBurstSize < e.burstSize)

/-- The filter's closure before the duplicate test: the entry with its canonical URL, if it passes.
Source: `config.rs` `validate_and_dedupe_endpoints` -/
def validateEndpoint (e : EndpointConfig) : Outcome ConfigError (Option EndpointConfig) :=
  let url := trim e.url.toList
  if passesChecks toLowercase url e then do
    let canonical ← Outcome.unwrap (canonicalizeUrl toLowercase url)
    return some { e with url := String.ofList canonical }
  else return none

/-- The filter: entries that pass, each canonical URL once; `seen` holds the URLs kept so far.
Source: `config.rs` `validate_and_dedupe_endpoints`, the `filter_map` -/
def filterEndpoints (seen : List String) :
    List EndpointConfig → Outcome ConfigError (List EndpointConfig)
  | [] => return []
  | e :: es => do
      match ← validateEndpoint toLowercase e with
      | none => filterEndpoints seen es
      | some e =>
          if e.url ∈ seen then filterEndpoints seen es
          else return e :: (← filterEndpoints (e.url :: seen) es)

/-- The valid endpoints of a configuration, an error if there are none.
Source: `config.rs` `validate_and_dedupe_endpoints` -/
def validateAndDedupeEndpoints (endpoints : List EndpointConfig) :
    Outcome ConfigError (List EndpointConfig) := do
  let validated ← filterEndpoints toLowercase [] endpoints
  if validated.isEmpty then .err (.configError "No valid endpoints configured") else return validated

/-- The last constraints on an endpoint that passed the filter.
Source: `config.rs` `Config::finalize`, the loop over `endpoints` -/
def constrainEndpoint (e : EndpointConfig) : EndpointConfig :=
  { e with
    rateLimitPerSec := max e.rateLimitPerSec 1
    burstSize := max e.burstSize 1
    weight := some (e.weight.getD defaultEndpointWeight) }

/-- The bind address, defaulted.
Source: `config.rs` `Config::finalize` -/
def ServerConfig.withDefaults (s : ServerConfig) : ServerConfig :=
  { s with bindAddr := s.bindAddr.or (some defaultBindAddr) }

/-- The balancer table with defaults and clamps applied, and the endpoints that passed the filter.
Source: `config.rs` `Config::finalize` -/
def BalancerConfig.withDefaults (b : BalancerConfig) (endpoints : List EndpointConfig) :
    BalancerConfig :=
  { b with
    healthCheckIntervalSecs := b.healthCheckIntervalSecs.or (some defaultHealthCheckIntervalSecs)
    healthCheckTimeoutSecs := b.healthCheckTimeoutSecs.or (some defaultHealthCheckTimeoutSecs)
    baseCooldownSecs := b.baseCooldownSecs.or (some defaultBaseCooldownSecs)
    maxCooldownSecs := b.maxCooldownSecs.or (some defaultMaxCooldownSecs)
    latencySmoothingFactor := some
      ((b.latencySmoothingFactor.getD defaultLatencySmoothingFactor).clamp (.finite 0) (.finite 1))
    maxBatchSize := some (max (b.maxBatchSize.getD defaultMaxBatchSize) 1)
    maxConcurrency := some (max (b.maxConcurrency.getD defaultMaxConcurrency) 1)
    connectTimeoutMs := b.connectTimeoutMs.or (some defaultConnectTimeoutMs)
    timeoutSecs := b.timeoutSecs.or (some defaultTimeoutSecs)
    poolIdleTimeoutSecs := b.poolIdleTimeoutSecs.or (some defaultPoolIdleTimeoutSecs)
    poolMaxIdlePerHost := b.poolMaxIdlePerHost.or (some defaultPoolMaxIdlePerHost)
    endpoints := some (endpoints.map constrainEndpoint) }

/-- Applies defaults, validates and clamps.
Source: `config.rs` `Config::finalize` -/
def Config.finalize (self : Config) : Outcome ConfigError Config := do
  let serverCfg := (self.server.getD {}).withDefaults
  let balancerCfg := self.balancer.getD {}
  let endpoints ←
    validateAndDedupeEndpoints toLowercase (balancerCfg.endpoints.getD getDefaultEndpoints)
  return { server := some serverCfg, balancer := some (balancerCfg.withDefaults endpoints) }

end filter

/-! ## Taking a finalized configuration apart -/

/-- The values a reload takes out of a finalized `[balancer]` table. -/
structure Settings where
  maxBatchSize : ℕ
  baseCooldownSecs : ℕ
  maxCooldownSecs : ℕ
  healthCheckIntervalSecs : ℕ
  healthCheckTimeoutSecs : ℕ
  latencySmoothingFactor : F64
  connectTimeoutMs : ℕ
  timeoutSecs : ℕ
  poolIdleTimeoutSecs : ℕ
  poolMaxIdlePerHost : ℕ
  endpoints : List EndpointConfig
  deriving DecidableEq

/-- The `let BalancerConfig { .. } = .. else` pattern of a reload, which is also every field
`LoadBalancer::new` unwraps except the bind address and the concurrency.
Source: `config_reloader.rs` `reload` -/
def BalancerConfig.destructure (b : BalancerConfig) : Option Settings := do
  return {
    maxBatchSize := ← b.maxBatchSize
    baseCooldownSecs := ← b.baseCooldownSecs
    maxCooldownSecs := ← b.maxCooldownSecs
    healthCheckIntervalSecs := ← b.healthCheckIntervalSecs
    healthCheckTimeoutSecs := ← b.healthCheckTimeoutSecs
    latencySmoothingFactor := ← b.latencySmoothingFactor
    connectTimeoutMs := ← b.connectTimeoutMs
    timeoutSecs := ← b.timeoutSecs
    poolIdleTimeoutSecs := ← b.poolIdleTimeoutSecs
    poolMaxIdlePerHost := ← b.poolMaxIdlePerHost
    endpoints := ← b.endpoints }

/-- What finalization guarantees of an endpoint entry. -/
structure EndpointConfig.Valid (e : EndpointConfig) : Prop where
  weight : e.weight.isSome
  burst : 0 < e.burstSize
  rate : 0 < e.rateLimitPerSec

/-- What finalization guarantees of the settings. -/
structure Settings.Valid (c : Settings) : Prop where
  nodup : (c.endpoints.map EndpointConfig.url).Nodup
  endpoint : ∀ e ∈ c.endpoints, e.Valid

/-- The filter keeps URLs that are new, each once. -/
theorem filterEndpoints_nodup {lower : List Char → List Char} :
    ∀ (es : List EndpointConfig) (seen : List String) {kept : List EndpointConfig},
      filterEndpoints lower seen es = .ok kept →
      (kept.map EndpointConfig.url).Nodup ∧ ∀ e ∈ kept, e.url ∉ seen
  | [], seen, kept, h => by
      cases h
      simp
  | e :: es, seen, kept, h => by
      rw [filterEndpoints, Outcome.bind_eq_ok_iff] at h
      obtain ⟨v, -, h⟩ := h
      cases v with
      | none => exact filterEndpoints_nodup es seen h
      | some e' =>
          simp only at h
          split at h
          · exact filterEndpoints_nodup es seen h
          · rename_i hnew
            rw [Outcome.bind_eq_ok_iff] at h
            obtain ⟨rest, hrest, hk⟩ := h
            cases hk
            obtain ⟨hn, hs⟩ := filterEndpoints_nodup es (e'.url :: seen) hrest
            refine ⟨?_, ?_⟩
            · rw [List.map_cons, List.nodup_cons]
              refine ⟨fun hm => ?_, hn⟩
              obtain ⟨x, hx, hxu⟩ := List.mem_map.mp hm
              exact hs x hx (hxu ▸ List.mem_cons_self)
            · intro x hx
              rcases List.mem_cons.mp hx with rfl | hx'
              · exact hnew
              · exact fun hm => hs x hx' (List.mem_cons_of_mem _ hm)

/-- The last constraints keep the URL. -/
@[simp] theorem constrainEndpoint_url (e : EndpointConfig) : (constrainEndpoint e).url = e.url := rfl

/-- The last constraints leave a valid entry. -/
theorem valid_constrainEndpoint (e : EndpointConfig) : (constrainEndpoint e).Valid where
  weight := rfl
  burst := by simp [constrainEndpoint]
  rate := by simp [constrainEndpoint]

/-- With its defaults applied, the table can be taken apart.
Source: `config.rs` `Config::finalize` -/
theorem destructure_withDefaults (b : BalancerConfig) (es : List EndpointConfig) :
    ∃ s, (b.withDefaults es).destructure = some s ∧ s.endpoints = es.map constrainEndpoint := by
  simp only [BalancerConfig.destructure, BalancerConfig.withDefaults, Option.or_some,
    Option.bind_eq_bind, Option.bind_some]
  exact ⟨_, rfl, rfl⟩

/-- The endpoint filter's result has pairwise distinct URLs.
Source: `config.rs` `validate_and_dedupe_endpoints` -/
theorem validateAndDedupeEndpoints_nodup {lower : List Char → List Char}
    {es kept : List EndpointConfig} (h : validateAndDedupeEndpoints lower es = .ok kept) :
    (kept.map EndpointConfig.url).Nodup := by
  unfold validateAndDedupeEndpoints at h
  rw [Outcome.bind_eq_ok_iff] at h
  obtain ⟨validated, hv, h⟩ := h
  split at h
  · cases h
  · cases h
    exact (filterEndpoints_nodup es [] hv).1

/-- **A finalized configuration can be taken apart, and its settings are valid**: the destructuring
pattern of a reload never fails, and neither does an `unwrap` at startup.
Source: `config.rs` `Config::finalize` -/
theorem valid_of_finalize {lower : List Char → List Char} {raw c : Config}
    (h : raw.finalize lower = .ok c) :
    ∃ b server s n addr, c.balancer = some b ∧ c.server = some server ∧ b.destructure = some s ∧
      s.Valid ∧ b.maxConcurrency = some n ∧ server.bindAddr = some addr := by
  unfold Config.finalize at h
  rw [Outcome.bind_eq_ok_iff] at h
  obtain ⟨es, hes, h⟩ := h
  cases h
  obtain ⟨s, hs, hse⟩ := destructure_withDefaults (raw.balancer.getD {}) es
  refine ⟨_, _, s, _, _, rfl, rfl, hs, ⟨?_, ?_⟩, rfl, Option.or_some⟩
  · rw [hse, List.map_map]
    exact validateAndDedupeEndpoints_nodup hes
  · intro e he
    rw [hse] at he
    obtain ⟨e', -, rfl⟩ := List.mem_map.mp he
    exact valid_constrainEndpoint e'

end AzothBalancer
