import Espejismo.Config

/-!
# Config.Load

Where a configuration comes from and what is laid over it before it is used
(`load_config` and `apply_named_profile` of `config/mod.rs`, `profile.rs`,
`cli_support.rs`): a file or a base64 text, a client profile that is imported, a
named profile, and the options for the logs.

Reading TOML, base64 and JSON is outside of the model: `ConfigSources` says what
each source holds.
-/

namespace Espejismo

open Net List

/-! ## Sources -/

structure ConfigInput where
  path : Option String := none
  base64 : Option String := none
  deriving DecidableEq

structure ClientProfile where
  name : String
  server : String
  psk : String
  handshakeWindow : HandshakeWindow := .default
  socks5Listen : Option SocketAddr := none
  httpListen : Option SocketAddr := none
  auth : Option ProxyAuth := none

/-- What the files, the base64 texts and the profile URLs hold, or the error of
reading them. -/
structure ConfigSources where
  file : String → Except Error EspejismoConfig
  decoded : String → Except Error EspejismoConfig
  profile : String → Except Error ClientProfile

def reportAs (text : String) : Except Error α → Except Error α
  | .ok a => .ok a
  | .error _ => .error (.msg text)

def loadConfigFile (sources : ConfigSources) (path : String) : Except Error EspejismoConfig := do
  let config ← sources.file path
  reportAs s!"parse {path}" (parseConfig config)

def loadConfigBase64 (sources : ConfigSources) (encoded : String) :
    Except Error EspejismoConfig := do
  let config ← sources.decoded encoded
  reportAs "parse base64 TOML config" (parseConfig config)

def loadConfig (sources : ConfigSources) (input : ConfigInput) : Except Error EspejismoConfig :=
  match input.path, input.base64 with
  | some _, some _ => .error (.msg "use either --config or --config-base64, not both")
  | some path, none => loadConfigFile sources path
  | none, some encoded => loadConfigBase64 sources encoded
  | none, none => .ok {}

theorem reportAs_eq_ok : reportAs text x = .ok a ↔ x = .ok a := by
  cases x <;> simp [reportAs]

variable {config : EspejismoConfig}

theorem parseConfig_of_read {read : Except Error EspejismoConfig}
    (h : (do reportAs text (parseConfig (← read))) = .ok config) :
    parseConfig config = .ok config := by
  obtain ⟨read, -, h⟩ := bind_eq_ok.mp h
  rw [reportAs_eq_ok] at h
  obtain ⟨rfl, -⟩ := parseConfig_eq_ok_iff.mp h
  exact h

theorem parseConfig_of_loadConfig
    (h : loadConfig sources input = .ok config) : parseConfig config = .ok config := by
  unfold loadConfig at h
  split at h
  · contradiction
  · exact parseConfig_of_read h
  · exact parseConfig_of_read h
  · obtain rfl := Except.ok.inj h
    exact parseConfig_default

def ClientProfile.applyToConfig (profile : ClientProfile) (config : EspejismoConfig) :
    EspejismoConfig :=
  { config with
    shared :=
      { config.shared with
        psk := some profile.psk
        handshakeWindow := profile.handshakeWindow }
    localConfig :=
      { config.localConfig with
        server := some profile.server
        socks5Listen := profile.socks5Listen
        httpListen := profile.httpListen
        auth := profile.auth } }

/-! ## Named profiles -/

inductive NamedProfile where
  | fast
  | autoThroughput
  | balanced
  | lowLatency
  | stealth
  | serverSafe
  deriving DecidableEq

/-- A name is read without blanks around it, in lower case, with `-` for `_`. -/
def NamedProfile.parse (name : String) : Option NamedProfile :=
  let normalized := (toAsciiLowercase (trim name.toList)).map fun c => if c = '_' then '-' else c
  (names.find? fun entry => entry.1.toList = normalized).map (·.2)
where
  names : List (String × NamedProfile) :=
    [("fast", .fast), ("auto-throughput", .autoThroughput), ("throughput-auto", .autoThroughput),
      ("balanced", .balanced), ("low-latency", .lowLatency), ("latency", .lowLatency),
      ("stealth", .stealth), ("server-safe", .serverSafe), ("safe", .serverSafe)]

def TunnelPoolConfig.withLanes (pool : TunnelPoolConfig) (maxConnections interactive bulk : Nat) :
    TunnelPoolConfig :=
  { pool with
    minConnections := 1
    maxConnections
    interactiveLanes := interactive
    bulkLanes := bulk }

def ObfuscationConfig.bulk : ObfuscationConfig :=
  { profile := .bulk
    chunkPolicy := .bulk
    randomizeChunks := false
    minChunk := 64 * 1024
    maxChunk := normalPayloadCapacity }

def clamp (n lower upper : Nat) : Nat := if n < lower then lower else if upper < n then upper else n

def NamedProfile.apply (profile : NamedProfile) (config : EspejismoConfig) : EspejismoConfig :=
  let shared := config.shared
  let loc := config.localConfig
  match profile with
  | .fast =>
    { config with
      shared :=
        { shared with
          maxPadding := 0
          paddingChancePercent := 0
          jitterMs := 0
          obfuscation := .bulk
          pacing :=
            { shared.pacing with
              enabled := true, burstBytes := 512 * 1024, minWriteBytes := 64 * 1024 }
          tunnelBuffer := 8 * 1024 * 1024
          mux :=
            { shared.mux with
              nativeInitialWindowBytes :=
                max shared.mux.nativeInitialWindowBytes (8 * 1024 * 1024) } }
      localConfig := { loc with tunnelPool := loc.tunnelPool.withLanes 8 1 4 } }
  | .autoThroughput =>
    { config with
      shared :=
        { shared with
          maxPadding := 0
          paddingChancePercent := 0
          jitterMs := 0
          obfuscation := .bulk
          pacing :=
            { shared.pacing with
              enabled := true, burstBytes := 1024 * 1024, minWriteBytes := 64 * 1024 }
          tunnelBuffer := 16 * 1024 * 1024
          tcp :=
            { shared.tcp with
              nodelay := true
              sendBufferBytes := max shared.tcp.sendBufferBytes (4 * 1024 * 1024)
              recvBufferBytes := max shared.tcp.recvBufferBytes (4 * 1024 * 1024) }
          mux :=
            { shared.mux with
              nativeInitialWindowBytes :=
                max shared.mux.nativeInitialWindowBytes (16 * 1024 * 1024) }
          maxStreams := max shared.maxStreams 512 }
      localConfig :=
        { loc with
          httpBulkThresholdBytes := 256 * 1024
          tunnelPool := loc.tunnelPool.withLanes 8 1 6 } }
  | .balanced =>
    { config with
      shared :=
        { shared with
          obfuscation := { shared.obfuscation with profile := .balanced, chunkPolicy := .balanced }
          maxPadding := 64
          paddingChancePercent := 35
          jitterMs := 0
          pacing := { shared.pacing with enabled := true } }
      localConfig := { loc with tunnelPool := loc.tunnelPool.withLanes 4 1 2 } }
  | .lowLatency =>
    { config with
      shared :=
        { shared with
          maxPadding := 16
          paddingChancePercent := 5
          jitterMs := 0
          obfuscation :=
            { shared.obfuscation with
              profile := .lowLatency, chunkPolicy := .lowLatency, randomizeChunks := true }
          tcp := { shared.tcp with nodelay := true }
          pacing :=
            { shared.pacing with enabled := true, burstBytes := 32 * 1024, minWriteBytes := 512 } }
      localConfig := { loc with tunnelPool := loc.tunnelPool.withLanes 2 1 1 } }
  | .stealth =>
    { config with
      shared :=
        { shared with
          obfuscation :=
            { shared.obfuscation with
              profile := .stealth, chunkPolicy := .stealth, randomizeChunks := false }
          maxPadding := 0
          paddingChancePercent := 0
          jitterMs := 3
          stealth :=
            { frameSize := 4096, frameSizeCandidates := [3328, 3584, 4096, 4608], tickMs := 20 }
          stealthShaper :=
            { enabled := true, mode := .web, idleNoise := .poisson, paddingBudgetBps := 16 * 1024
              minDelayMs := 20, maxDelayMs := 80, idleMaxDelayMs := 1000 }
          keyUpdateFrames := 8192 }
      localConfig :=
        { loc with
          handshakePadding := max loc.handshakePadding 256
          tunnelPool := loc.tunnelPool.withLanes 2 1 1 } }
  | .serverSafe =>
    { config with
      shared :=
        { shared with
          maxStreams := clamp shared.maxStreams 1 128
          maxPhysicalConnections := clamp shared.maxPhysicalConnections 1 512
          pacing :=
            { shared.pacing with
              enabled := true, burstBytes := min shared.pacing.burstBytes (64 * 1024) } }
      remote :=
        { config.remote with
          egress := { config.remote.egress with denyPrivateIps := true, allowPorts := [80, 443] }
          tarpitMax := min config.remote.tarpitMax 512 } }

/-- `config` with the fields that a named profile may write taken from `other`. -/
def EspejismoConfig.withProfiled (config other : EspejismoConfig) : EspejismoConfig :=
  { config with
    shared :=
      { config.shared with
        maxPadding := other.shared.maxPadding
        jitterMs := other.shared.jitterMs
        paddingChancePercent := other.shared.paddingChancePercent
        tunnelBuffer := other.shared.tunnelBuffer
        maxStreams := other.shared.maxStreams
        maxPhysicalConnections := other.shared.maxPhysicalConnections
        keyUpdateFrames := other.shared.keyUpdateFrames
        tcp :=
          { config.shared.tcp with
            nodelay := other.shared.tcp.nodelay
            sendBufferBytes := other.shared.tcp.sendBufferBytes
            recvBufferBytes := other.shared.tcp.recvBufferBytes }
        mux :=
          { config.shared.mux with
            nativeInitialWindowBytes := other.shared.mux.nativeInitialWindowBytes }
        pacing := other.shared.pacing
        obfuscation := other.shared.obfuscation
        stealth := other.shared.stealth
        stealthShaper := other.shared.stealthShaper }
    localConfig :=
      { config.localConfig with
        handshakePadding := other.localConfig.handshakePadding
        httpBulkThresholdBytes := other.localConfig.httpBulkThresholdBytes
        tunnelPool :=
          { config.localConfig.tunnelPool with
            minConnections := other.localConfig.tunnelPool.minConnections
            maxConnections := other.localConfig.tunnelPool.maxConnections
            interactiveLanes := other.localConfig.tunnelPool.interactiveLanes
            bulkLanes := other.localConfig.tunnelPool.bulkLanes } }
    remote :=
      { config.remote with
        egress := other.remote.egress
        tarpitMax := other.remote.tarpitMax } }

theorem NamedProfile.apply_eq_withProfiled (profile : NamedProfile) (config : EspejismoConfig) :
    profile.apply config = config.withProfiled (profile.apply config) := by
  cases profile <;> rfl

def applyNamedProfile (config : EspejismoConfig) (name : String) : Except Error EspejismoConfig :=
  match NamedProfile.parse name with
  | some profile => .ok (profile.apply config)
  | none => .error (.msg
      s!"unknown profile '{name}', expected fast, balanced, low-latency, stealth, auto-throughput, or server-safe")

/-- Every check but those of the pacing holds again under a named profile. -/
theorem NamedProfile.checks_apply_iff (profile : NamedProfile)
    (h : ∀ check ∈ config.checks, check.holds) :
    (∀ check ∈ (profile.apply config).checks, check.holds) ↔
      ∀ check ∈ (profile.apply config).shared.pacing.checks, check.holds := by
  simp only [EspejismoConfig.checks, forall_mem_append] at h ⊢
  obtain ⟨⟨⟨⟨⟨⟨⟨⟨⟨⟨⟨⟨⟨hau, htu⟩, had⟩, hli⟩, hus⟩, hch⟩, hp⟩, hm⟩, htc⟩, -⟩,
    hs⟩, hou⟩, hun⟩, hpt⟩ := h
  have hli' : ∀ check ∈ (profile.apply config).limitChecks, check.holds := by
    simp only [EspejismoConfig.limitChecks, cons_append, forall_mem_append,
      forall_mem_cons, Check.positive, decide_eq_true_eq] at hli ⊢
    cases profile <;> simp [apply, clamp] at hli ⊢ <;> grind
  have hch' : ∀ check ∈ (profile.apply config).shared.obfuscation.checks, check.holds := by
    cases profile with
    | fast | autoThroughput =>
      exact (by decide : ∀ check ∈ ObfuscationConfig.bulk.checks, check.holds)
    | _ => exact hch
  have hp' : ∀ check ∈ (profile.apply config).localConfig.tunnelPool.checks, check.holds := by
    simp only [TunnelPoolConfig.checks, forall_mem_cons, Check.positive] at hp ⊢
    cases profile with
    | serverSafe => exact hp
    | _ => exact ⟨rfl, rfl, rfl, rfl, rfl, hp.2.2.2.2.2⟩
  have hm' : ∀ check ∈ (profile.apply config).shared.mux.checks, check.holds := by
    simp only [MuxConfig.checks, forall_mem_cons] at hm ⊢
    cases profile with
    | fast | autoThroughput => exact ⟨by simp [apply, Check.positive], hm.2⟩
    | _ => exact hm
  have hs' : ∀ check ∈ (profile.apply config).shared.stealthChecks, check.holds := by
    simp only [SharedConfig.stealthChecks, forall_mem_append] at hs ⊢
    cases profile with
    | stealth =>
      simp [apply, Check.guarded, stealthFrameSizeChecks, StealthShaperConfig.checks,
        Check.positive, Check.eachOnce]
    | serverSafe => exact hs
    | _ => exact ⟨by simp [apply, ObfuscationConfig.bulk], hs.2⟩
  cases profile <;> exact ⟨fun hal => hal.1.1.1.1.2, fun hpa =>
    ⟨⟨⟨⟨⟨⟨⟨⟨⟨⟨⟨⟨⟨hau, htu⟩, had⟩, hli'⟩, hus⟩, hch'⟩, hp'⟩, hm'⟩, htc⟩, hpa⟩,
      hs'⟩, hou⟩, hun⟩, hpt⟩⟩

/-- **A named profile keeps a configuration valid** unless it switches the pacing on and
leaves its sizes at zero. -/
theorem named_profile_valid_iff (config profiled : EspejismoConfig) (name : String)
    (h : parseConfig config = .ok config) (hna : applyNamedProfile config name = .ok profiled) :
    parseConfig profiled = .ok profiled ↔
      (NamedProfile.parse name = some .balanced ∨ NamedProfile.parse name = some .serverSafe →
        0 < config.shared.pacing.burstBytes ∧ 0 < config.shared.pacing.minWriteBytes) := by
  obtain ⟨-, hcc, hpr⟩ := parseConfig_eq_ok_iff.mp h
  unfold applyNamedProfile at hna
  split at hna
  next profile hps =>
    cases hna
    have hpr' : ∃ proxy, (profile.apply config).remote.egress.upstreamProxy = .ok proxy := by
      cases profile <;> exact hpr
    have hpa : ∀ check ∈ config.shared.pacing.checks, check.holds := fun check hme =>
      hcc check (by simp [EspejismoConfig.checks, hme])
    rw [parseConfig_eq_ok_iff, profile.checks_apply_iff hcc, hps]
    simp only [hpr', true_and, and_true]
    cases profile with
    | stealth => exact iff_of_true hpa (by simp)
    | _ => simp [NamedProfile.apply, PacingConfig.checks, Check.guarded] <;> grind
  next => cases hna

theorem named_profile_valid_balanced :
    parseConfig (NamedProfile.balanced.apply {}) = .ok (NamedProfile.balanced.apply {}) :=
  (named_profile_valid_iff {} _ "balanced" parseConfig_default rfl).mpr (by decide)

def unpacedConfig : EspejismoConfig :=
  { shared := { pacing := { enabled := false, burstBytes := 0, minWriteBytes := 0 } } }

theorem balanced_profile_invalid : parseConfig unpacedConfig = .ok unpacedConfig ∧
    (applyNamedProfile unpacedConfig "balanced" >>= parseConfig) = .error
      (.msg "shared.pacing.burst_bytes must be greater than 0 when pacing is enabled") := by
  decide

def applyProfileOption (config : EspejismoConfig) : Option String → Except Error EspejismoConfig
  | some name => applyNamedProfile config name
  | none => .ok config

theorem applyProfileOption_eq_withProfiled
    (h : applyProfileOption config name = .ok config') : config' = config.withProfiled config' := by
  cases name with
  | none =>
    cases h
    rfl
  | some =>
    unfold applyProfileOption applyNamedProfile at h
    dsimp only at h
    split at h
    case h_1 profile _ =>
      cases h
      exact profile.apply_eq_withProfiled config
    case h_2 => contradiction

/-! ## Options for the logs -/

structure LogOverrides where
  level : Option String := none
  format : Option String := none
  file : Option String := none
  noAnsi : Bool := false
  deriving DecidableEq

def parseLogFormat (format : String) : Except Error LogFormat :=
  if format = "compact" then .ok .compact
  else if format = "pretty" then .ok .pretty
  else if format = "json" then .ok .json
  else .error (.msg "log format must be compact, pretty, or json")

def applyLogOverrides (config : LogConfig) (overrides : LogOverrides) : Except Error LogConfig := do
  let format ←
    match overrides.format with
    | some format => parseLogFormat format
    | none => .ok config.format
  return {
    level := overrides.level.getD config.level
    format
    file := overrides.file.or config.file
    ansi := if overrides.noAnsi then false else config.ansi }

theorem exists_applyLogOverrides {config : LogConfig}
    (h : applyLogOverrides config overrides = .ok logging) (config' : LogConfig) :
    ∃ logging', applyLogOverrides config' overrides = .ok logging' := by
  unfold applyLogOverrides at h ⊢
  cases hfo : overrides.format with
  | none => exact ⟨_, rfl⟩
  | some =>
    rw [hfo] at h
    obtain ⟨read, hre, -⟩ := map_eq_ok.mp h
    exact ⟨_, map_eq_ok.mpr ⟨read, hre, rfl⟩⟩

theorem parseConfig_logging (h : parseConfig config = .ok config) (logging : LogConfig) :
    parseConfig { config with logging } = .ok { config with logging } :=
  parseConfig_eq_ok_iff.mpr ⟨rfl, (parseConfig_eq_ok_iff.mp h).2⟩

end Espejismo
