import Espejismo.Egress.Policy
import Espejismo.Protocol.Framing
import Espejismo.Crypto.Handshake

/-!
# Config

The configuration (`config/types.rs`, `config/defaults.rs`) and the checks
`parse_config` makes on one that was read (`config/mod.rs`), with the defaults of
every field.
-/

namespace Espejismo

open Net

/-! ## The configuration of a local -/

structure ProxyAuth where
  username : String
  password : String
  deriving DecidableEq

structure LocalTunRouteConfig where
  enabled : Bool := false
  protectServerRoute : Bool := true
  dnsEnabled : Bool := false
  dnsServers : List IpAddr := [.v4 1 1 1 1, .v4 8 8 8 8]
  deriving DecidableEq

structure LocalTunConfig where
  enabled : Bool := false
  name : String := "esptun0"
  address : IpAddr := .v4 10 255 0 2
  prefixLen : Nat := 24
  destination : IpAddr := .v4 10 255 0 1
  mtu : Nat := 1500
  udpEnabled : Bool := true
  udpTimeoutSecs : Nat := 3
  udpBlockPorts : List Nat := [443]
  route : LocalTunRouteConfig := {}
  deriving DecidableEq

@[ext]
structure TunnelPoolConfig where
  minConnections : Nat := 1
  maxConnections : Nat := 4
  interactiveLanes : Nat := 1
  bulkLanes : Nat := 2
  maxReconnectAttempts : Nat := 3
  maxConnectionAgeSecs : Nat := 3600
  deriving DecidableEq

structure LocalConfig where
  server : Option String := none
  socks5Listen : Option SocketAddr := some ⟨.v4 127 0 0 1, 6680⟩
  httpListen : Option SocketAddr := some ⟨.v4 127 0 0 1, 6681⟩
  handshakePadding : Nat := 256
  httpBulkThresholdBytes : Nat := 1024 * 1024
  auth : Option ProxyAuth := none
  tun : LocalTunConfig := {}
  tunnelPool : TunnelPoolConfig := {}
  deriving DecidableEq

structure AdminConfig where
  listen : Option SocketAddr := none
  token : Option String := none
  deriving DecidableEq

/-! ## What both ends share -/

@[ext]
structure TcpConfig where
  nodelay : Bool := true
  keepaliveSecs : Nat := 30
  userTimeoutMs : Nat := 0
  sendBufferBytes : Nat := 0
  recvBufferBytes : Nat := 0
  congestionControl : Option String := none
  heartbeatSecs : Nat := 30
  deriving DecidableEq

structure MuxConfig where
  mode : MuxMode := .yamux
  nativeInitialWindowBytes : Nat := 8 * 1024 * 1024
  nativeStreamBufferFrames : Nat := 128
  nativeSendQueueFrames : Nat := 64
  nativeIdleTimeoutSecs : Nat := 300
  nativeDrainTimeoutSecs : Nat := 30
  deriving DecidableEq

@[ext]
structure PacingConfig where
  enabled : Bool := true
  maxBytesPerSec : Nat := 0
  burstBytes : Nat := 64 * 1024
  minWriteBytes : Nat := 1024
  deriving DecidableEq

@[ext]
structure ObfuscationConfig where
  profile : ObfuscationProfile := .balanced
  chunkPolicy : ChunkPolicy := .balanced
  randomizeChunks : Bool := true
  minChunk : Nat := 4 * 1024
  maxChunk : Nat := 16 * 1024
  deriving DecidableEq

@[ext]
structure StealthConfig where
  frameSize : Nat := defaultStealthFrameSize
  frameSizeCandidates : List Nat := []
  tickMs : Nat := 50
  deriving DecidableEq

inductive StealthShaperMode where
  | web
  | stream
  | custom
  deriving DecidableEq

inductive StealthIdleNoise where
  | off
  | uniform
  | poisson
  deriving DecidableEq

@[ext]
structure StealthShaperConfig where
  enabled : Bool := false
  mode : StealthShaperMode := .web
  idleNoise : StealthIdleNoise := .poisson
  paddingBudgetBps : Nat := 0
  minDelayMs : Nat := 20
  maxDelayMs : Nat := 80
  idleMaxDelayMs : Nat := 1000
  deriving DecidableEq

inductive UnderlayMode where
  | tcp
  | webSocket
  | http2
  deriving DecidableEq

structure WebSocketUnderlayConfig where
  path : String := "/espejismo"
  maxFrameBytes : Nat := 1024 * 1024
  host : Option String := none
  deriving DecidableEq

structure Http2UnderlayConfig where
  path : String := "/espejismo"
  authority : Option String := none
  initialStreamWindowBytes : Nat := 8 * 1024 * 1024
  initialConnectionWindowBytes : Nat := 16 * 1024 * 1024
  maxFrameBytes : Nat := 64 * 1024
  deriving DecidableEq

structure UnderlayConfig where
  mode : UnderlayMode := .tcp
  websocket : WebSocketUnderlayConfig := {}
  http2 : Http2UnderlayConfig := {}
  deriving DecidableEq

structure PortHoppingConfig where
  enabled : Bool := false
  ports : List Nat := []
  windowSecs : Nat := 300
  seed : String := "espejismo-port-hop"
  deriving DecidableEq

structure SharedConfig where
  psk : Option String := none
  clockSkewSecs : Int64 := 30
  puzzleBits : Nat := 12
  handshakeWindow : HandshakeWindow := .default
  maxPadding : Nat := 64
  jitterMs : Nat := 0
  paddingChancePercent : Nat := 35
  backpressureThresholdMs : Nat := 40
  backpressureCooldownMs : Nat := 1000
  tunnelBuffer : Nat := 1024 * 1024
  idleTimeoutSecs : Nat := 300
  maxStreams : Nat := 256
  maxPhysicalConnections : Nat := 1024
  keyUpdateFrames : Nat := 16384
  tcp : TcpConfig := {}
  mux : MuxConfig := {}
  pacing : PacingConfig := {}
  obfuscation : ObfuscationConfig := {}
  stealth : StealthConfig := {}
  stealthShaper : StealthShaperConfig := {}
  underlay : UnderlayConfig := {}
  portHopping : PortHoppingConfig := {}
  deriving DecidableEq

/-! ## The configuration of a remote -/

structure RemoteUserQuotaConfig where
  bytes : Option Nat := none
  windowSecs : Nat := 24 * 60 * 60
  deriving DecidableEq

structure RemoteUserConfig where
  name : String
  psk : String
  quota : RemoteUserQuotaConfig := {}
  bytesPerSec : Option Nat := none
  deriving DecidableEq

inductive ProbeDefenseMode where
  | silent
  | httpFallback
  deriving DecidableEq

/-- `RemoteFallbackHttpConfig` without its `upstream`. -/
structure RemoteFallbackHttpConfig where
  mode : ProbeDefenseMode := .silent
  enabled : Bool := false
  probeTimeoutMs : Nat := 250
  server : String := "nginx"
  body : String := "<html><head><title>It works</title></head><body><h1>It works</h1></body></html>"
  deriving DecidableEq

structure RemoteConfig where
  listen : SocketAddr := ⟨.v4 0 0 0 0, 6690⟩
  handshakeTimeoutMs : Nat := 3000
  rejectDelayMs : Nat := 0
  maxHandshakePadding : Nat := 1024
  replayWindowSecs : Int64 := 60
  coldStartDelayMs : Nat := 35
  tarpitMax : Nat := 1024
  tarpitHoldSecs : Nat := 300
  fallbackHttp : RemoteFallbackHttpConfig := {}
  fallbackUpstream : Option String := none
  egress : EgressPolicy := {}
  users : List RemoteUserConfig := []
  deriving DecidableEq

/-! ## Logs -/

inductive LogFormat where
  | compact
  | pretty
  | json
  deriving DecidableEq

structure LogConfig where
  level : String := "info"
  format : LogFormat := .compact
  file : Option String := none
  ansi : Bool := true
  deriving DecidableEq

/-- `EspejismoConfig`; the empty one is its `default()`. -/
structure EspejismoConfig where
  shared : SharedConfig := {}
  localConfig : LocalConfig := {}
  remote : RemoteConfig := {}
  logging : LogConfig := {}
  admin : AdminConfig := {}
  deriving DecidableEq

/-! ## Checks -/

/-- One `ensure!`: what has to hold and the text of the error otherwise. -/
structure Check where
  holds : Bool
  text : String

namespace Check

def positive (field : String) (n : Nat) : Check :=
    ⟨decide (0 < n), field ++ " must be greater than 0"⟩

def notBlank (text : String) (value : String) : Check := ⟨!(trim value.toList).isEmpty, text⟩

def guarded (condition : Bool) (checks : List Check) : List Check :=
  if condition then checks else []

/-- The checks of a loop over `values` that also collects them in a set and
refuses one it has seen. -/
def eachOnce [BEq α] (checks : α → List Check) (text : α → String) (seen : List α) :
    List α → List Check
  | [] => []
  | a :: values =>
    checks a ++ ⟨!seen.contains a, text a⟩ :: eachOnce checks text (a :: seen) values

def runAll : List Check → Except Error Unit
  | [] => .ok ()
  | check :: checks => do
    ensure check.holds check.text
    runAll checks

theorem runAll_eq_ok : runAll checks = .ok () ↔ ∀ check ∈ checks, check.holds := by
  induction checks with
  | nil => simp [runAll]
  | cons check checks ih =>
    cases h : check.holds with
    | false => simp [runAll, ensure, h, bind, Except.bind]
    | true => simpa [runAll, ensure, h, bind, Except.bind] using ih

@[simp] theorem mem_guarded : check ∈ guarded condition checks ↔ condition ∧ check ∈ checks := by
  unfold guarded
  split <;> simp_all

theorem of_eachOnce [BEq α] [LawfulBEq α] {text : α → String}
    (h : ∀ check ∈ eachOnce checks text seen values, check.holds) :
    values.Nodup ∧ ∀ a ∈ values, a ∉ seen ∧ ∀ check ∈ checks a, check.holds := by
  induction values generalizing seen with
  | nil => simp
  | cons a values ih =>
    simp only [eachOnce, List.mem_append, List.mem_cons] at h
    have hne : a ∉ seen := by simpa using h _ (.inr (.inl rfl))
    obtain ⟨hno, hrs⟩ := ih fun check hm => h check (.inr (.inr hm))
    have hfr : ∀ b ∈ values, b ≠ a ∧ b ∉ seen := by simpa using fun b hb => (hrs b hb).1
    refine ⟨List.nodup_cons.mpr ⟨fun hm => (hfr a hm).1 rfl, hno⟩, ?_⟩
    rintro b (_ | ⟨_, hb⟩)
    · exact ⟨hne, fun check hm => h check (.inl hm)⟩
    · exact ⟨(hfr b hb).2, (hrs b hb).2⟩

end Check

open Check

def ProxyAuth.checks (auth : ProxyAuth) : List Check :=
  [⟨!auth.username.isEmpty, "local.auth.username must not be empty"⟩,
    ⟨auth.username.utf8ByteSize ≤ 255, "local.auth.username must be at most 255 bytes"⟩,
    ⟨!auth.password.isEmpty, "local.auth.password must not be empty"⟩,
    ⟨auth.password.utf8ByteSize ≤ 255, "local.auth.password must be at most 255 bytes"⟩]

def LocalTunConfig.checks (tun : LocalTunConfig) : List Check :=
  [⟨tun.prefixLen ≤ 32, "local.tun.prefix must be in 0..=32; for example, prefix = 24"⟩,
    ⟨576 ≤ tun.mtu, "local.tun.mtu must be >= 576; for example, mtu = 1500"⟩,
    positive "local.tun.udp_timeout_secs" tun.udpTimeoutSecs] ++
  guarded tun.route.dnsEnabled
    [⟨!tun.route.dnsServers.isEmpty,
      "local.tun.route.dns_servers must not be empty when dns_enabled is true"⟩]

def AdminConfig.checks (admin : AdminConfig) : List Check :=
  (admin.token.toList.map fun token => ⟨!token.isEmpty, "admin.token must not be empty"⟩) ++
  admin.listen.toList.map fun listen =>
    ⟨listen.ip.isLoopback || admin.token.isSome,
      "admin.token is required when admin.listen is not loopback"⟩

def HandshakeWindow.checks (window : HandshakeWindow) : List Check :=
  guarded window.enabled
    [positive "shared.handshake_window.step_secs" window.stepSecs,
      ⟨window.previousWindows ≤ 4, "shared.handshake_window.previous_windows must be in 0..=4; for example, previous_windows = 1"⟩,
      ⟨window.futureWindows ≤ 2, "shared.handshake_window.future_windows must be in 0..=2; for example, future_windows = 0"⟩,
      ⟨window.previousWindows + window.futureWindows ≤ 4,
        "shared.handshake_window previous_windows + future_windows must be <= 4"⟩]

def EspejismoConfig.limitChecks (config : EspejismoConfig) : List Check :=
  ⟨0 < config.shared.clockSkewSecs, "shared.clock_skew_secs must be greater than 0"⟩ ::
  config.shared.handshakeWindow.checks ++
  [⟨0 < config.remote.replayWindowSecs, "remote.replay_window_secs must be greater than 0"⟩,
    positive "remote.handshake_timeout_ms" config.remote.handshakeTimeoutMs,
    positive "shared.idle_timeout_secs" config.shared.idleTimeoutSecs,
    positive "shared.max_streams" config.shared.maxStreams,
    ⟨config.shared.maxStreams ≤ 65535,
      "shared.max_streams must be in 1..=65535; for example, max_streams = 256"⟩,
    positive "shared.max_physical_connections" config.shared.maxPhysicalConnections,
    ⟨config.shared.maxPhysicalConnections ≤ 65535,
      "shared.max_physical_connections must be in 1..=65535; for example, max_physical_connections = 8"⟩,
    positive "shared.key_update_frames" config.shared.keyUpdateFrames]

def RemoteUserConfig.checks (user : RemoteUserConfig) : List Check :=
  [notBlank "remote.users.name must not be empty" user.name,
    notBlank "remote.users.psk must not be empty" user.psk] ++
  guarded user.quota.bytes.isSome
    [positive "remote.users.quota.window_secs" user.quota.windowSecs] ++
  user.bytesPerSec.toList.map (positive "remote.users.bandwidth.bytes_per_sec")

def RemoteConfig.userChecks (remote : RemoteConfig) : List Check :=
  remote.users.flatMap RemoteUserConfig.checks ++
  eachOnce (fun _ => []) (fun name => s!"remote.users contains duplicate user name '{name}'") []
    (remote.users.map (·.name))

def ObfuscationConfig.checks (obfuscation : ObfuscationConfig) : List Check :=
  [positive "shared.obfuscation.min_chunk" obfuscation.minChunk,
    ⟨obfuscation.minChunk ≤ obfuscation.maxChunk,
      "shared.obfuscation.min_chunk must be in 1..=max_chunk; for example, min_chunk = 1024 and max_chunk = 16384"⟩]

def TunnelPoolConfig.checks (pool : TunnelPoolConfig) : List Check :=
  [positive "local.tunnel_pool.max_connections" pool.maxConnections,
    ⟨pool.minConnections ≤ pool.maxConnections,
      "local.tunnel_pool.min_connections must be <= max_connections"⟩,
    -- `checked_add` on 64-bit targets
    ⟨pool.interactiveLanes + pool.bulkLanes < 2 ^ 64,
      "local.tunnel_pool lane count overflows usize"⟩,
    ⟨0 < pool.interactiveLanes + pool.bulkLanes,
      "local.tunnel_pool must configure at least one lane"⟩,
    ⟨pool.interactiveLanes + pool.bulkLanes ≤ pool.maxConnections,
      "local.tunnel_pool interactive_lanes + bulk_lanes must be <= max_connections"⟩,
    positive "local.tunnel_pool.max_reconnect_attempts" pool.maxReconnectAttempts,
    positive "local.tunnel_pool.max_connection_age_secs" pool.maxConnectionAgeSecs]

def MuxConfig.checks (mux : MuxConfig) : List Check :=
  [positive "shared.mux.native_initial_window_bytes" mux.nativeInitialWindowBytes,
    positive "shared.mux.native_stream_buffer_frames" mux.nativeStreamBufferFrames,
    positive "shared.mux.native_send_queue_frames" mux.nativeSendQueueFrames,
    positive "shared.mux.native_idle_timeout_secs" mux.nativeIdleTimeoutSecs,
    positive "shared.mux.native_drain_timeout_secs" mux.nativeDrainTimeoutSecs]

def TcpConfig.checks (tcp : TcpConfig) : List Check :=
  tcp.congestionControl.toList.flatMap fun algorithm =>
    [notBlank "shared.tcp.congestion_control must not be empty when provided" algorithm,
      ⟨algorithm.toList.all fun c => c.isAlphanum || c == '_' || c == '-',
        "shared.tcp.congestion_control may contain only letters, numbers, '_' or '-'"⟩]

def PacingConfig.checks (pacing : PacingConfig) : List Check :=
  guarded pacing.enabled
    [⟨0 < pacing.burstBytes,
        "shared.pacing.burst_bytes must be greater than 0 when pacing is enabled"⟩,
      ⟨0 < pacing.minWriteBytes,
        "shared.pacing.min_write_bytes must be greater than 0 when pacing is enabled"⟩]

/-- `validate_stealth_frame_size`.  The texts give 141 as the least size; the
least one that passes is 157. -/
def stealthFrameSizeChecks (field : String) (frameSize : Nat) : List Check :=
  [⟨frameSize ≤ 64 * 1024,
      field ++ " must be in 141..=65536 bytes; for example, frame_size = 4096"⟩,
    ⟨24 + 32 + 84 + 16 + 1 ≤ frameSize,
      field ++ " must be in 141..=65536 bytes to fit the handshake, AEAD tag, and payload; for example, frame_size = 4096"⟩]

def StealthShaperConfig.checks (shaper : StealthShaperConfig) : List Check :=
  guarded shaper.enabled
    [⟨0 < shaper.minDelayMs, "shared.stealth_shaper.min_delay_ms must be greater than 0 when stealth shaper is enabled"⟩,
      ⟨shaper.minDelayMs ≤ shaper.maxDelayMs,
        "shared.stealth_shaper.max_delay_ms must be >= min_delay_ms"⟩,
      ⟨shaper.maxDelayMs ≤ shaper.idleMaxDelayMs,
        "shared.stealth_shaper.idle_max_delay_ms must be >= max_delay_ms"⟩]

/-- The stealth profile's own settings, and the candidate sizes under every
profile. -/
def SharedConfig.stealthChecks (shared : SharedConfig) : List Check :=
  guarded (shared.obfuscation.profile = .stealth)
    (stealthFrameSizeChecks "shared.stealth.frame_size" shared.stealth.frameSize ++
      positive "shared.stealth.tick_ms" shared.stealth.tickMs :: shared.stealthShaper.checks) ++
  eachOnce (stealthFrameSizeChecks "shared.stealth.frame_size_candidates[]")
    (fun _ => "shared.stealth.frame_size_candidates must not contain duplicates") []
    shared.stealth.frameSizeCandidates

def RemoteConfig.outboundChecks (remote : RemoteConfig) : List Check :=
  (remote.fallbackUpstream.toList.map
    (notBlank "remote.fallback_http.upstream must not be empty when provided")) ++
  [⟨!(remote.egress.proxy.isSome && remote.egress.socks5Proxy.isSome),
    "use remote.egress.proxy or remote.egress.socks5_proxy, not both"⟩]

def WebSocketUnderlayConfig.checks (websocket : WebSocketUnderlayConfig) : List Check :=
  [⟨websocket.path.toList.head? == some '/', "shared.underlay.websocket.path must start with '/'"⟩,
    ⟨1024 ≤ websocket.maxFrameBytes, "shared.underlay.websocket.max_frame_bytes must be >= 1024"⟩]

def http2MaxWindowBytes : Nat := 2 ^ 31 - 1

def Http2UnderlayConfig.checks (http2 : Http2UnderlayConfig) : List Check :=
  [⟨http2.path.toList.head? == some '/', "shared.underlay.http2.path must start with '/'"⟩,
    ⟨65535 ≤ http2.initialStreamWindowBytes,
      "shared.underlay.http2.initial_stream_window_bytes must be >= 65535"⟩,
    ⟨http2.initialStreamWindowBytes ≤ http2MaxWindowBytes,
      "shared.underlay.http2.initial_stream_window_bytes must be <= 2147483647"⟩,
    ⟨http2.initialConnectionWindowBytes ≤ http2MaxWindowBytes,
      "shared.underlay.http2.initial_connection_window_bytes must be <= 2147483647"⟩,
    ⟨http2.initialStreamWindowBytes ≤ http2.initialConnectionWindowBytes,
      "shared.underlay.http2.initial_connection_window_bytes must be >= initial_stream_window_bytes"⟩,
    ⟨16384 ≤ http2.maxFrameBytes && http2.maxFrameBytes ≤ 16777215,
      "shared.underlay.http2.max_frame_bytes must be in 16384..=16777215; for example, max_frame_bytes = 16384"⟩]

def UnderlayConfig.checks (underlay : UnderlayConfig) : List Check :=
  guarded (underlay.mode = .webSocket) underlay.websocket.checks ++
  guarded (underlay.mode = .http2) underlay.http2.checks

def PortHoppingConfig.checks (hopping : PortHoppingConfig) : List Check :=
  guarded hopping.enabled
    (⟨!hopping.ports.isEmpty,
        "shared.port_hopping.ports must not be empty when port hopping is enabled"⟩ ::
      positive "shared.port_hopping.window_secs" hopping.windowSecs ::
      notBlank "shared.port_hopping.seed must not be empty" hopping.seed ::
      eachOnce (fun port => [⟨decide (0 < port), "shared.port_hopping.ports must not contain 0"⟩])
        (fun _ => "shared.port_hopping.ports must not contain duplicates") [] hopping.ports)

/-- Every `ensure!` of `parse_config`, in order. -/
def EspejismoConfig.checks (config : EspejismoConfig) : List Check :=
  config.localConfig.auth.toList.flatMap ProxyAuth.checks ++ config.localConfig.tun.checks ++
  config.admin.checks ++ config.limitChecks ++ config.remote.userChecks ++
  config.shared.obfuscation.checks ++ config.localConfig.tunnelPool.checks ++
  config.shared.mux.checks ++ config.shared.tcp.checks ++ config.shared.pacing.checks ++
  config.shared.stealthChecks ++ config.remote.outboundChecks ++ config.shared.underlay.checks ++
  config.shared.portHopping.checks

def parseConfig (config : EspejismoConfig) : Except Error EspejismoConfig := do
  runAll config.checks
  let _ ← config.remote.egress.upstreamProxy
  return config

variable {config config' : EspejismoConfig}

/-- A configuration is accepted, unchanged, exactly when every check holds and
the proxy it names can be read. -/
theorem parseConfig_eq_ok_iff :
    parseConfig config = .ok config' ↔
      config' = config ∧ (∀ check ∈ config.checks, check.holds) ∧
        ∃ proxy, config.remote.egress.upstreamProxy = .ok proxy := by
  unfold parseConfig
  rw [← runAll_eq_ok]
  cases runAll config.checks <;> cases config.remote.egress.upstreamProxy <;>
    simp [bind, Except.bind, pure, Except.pure, eq_comm]

theorem parseConfig_default : parseConfig {} = .ok {} :=
  parseConfig_eq_ok_iff.mpr ⟨rfl, by decide, none, rfl⟩

theorem holds_of_parseConfig (h : parseConfig config = .ok config') (check : Check)
    (hm : check ∈ config.checks) : check.holds = true :=
  (parseConfig_eq_ok_iff.mp h).2.1 check hm

theorem parseConfig_replayWindowSecs (h : parseConfig config = .ok config') :
    0 < config'.remote.replayWindowSecs := by
  obtain ⟨rfl, -⟩ := parseConfig_eq_ok_iff.mp h
  have hre := holds_of_parseConfig h ⟨0 < config'.remote.replayWindowSecs,
    "remote.replay_window_secs must be greater than 0"⟩
    (by simp [EspejismoConfig.checks, EspejismoConfig.limitChecks])
  exact of_decide_eq_true hre

end Espejismo
