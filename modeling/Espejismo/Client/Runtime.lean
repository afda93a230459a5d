import Espejismo.Config.Options
import Espejismo.Config.Toml
import Espejismo.Crypto.Psk

/-!
# Client.Runtime

The runtime of a local (`main.rs` of the client): how it is built at startup from
a source, an imported profile, a named profile and the command line, and how a
reload builds it again.
-/

namespace Espejismo

open Net

/-! ## Options -/

structure PoolOverrides where
  minConnections : Option Nat := none
  maxConnections : Option Nat := none
  interactiveLanes : Option Nat := none
  bulkLanes : Option Nat := none
  deriving DecidableEq

structure TunOverrides where
  enabled : Bool := false
  name : Option String := none
  address : Option IpAddr := none
  destination : Option IpAddr := none
  prefixLen : Option Nat := none
  mtu : Option Nat := none
  autoRoute : Bool := false
  autoDns : Bool := false
  dns : List IpAddr := []
  disableUdp : Bool := false
  udpTimeoutSecs : Option Nat := none
  udpBlockPorts : List Nat := []
  deriving DecidableEq

structure LocalArgs where
  profile : Option String := none
  importProfile : Option String := none
  server : Option String := none
  psk : Option String := none
  socks5Listen : Option SocketAddr := none
  httpListen : Option SocketAddr := none
  clockSkewSecs : Option Int64 := none
  frames : FrameOptionOverrides := {}
  handshakePadding : Option Nat := none
  puzzleBits : Option Nat := none
  tunnelBuffer : Option Nat := none
  pool : PoolOverrides := {}
  tun : TunOverrides := {}
  log : LogOverrides := {}
  adminListen : Option SocketAddr := none
  adminToken : Option String := none

def PoolOverrides.override (overrides : PoolOverrides) (pool : TunnelPoolConfig) :
    TunnelPoolConfig :=
  { pool with
    minConnections := overrides.minConnections.getD pool.minConnections
    maxConnections := overrides.maxConnections.getD pool.maxConnections
    interactiveLanes := overrides.interactiveLanes.getD pool.interactiveLanes
    bulkLanes := overrides.bulkLanes.getD pool.bulkLanes }

/-- `apply_tun_cli_overrides`.  A switch can only turn on what it names. -/
def TunOverrides.override (overrides : TunOverrides) (tun : LocalTunConfig) : LocalTunConfig :=
  { enabled := overrides.enabled || tun.enabled
    name := overrides.name.getD tun.name
    address := overrides.address.getD tun.address
    destination := overrides.destination.getD tun.destination
    prefixLen := overrides.prefixLen.getD tun.prefixLen
    mtu := overrides.mtu.getD tun.mtu
    udpEnabled := !overrides.disableUdp && tun.udpEnabled
    udpTimeoutSecs := overrides.udpTimeoutSecs.getD tun.udpTimeoutSecs
    udpBlockPorts :=
      if overrides.udpBlockPorts.isEmpty then tun.udpBlockPorts else overrides.udpBlockPorts
    route :=
      { tun.route with
        enabled := overrides.autoRoute || tun.route.enabled
        dnsEnabled := overrides.autoDns || tun.route.dnsEnabled
        dnsServers := if overrides.dns.isEmpty then tun.route.dnsServers else overrides.dns } }

def LocalArgs.overrideConfig (args : LocalArgs) (config : EspejismoConfig) : EspejismoConfig :=
  { config with
    shared :=
      { args.frames.overrideShared config.shared with
        psk := args.psk.or config.shared.psk
        clockSkewSecs := args.clockSkewSecs.getD config.shared.clockSkewSecs
        puzzleBits := args.puzzleBits.getD config.shared.puzzleBits
        tunnelBuffer := args.tunnelBuffer.getD config.shared.tunnelBuffer }
    localConfig :=
      { config.localConfig with
        server := args.server.or config.localConfig.server
        socks5Listen := args.socks5Listen.or config.localConfig.socks5Listen
        httpListen := args.httpListen.or config.localConfig.httpListen
        handshakePadding := args.handshakePadding.getD config.localConfig.handshakePadding
        tunnelPool := args.pool.override config.localConfig.tunnelPool
        tun := args.tun.override config.localConfig.tun }
    admin :=
      { listen := args.adminListen.or config.admin.listen
        token := args.adminToken.or config.admin.token } }

/-- `apply_cli_overrides_to_config`. -/
def applyLocalOptions (config : EspejismoConfig) (args : LocalArgs) :
    Except Error EspejismoConfig := do
  let logging ← applyLogOverrides config.logging args.log
  parseConfig (configToToml { args.overrideConfig config with logging }).read

/-! ## The runtime -/

structure LocalRuntime (P : Platform) where
  server : String
  socks5Listen : Option SocketAddr
  httpListen : Option SocketAddr
  handshake : HandshakeConfig P
  frames : FrameOptions
  timing : TimingOptions
  tcp : TcpConfig
  underlay : UnderlayConfig
  portHopping : PortHoppingConfig
  mux : MuxRuntimeConfig
  tunnelBuffer : Nat
  tunnelPool : TunnelPoolConfig
  httpBulkThresholdBytes : Nat
  auth : Option ProxyAuth
  tun : LocalTunConfig
  adminListen : Option SocketAddr
  adminToken : Option String
  idleTimeoutSecs : Nat

def LocalRuntime.withDefaultListeners {P : Platform} (runtime : LocalRuntime P) : LocalRuntime P :=
  { runtime with
    socks5Listen := readKey ({} : LocalConfig).socks5Listen runtime.socks5Listen
    httpListen := readKey ({} : LocalConfig).httpListen runtime.httpListen }

def orContext (text : String) : Option α → Except Error α
  | some a => .ok a
  | none => .error (.msg text)

section

variable (P : Platform)

def localHandshake (config : EspejismoConfig) (args : LocalArgs) (psk : List UInt8) :
    HandshakeConfig P :=
  { HandshakeConfig.new P psk (args.clockSkewSecs.getD config.shared.clockSkewSecs)
      (args.handshakePadding.getD config.localConfig.handshakePadding)
      (args.puzzleBits.getD config.shared.puzzleBits) with
    stealthFrameSize :=
      if config.shared.obfuscation.profile = .stealth then some config.shared.stealth.frameSize
      else none
    window := config.shared.handshakeWindow
    muxMode := config.shared.mux.mode }

def localRuntime (config : EspejismoConfig) (args : LocalArgs) (server : String)
    (psk : List UInt8) : LocalRuntime P :=
  { server
    socks5Listen := args.socks5Listen.or config.localConfig.socks5Listen
    httpListen := args.httpListen.or config.localConfig.httpListen
    handshake := localHandshake P config args psk
    frames := config.shared.frameOptions args.frames
    timing := config.shared.timingOptions args.frames
    tcp := config.shared.tcp
    underlay := config.shared.underlay
    portHopping := config.shared.portHopping
    mux := .fromConfig config.shared.maxStreams config.shared.mux
    tunnelBuffer := args.tunnelBuffer.getD config.shared.tunnelBuffer
    tunnelPool := args.pool.override config.localConfig.tunnelPool
    httpBulkThresholdBytes := config.localConfig.httpBulkThresholdBytes
    auth := config.localConfig.auth
    tun := args.tun.override config.localConfig.tun
    adminListen := args.adminListen.or config.admin.listen
    adminToken := args.adminToken.or config.admin.token
    idleTimeoutSecs := config.shared.idleTimeoutSecs }

/-- `build_runtime`. -/
def buildLocalRuntime [Codecs] (config : EspejismoConfig) (args : LocalArgs) :
    Except Error (LocalRuntime P) := do
  let psk ← orContext "provide psk in config, --psk, or ESPEJISMO_PSK"
    (args.psk.or config.shared.psk)
  let server ← orContext "provide local.server in config or --server"
    (args.server.or config.localConfig.server)
  let psk ← parsePsk psk
  return localRuntime P config args server psk

/-! ## Startup and reload -/

def importProfile (sources : ConfigSources) (config : EspejismoConfig) :
    Option String → Except Error EspejismoConfig
  | some url => do return (← sources.profile url).applyToConfig config
  | none => .ok config

/-- The configuration that `main` builds the runtime from. -/
def localStartupConfig (sources : ConfigSources) (input : ConfigInput) (args : LocalArgs) :
    Except Error EspejismoConfig := do
  let config ← loadConfig sources input
  let config ← importProfile sources config args.importProfile
  let config ← applyProfileOption config args.profile
  let config ← applyLocalOptions config args
  let logging ← applyLogOverrides config.logging args.log
  return { config with logging }

def LocalRuntime.validateAdminListener (runtime : LocalRuntime P) : Except Error Unit :=
  ensure
    (runtime.adminListen.all fun addr =>
      some addr != runtime.socks5Listen && some addr != runtime.httpListen)
    "admin.listen must not reuse a proxy listener address"

/-- `main` up to its listeners. -/
def startLocal [Codecs] (sources : ConfigSources) (input : ConfigInput) (args : LocalArgs) :
    Except Error (LocalRuntime P) := do
  let config ← localStartupConfig sources input args
  let runtime ← buildLocalRuntime P config args
  runtime.validateAdminListener
  ensure (runtime.socks5Listen.isSome || runtime.httpListen.isSome || runtime.tun.enabled)
    "enable at least one local ingress: socks5_listen, http_listen, or local.tun.enabled"
  return runtime

/-- The configuration a request asks for.  That of a body is taken as it was
read; an error of the source is reported as a missing one. -/
def localRequestedConfig (sources : ConfigSources) (input : ConfigInput) :
    (body : Option EspejismoConfig) → Except Error EspejismoConfig
  | some body => .ok body
  | none =>
    reportAs "reload requires --config or --config-base64; use /apply"
      (loadConfig sources input)

/-- `local_reload_action`: the runtime a request builds. -/
def reloadLocal [Codecs] (sources : ConfigSources) (input : ConfigInput) (args : LocalArgs)
    (body : Option EspejismoConfig) : Except Error (LocalRuntime P) := do
  let config ← localRequestedConfig sources input body
  let config ← importProfile sources config args.importProfile
  let logging ← applyLogOverrides config.logging args.log
  buildLocalRuntime P { config with logging } args

end

/-! ## What the options change -/

def LocalArgs.NamesListeners (args : LocalArgs) (config : EspejismoConfig) : Prop :=
  (args.socks5Listen.or config.localConfig.socks5Listen).isSome ∧
    (args.httpListen.or config.localConfig.httpListen).isSome

theorem applyLocalOptions_eq_ok (h : applyLocalOptions config args = .ok accepted) :
    ∃ logging, applyLogOverrides config.logging args.log = .ok logging ∧
      parseConfig accepted = .ok accepted ∧
      accepted = { args.overrideConfig config with logging }.withDefaultListeners := by
  obtain ⟨logging, hl, hp⟩ := bind_eq_ok.mp h
  rw [read_configToToml] at hp
  obtain ⟨rfl, -⟩ := parseConfig_eq_ok_iff.mp hp
  exact ⟨logging, hl, hp, rfl⟩

/-- **The options change what they name and nothing else** exactly when both
listeners are named: one that is not comes back from TOML with its default. -/
theorem options_change_named_iff {config accepted : EspejismoConfig} {args : LocalArgs}
    (h : applyLocalOptions config args = .ok accepted) :
    (∃ logging, applyLogOverrides config.logging args.log = .ok logging ∧
        accepted = { args.overrideConfig config with logging }) ↔
      args.NamesListeners config := by
  obtain ⟨logging, hl, -, rfl⟩ := applyLocalOptions_eq_ok h
  constructor
  · rintro ⟨logging', hl', hs⟩
    obtain rfl := Except.ok.inj (hl.symm.trans hl')
    exact withDefaultListeners_eq_self_iff.mp hs
  · intro hn
    exact ⟨logging, hl, withDefaultListeners_eq_self_iff.mpr hn⟩

def socks5Profile : ClientProfile :=
  { name := "laptop"
    server := "203.0.113.7:6690"
    psk := "0123456789abcdef"
    socks5Listen := some ⟨.v4 127 0 0 1, 6680⟩ }

def socks5Sources : ConfigSources :=
  { file := fun _ => .error (.msg "read config")
    decoded := fun _ => .error (.msg "decode base64 config")
    profile := fun _ => .ok socks5Profile }

theorem options_change_named_http :
    ∃ accepted logging,
      applyLocalOptions (socks5Profile.applyToConfig {})
          { httpListen := some ⟨.v4 127 0 0 1, 8080⟩ } = .ok accepted ∧
        applyLogOverrides {} {} = .ok logging ∧
        accepted = { LocalArgs.overrideConfig { httpListen := some ⟨.v4 127 0 0 1, 8080⟩ }
          (socks5Profile.applyToConfig {}) with logging } := by
  have hon : applyLocalOptions (socks5Profile.applyToConfig {})
    { httpListen := some ⟨.v4 127 0 0 1, 8080⟩ } = .ok _ := rfl
  obtain ⟨logging, hl, hs⟩ := (options_change_named_iff hon).mpr ⟨rfl, rfl⟩
  exact ⟨_, logging, hon, hl, hs⟩

/-- An imported profile without an HTTP listener is accepted, and with no option
at all it is given the default one. -/
theorem unnamed_listener_opened :
    loadConfig socks5Sources {} = .ok {} ∧
      importProfile socks5Sources {} (some "espejismo://import/e30") =
        .ok (socks5Profile.applyToConfig {}) ∧
      applyProfileOption (socks5Profile.applyToConfig {}) none =
        .ok (socks5Profile.applyToConfig {}) ∧
      parseConfig (socks5Profile.applyToConfig {}) = .ok (socks5Profile.applyToConfig {}) ∧
      (socks5Profile.applyToConfig {}).localConfig.httpListen = none ∧
      ∃ accepted,
        applyLocalOptions (socks5Profile.applyToConfig {})
            { importProfile := some "espejismo://import/e30" } = .ok accepted ∧
          accepted.localConfig.httpListen = some ⟨.v4 127 0 0 1, 6681⟩ := by
  exact ⟨rfl, rfl, rfl, parseConfig_eq_ok_iff.mpr ⟨rfl, by decide, none, rfl⟩, rfl, _, rfl, rfl⟩

/-! ## A reload of the same source -/

structure TunnelPoolConfig.Agrees (overrides : PoolOverrides) (pool other : TunnelPoolConfig) :
    Prop where
  minConnections : overrides.minConnections = none → other.minConnections = pool.minConnections
  maxConnections : overrides.maxConnections = none → other.maxConnections = pool.maxConnections
  interactiveLanes :
    overrides.interactiveLanes = none → other.interactiveLanes = pool.interactiveLanes
  bulkLanes : overrides.bulkLanes = none → other.bulkLanes = pool.bulkLanes

/-- The configurations agree on what a named profile may write and a local takes,
where no option hides it. -/
structure LocalArgs.Agrees (args : LocalArgs) (config other : EspejismoConfig) : Prop where
  shared : config.shared.Agrees args.frames other.shared
  nodelay : other.shared.tcp.nodelay = config.shared.tcp.nodelay
  sendBufferBytes : other.shared.tcp.sendBufferBytes = config.shared.tcp.sendBufferBytes
  recvBufferBytes : other.shared.tcp.recvBufferBytes = config.shared.tcp.recvBufferBytes
  tunnelBuffer : args.tunnelBuffer = none → other.shared.tunnelBuffer = config.shared.tunnelBuffer
  handshakePadding :
    args.handshakePadding = none →
      other.localConfig.handshakePadding = config.localConfig.handshakePadding
  httpBulkThresholdBytes :
    other.localConfig.httpBulkThresholdBytes = config.localConfig.httpBulkThresholdBytes
  tunnelPool : config.localConfig.tunnelPool.Agrees args.pool other.localConfig.tunnelPool

theorem LocalArgs.Agrees.refl (args : LocalArgs) (config : EspejismoConfig) :
    args.Agrees config config := by
  constructor <;> try simp
  · exact .refl _ _
  · constructor <;> simp

section Unchanged

variable {P : Platform} {sources : ConfigSources} {input : ConfigInput} {args : LocalArgs}
  {config other : EspejismoConfig} {runtime : LocalRuntime P}

theorem orContext_eq_ok : orContext text option = .ok a ↔ option = some a := by
  cases option <;> simp [orContext]

theorem buildLocalRuntime_eq_ok [Codecs] :
    buildLocalRuntime P config args = .ok runtime ↔
      ∃ text server psk, args.psk.or config.shared.psk = some text ∧
        args.server.or config.localConfig.server = some server ∧ parsePsk text = .ok psk ∧
          localRuntime P config args server psk = runtime := by
  unfold buildLocalRuntime
  simp only [bind_eq_ok, orContext_eq_ok, pure, Except.pure, Except.ok.injEq]
  constructor
  · rintro ⟨text, ht, server, hse, psk, hps, rfl⟩
    exact ⟨text, server, psk, ht, hse, hps, rfl⟩
  · rintro ⟨text, server, psk, ht, hse, hps, rfl⟩
    exact ⟨text, ht, server, hse, psk, hps, rfl⟩

theorem TunOverrides.override_override (overrides : TunOverrides) (tun : LocalTunConfig) :
    overrides.override (overrides.override tun) = overrides.override tun := by
  unfold TunOverrides.override
  cases overrides.udpBlockPorts <;> cases overrides.dns <;> simp

theorem buildLocalRuntime_overrideConfig [Codecs] (args : LocalArgs) (config : EspejismoConfig) :
    buildLocalRuntime P (args.overrideConfig config) {} = buildLocalRuntime P config args := by
  rfl

theorem LocalArgs.overrideConfig_withDefaultListeners (args : LocalArgs)
    (config : EspejismoConfig) :
    args.overrideConfig (args.overrideConfig config).withDefaultListeners =
      (args.overrideConfig config).withDefaultListeners := by
  simp [LocalArgs.overrideConfig, EspejismoConfig.withDefaultListeners, or_readKey,
    FrameOptionOverrides.overrideShared, PoolOverrides.override, TunOverrides.override_override,
    ← Option.or_assoc]

theorem buildLocalRuntime_withDefaultListeners [Codecs] :
    buildLocalRuntime P (args.overrideConfig config).withDefaultListeners args = .ok runtime ↔
      ∃ text server psk, args.psk.or config.shared.psk = some text ∧
        args.server.or config.localConfig.server = some server ∧ parsePsk text = .ok psk ∧
          (localRuntime P config args server psk).withDefaultListeners = runtime := by
  rw [← buildLocalRuntime_overrideConfig, LocalArgs.overrideConfig_withDefaultListeners]
  exact buildLocalRuntime_eq_ok

theorem LocalRuntime.withDefaultListeners_eq_self_iff :
    runtime.withDefaultListeners = runtime ↔
      runtime.socks5Listen.isSome ∧ runtime.httpListen.isSome := by
  rw [← readKey_eq_self_iff, ← readKey_eq_self_iff]
  constructor
  · intro h
    exact ⟨congrArg (·.socks5Listen) h, congrArg (·.httpListen) h⟩
  · rintro ⟨hso5, hht⟩
    simp only [LocalRuntime.withDefaultListeners]
    rw [hso5, hht]

theorem PoolOverrides.override_withProfiled_iff :
    overrides.override (config.withProfiled other).localConfig.tunnelPool =
        overrides.override config.localConfig.tunnelPool ↔
      config.localConfig.tunnelPool.Agrees overrides other.localConfig.tunnelPool := by
  simp only [PoolOverrides.override, EspejismoConfig.withProfiled, TunnelPoolConfig.mk.injEq,
    getD_eq_getD_iff, and_true]
  exact ⟨fun h => ⟨h.1, h.2.1, h.2.2.1, h.2.2.2⟩,
    fun h => ⟨h.minConnections, h.maxConnections, h.interactiveLanes, h.bulkLanes⟩⟩

variable {psk : List UInt8} {server : String}

theorem localHandshake_withProfiled_iff
    (hob : other.shared.obfuscation = config.shared.obfuscation)
    (hst : other.shared.stealth = config.shared.stealth) :
    localHandshake P (config.withProfiled other) args psk = localHandshake P config args psk ↔
      (args.handshakePadding = none →
        other.localConfig.handshakePadding = config.localConfig.handshakePadding) := by
  simp [localHandshake, EspejismoConfig.withProfiled, hob, hst, HandshakeConfig.new,
    getD_eq_getD_iff]

theorem localRuntime_withProfiled_iff
    (hco : 0 < config.shared.maxStreams ∧ 0 < config.shared.mux.nativeInitialWindowBytes)
    (hoh : 0 < other.shared.maxStreams ∧ 0 < other.shared.mux.nativeInitialWindowBytes) :
    localRuntime P (config.withProfiled other) args server psk =
        localRuntime P config args server psk ↔ args.Agrees config other := by
  have hsh := EspejismoConfig.agrees_withProfiled_iff args.frames hco.1 hco.2 hoh.1 hoh.2
  have htc : (config.withProfiled other).shared.tcp = config.shared.tcp ↔
      other.shared.tcp.nodelay = config.shared.tcp.nodelay ∧
        other.shared.tcp.sendBufferBytes = config.shared.tcp.sendBufferBytes ∧
          other.shared.tcp.recvBufferBytes = config.shared.tcp.recvBufferBytes := by
    simp [TcpConfig.ext_iff, EspejismoConfig.withProfiled]
  simp only [localRuntime, LocalRuntime.mk.injEq]
  constructor
  · rintro ⟨-, -, -, hha, hfr, hti, htc', -, -, hm, hbf, hpl, hht, -⟩
    have ha := hsh.mp ⟨hfr, hti, hm⟩
    obtain ⟨hno, hsn, hrc⟩ := htc.mp htc'
    exact
      { shared := ha
        nodelay := hno
        sendBufferBytes := hsn
        recvBufferBytes := hrc
        tunnelBuffer := getD_eq_getD_iff.mp hbf
        handshakePadding := (localHandshake_withProfiled_iff ha.obfuscation ha.stealth).mp hha
        httpBulkThresholdBytes := hht
        tunnelPool := PoolOverrides.override_withProfiled_iff.mp hpl }
  · intro h
    obtain ⟨hfr, hti, hm⟩ := hsh.mpr h.shared
    exact ⟨trivial, rfl, rfl,
      (localHandshake_withProfiled_iff h.shared.obfuscation h.shared.stealth).mpr
        h.handshakePadding,
      hfr, hti, htc.mpr ⟨h.nodelay, h.sendBufferBytes, h.recvBufferBytes⟩, rfl, rfl, hm,
      getD_eq_getD_iff.mpr h.tunnelBuffer, PoolOverrides.override_withProfiled_iff.mpr h.tunnelPool,
      h.httpBulkThresholdBytes, rfl, rfl, rfl, rfl, rfl⟩

theorem withDefaultListeners_localRuntime_iff
    (hco : 0 < config.shared.maxStreams ∧ 0 < config.shared.mux.nativeInitialWindowBytes)
    (hoh : 0 < other.shared.maxStreams ∧ 0 < other.shared.mux.nativeInitialWindowBytes) :
    (localRuntime P (config.withProfiled other) args server psk).withDefaultListeners =
        localRuntime P config args server psk ↔
      args.NamesListeners config ∧ args.Agrees config other := by
  have ha : localRuntime P (config.withProfiled other) args server psk =
      localRuntime P config args server psk ↔ _ := localRuntime_withProfiled_iff hco hoh
  -- a profile writes no listener
  have hke : args.NamesListeners config →
      (localRuntime P (config.withProfiled other) args server psk).withDefaultListeners =
        localRuntime P (config.withProfiled other) args server psk := by
    intro hn
    rw [LocalRuntime.withDefaultListeners_eq_self_iff]
    exact hn
  constructor
  · intro h
    have hn : args.NamesListeners config := ⟨readKey_eq_self_iff.mp (congrArg (·.socks5Listen) h),
        readKey_eq_self_iff.mp (congrArg (·.httpListen) h)⟩
    exact ⟨hn, ha.mp ((hke hn).symm.trans h)⟩
  · rintro ⟨hn, hs⟩
    exact (hke hn).trans (ha.mpr hs)

theorem localStartupConfig_eq_ok (h : localStartupConfig sources input args = .ok accepted) :
    ∃ config imported profiled logging, loadConfig sources input = .ok config ∧
      importProfile sources config args.importProfile = .ok imported ∧
      applyProfileOption imported args.profile = .ok profiled ∧
      applyLogOverrides profiled.logging args.log = .ok logging ∧
      parseConfig accepted = .ok accepted ∧
      ∃ logging, accepted = { (args.overrideConfig profiled).withDefaultListeners with
        logging } := by
  obtain ⟨config, hlo, h⟩ := bind_eq_ok.mp h
  obtain ⟨imported, hi, h⟩ := bind_eq_ok.mp h
  obtain ⟨profiled, hpr, h⟩ := bind_eq_ok.mp h
  obtain ⟨overridden, hon, h⟩ := bind_eq_ok.mp h
  obtain ⟨logging', -, rfl⟩ := map_eq_ok.mp h
  obtain ⟨logging, hl, hp, rfl⟩ := applyLocalOptions_eq_ok hon
  exact ⟨config, imported, profiled, logging, hlo, hi, hpr, hl,
    parseConfig_logging hp logging', logging', rfl⟩

theorem startLocal_eq_ok [Codecs] (h : startLocal P sources input args = .ok runtime) :
    ∃ accepted, localStartupConfig sources input args = .ok accepted ∧
      buildLocalRuntime P accepted args = .ok runtime := by
  obtain ⟨accepted, hac, h⟩ := bind_eq_ok.mp h
  obtain ⟨built, hb, h⟩ := bind_eq_ok.mp h
  obtain ⟨-, -, h⟩ := bind_eq_ok.mp h
  obtain ⟨-, -, hrt⟩ := bind_eq_ok.mp h
  cases hrt
  exact ⟨accepted, hac, hb⟩

theorem importProfile_shared (h : importProfile sources config url = .ok imported) :
    imported.shared.maxStreams = config.shared.maxStreams ∧
      imported.shared.mux = config.shared.mux := by
  cases url with
  | none =>
    cases h
    exact ⟨rfl, rfl⟩
  | some =>
    obtain ⟨profile, -, rfl⟩ := map_eq_ok.mp h
    exact ⟨rfl, rfl⟩

theorem reloadLocal_none_eq_ok_iff [Codecs] (hlo : loadConfig sources input = .ok config)
    (hi : importProfile sources config args.importProfile = .ok imported)
    (hsta : startLocal P sources input args = .ok runtime) :
    reloadLocal P sources input args none = .ok runtime ↔
      args.NamesListeners imported ∧
        ∀ profiled, applyProfileOption imported args.profile = .ok profiled →
          args.Agrees imported profiled := by
  obtain ⟨accepted, hac, hb⟩ := startLocal_eq_ok hsta
  obtain ⟨_, _, profiled, logging, hlo', hi', hpr, hl, hp, logging', rfl⟩ :=
    localStartupConfig_eq_ok hac
  obtain rfl := Except.ok.inj (hlo.symm.trans hlo')
  obtain rfl := Except.ok.inj (hi.symm.trans hi')
  have hpo := positive_of_parseConfig hp
  change 0 < profiled.shared.maxStreams ∧ 0 < profiled.shared.mux.nativeInitialWindowBytes at hpo
  have hpo' := positive_of_parseConfig (parseConfig_of_loadConfig hlo)
  obtain ⟨hsr, hm⟩ := importProfile_shared hi
  rw [← hsr, ← hm] at hpo'
  have hrd : reloadLocal P sources input args none = buildLocalRuntime P imported args := by
    obtain ⟨reloaded, hrl⟩ := exists_applyLogOverrides hl imported.logging
    have hre : localRequestedConfig sources input none = .ok config := by
      simp [localRequestedConfig, hlo, reportAs]
    simp only [reloadLocal, hre, hi, hrl, bind, Except.bind]
    rfl
  -- the start builds from the source and the profiles alone
  change buildLocalRuntime P (args.overrideConfig profiled).withDefaultListeners args = _ at hb
  have hpf := applyProfileOption_eq_withProfiled hpr
  rw [buildLocalRuntime_withDefaultListeners, hpf] at hb
  obtain ⟨text, server, psk, ht, hse, hps, rfl⟩ := hb
  have hag : buildLocalRuntime P imported args = .ok (localRuntime P imported args server psk) :=
    buildLocalRuntime_eq_ok.mpr ⟨text, server, psk, ht, hse, hps, rfl⟩
  rw [hrd, hag, Except.ok.injEq, eq_comm, withDefaultListeners_localRuntime_iff hpo' hpo]
  refine and_congr_right fun _ => ⟨?_, ?_⟩
  · intro ha _ hpr'
    obtain rfl := Except.ok.inj (hpr.symm.trans hpr')
    exact ha
  · intro ha
    exact ha profiled hpr

end Unchanged

end Espejismo
