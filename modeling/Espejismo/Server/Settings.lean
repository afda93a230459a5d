import Espejismo.Config.Options
import Espejismo.Server.Tunnels

/-!
# Server.Settings

The settings of a remote (`main.rs` of the server): how they are built at startup
from a source, a named profile and the command line, and how a reload builds them
again.  `RemoteSettings` holds what a handshake reads of them and
`ServiceSettings` the rest.
-/

namespace Espejismo

open Net

/-! ## Options -/

structure RemoteArgs extends Args where
  profile : Option String := none
  listen : Option SocketAddr := none
  frames : FrameOptionOverrides := {}
  rejectDelayMs : Option Nat := none
  coldStartDelayMs : Option Nat := none
  tunnelBuffer : Option Nat := none
  tarpitMax : Option Nat := none
  tarpitHoldSecs : Option Nat := none
  log : LogOverrides := {}

def RemoteArgs.overrideConfig (args : RemoteArgs) (config : EspejismoConfig) : EspejismoConfig :=
  { config with
    shared :=
      { args.frames.overrideShared config.shared with
        psk := args.psk.or config.shared.psk
        clockSkewSecs := args.clockSkewSecs.getD config.shared.clockSkewSecs
        puzzleBits := args.puzzleBits.getD config.shared.puzzleBits
        tunnelBuffer := args.tunnelBuffer.getD config.shared.tunnelBuffer }
    remote :=
      { config.remote with
        listen := args.listen.getD config.remote.listen
        handshakeTimeoutMs := args.handshakeTimeoutMs.getD config.remote.handshakeTimeoutMs
        rejectDelayMs := args.rejectDelayMs.getD config.remote.rejectDelayMs
        maxHandshakePadding := args.maxHandshakePadding.getD config.remote.maxHandshakePadding
        replayWindowSecs := args.replayWindowSecs.getD config.remote.replayWindowSecs
        coldStartDelayMs := args.coldStartDelayMs.getD config.remote.coldStartDelayMs
        tarpitMax := args.tarpitMax.getD config.remote.tarpitMax
        tarpitHoldSecs := args.tarpitHoldSecs.getD config.remote.tarpitHoldSecs }
    admin :=
      { listen := args.adminListen.or config.admin.listen
        token := args.adminToken.or config.admin.token } }

def applyRemoteOptions (config : EspejismoConfig) (args : RemoteArgs) :
    Except Error EspejismoConfig := do
  let logging ← applyLogOverrides config.logging args.log
  parseConfig (configToToml { args.overrideConfig config with logging }).read

/-- Without the options that only a running service reads, this is the remote of
`Server.Remote`. -/
theorem applyRemoteOptions_toArgs (config : EspejismoConfig) (args : Args) :
    applyRemoteOptions config { toArgs := args } = applyCliOverridesToConfig config args := by
  have hlog : applyLogOverrides config.logging {} = .ok config.logging := rfl
  unfold applyRemoteOptions applyCliOverridesToConfig
  rw [show ({ toArgs := args } : RemoteArgs).log = {} from rfl, hlog]
  simp only [bind, Except.bind]
  exact congrArg (fun config => parseConfig (configToToml config).read) rfl

def RemoteArgs.sanitized (args : RemoteArgs) : RemoteArgs :=
  { args with toArgs := sanitizedReloadArgs args.toArgs }

/-! ## Settings -/

structure FallbackHttpRuntime where
  enabled : Bool
  upstream : Option String
  probeTimeoutMs : Nat
  server : String
  body : String
  deriving DecidableEq

def userLimitConfigs (config : EspejismoConfig) : List (String × UserLimitConfig) :=
  config.remote.users.map fun user =>
    (user.name,
      { quotaBytes := user.quota.bytes
        quotaWindow := user.quota.windowSecs * nanosPerSec
        bandwidthBytesPerSec := user.bytesPerSec })

structure ServiceSettings where
  frames : FrameOptions
  timing : TimingOptions
  underlay : UnderlayConfig
  mux : MuxRuntimeConfig
  handshakeTimeoutMs : Nat
  rejectDelayMs : Nat
  coldStartDelayMs : Nat
  fallbackHttp : FallbackHttpRuntime
  egress : EgressPolicy
  idleTimeoutSecs : Nat
  maxStreams : Nat
  limits : List (String × UserLimitConfig)
  deriving DecidableEq

/-- `build_remote_settings`, apart from the users of the handshake. -/
def buildServiceSettings (config : EspejismoConfig) (args : RemoteArgs) : ServiceSettings :=
  { frames := config.shared.frameOptions args.frames
    timing := config.shared.timingOptions args.frames
    underlay := config.shared.underlay
    mux := .fromConfig config.shared.maxStreams config.shared.mux
    handshakeTimeoutMs := args.handshakeTimeoutMs.getD config.remote.handshakeTimeoutMs
    rejectDelayMs := min (args.rejectDelayMs.getD config.remote.rejectDelayMs) 10000
    coldStartDelayMs := args.coldStartDelayMs.getD config.remote.coldStartDelayMs
    fallbackHttp :=
      { enabled :=
          decide (config.remote.fallbackHttp.mode = .httpFallback) ||
            config.remote.fallbackHttp.enabled
        upstream := config.remote.fallbackUpstream
        probeTimeoutMs := config.remote.fallbackHttp.probeTimeoutMs
        server := config.remote.fallbackHttp.server
        body := config.remote.fallbackHttp.body }
    egress := config.remote.egress
    idleTimeoutSecs := config.shared.idleTimeoutSecs
    maxStreams := config.shared.maxStreams
    limits := userLimitConfigs config }

structure ActiveSettings (P : Platform) where
  handshake : RemoteSettings P
  service : ServiceSettings

section

variable (P : Platform)

def buildActiveSettings [Codecs] (config : EspejismoConfig) (args : RemoteArgs) :
    Except Error (ActiveSettings P) := do
  return {
    handshake := ← buildRemoteSettings P config args.toArgs
    service := buildServiceSettings config args }

/-! ## Startup and reload -/

def startupConfig (sources : ConfigSources) (input : ConfigInput) (args : RemoteArgs) :
    Except Error EspejismoConfig := do
  let config ← loadConfig sources input
  let config ← applyProfileOption config args.profile
  let config ← applyRemoteOptions config args
  let logging ← applyLogOverrides config.logging args.log
  return { config with logging }

def validateAdminListener (admin : Option SocketAddr) (remote : SocketAddr) : Except Error Unit :=
  ensure (admin != some remote) "admin.listen must not reuse remote.listen"

def startRemote [Codecs] (sources : ConfigSources) (input : ConfigInput) (args : RemoteArgs) :
    Except Error (ActiveSettings P) := do
  let config ← startupConfig sources input args
  let settings ← buildActiveSettings P config args
  validateAdminListener (args.adminListen.or config.admin.listen)
    (args.listen.getD config.remote.listen)
  return settings

def requestedConfig (sources : ConfigSources) (input : ConfigInput) :
    (body : Option EspejismoConfig) → Except Error EspejismoConfig
  | some body => parseConfig body
  | none =>
    if input.path.isSome || input.base64.isSome then loadConfig sources input
    else .error (.msg "reload requires --config or --config-base64; use /apply")

/-- `reload_action`: the settings a request builds, from the options that are kept
for it. -/
def reloadRemote [Codecs] (sources : ConfigSources) (input : ConfigInput) (args : RemoteArgs)
    (body : Option EspejismoConfig) : Except Error (ActiveSettings P) := do
  let config ← requestedConfig sources input body
  let logging ← applyLogOverrides config.logging args.sanitized.log
  buildActiveSettings P { config with logging } args.sanitized

end

theorem reloadAction_of_reloadRemote [Codecs] {P : Platform} {runtime : RemoteRuntime P}
    {args : RemoteArgs} {config : EspejismoConfig} {settings : ActiveSettings P}
    (har : runtime.reloadArgs = args.sanitized.toArgs)
    (h : reloadRemote P sources input args (some config) = .ok settings) :
    runtime.reloadAction config = .ok { runtime with settings := settings.handshake } := by
  obtain ⟨_, hp, h⟩ := bind_eq_ok.mp h
  obtain ⟨_, -, h⟩ := bind_eq_ok.mp h
  obtain ⟨users, hus, rfl⟩ := map_eq_ok.mp h
  have hp : parseConfig config = _ := hp
  unfold RemoteRuntime.reloadAction
  rw [hp, har]
  exact map_eq_ok.mpr ⟨users, hus, rfl⟩

/-! ## A reload of the same source -/

/-- The source names the key of `--psk`, unless there are users or no option. -/
def Args.SameKey [Codecs] (args : Args) (config : EspejismoConfig) : Prop :=
  config.remote.users = [] → ∀ option, args.psk = some option →
    ∃ psk, config.shared.psk = some psk ∧ parsePsk psk = parsePsk option

section Unchanged

variable {P : Platform} {sources : ConfigSources} {input : ConfigInput} {args : RemoteArgs}
  {config : EspejismoConfig}

variable {settings : ActiveSettings P}

theorem buildActiveSettings_eq_ok [Codecs] :
    buildActiveSettings P config args = .ok settings ↔
      buildRemoteSettings P config args.toArgs = .ok settings.handshake ∧
        buildServiceSettings config args = settings.service := by
  unfold buildActiveSettings
  rw [map_eq_ok]
  obtain ⟨handshake, service⟩ := settings
  simp only [ActiveSettings.mk.injEq]
  constructor
  · rintro ⟨_, hbu, rfl, hs⟩
    exact ⟨hbu, hs⟩
  · rintro ⟨hbu, hs⟩
    exact ⟨_, hbu, rfl, hs⟩

theorem buildServiceSettings_withProfiled_iff (hco : parseConfig config = .ok config)
    (hst : 0 < other.shared.maxStreams)
    (hw : 0 < other.shared.mux.nativeInitialWindowBytes) :
    buildServiceSettings (config.withProfiled other) args = buildServiceSettings config args ↔
      config.shared.Agrees args.frames other.shared ∧
        other.remote.egress = config.remote.egress := by
  obtain ⟨hst₀, hw₀⟩ := positive_of_parseConfig hco
  rw [← EspejismoConfig.agrees_withProfiled_iff args.frames hst₀ hw₀ hst hw]
  simp only [buildServiceSettings, ServiceSettings.mk.injEq]
  constructor
  · rintro ⟨hfr, hti, -, hmu, -, -, -, -, he, -⟩
    exact ⟨⟨hfr, hti, hmu⟩, he⟩
  · rintro ⟨hsh, he⟩
    have ha := (EspejismoConfig.agrees_withProfiled_iff args.frames hst₀ hw₀ hst hw).mp hsh
    exact ⟨hsh.1, hsh.2.1, rfl, hsh.2.2, rfl, rfl, rfl, rfl, he, rfl, ha.maxStreams, rfl⟩

theorem buildRemoteSettings_withProfiled [Codecs]
    (hob : other.shared.obfuscation = config.shared.obfuscation)
    (hsl : other.shared.stealth = config.shared.stealth) :
    buildRemoteSettings P (config.withProfiled other) args.toArgs =
      buildRemoteSettings P config args.toArgs := by
  simp only [EspejismoConfig.withProfiled, hob, hsl]
  rfl

theorem buildHandshakeUser_psk [Codecs]
    (h : buildHandshakeUser P config args.toArgs stealthHandshake name psk = .ok user) :
    parsePsk psk = .ok user.config.psk := by
  obtain ⟨key, hk, rfl⟩ := map_eq_ok.mp h
  exact hk

theorem buildHandshakeUsers_of_users_eq_nil [Codecs] (hus : config.remote.users = []) (args : Args)
    (stealthHandshake : Option Nat) :
    buildHandshakeUsers P config args stealthHandshake = .ok users ↔
      ∃ psk user, args.psk.or config.shared.psk = some psk ∧
        buildHandshakeUser P config args stealthHandshake "default" psk = .ok user ∧
          [user] = users := by
  unfold buildHandshakeUsers
  rw [hus]
  cases args.psk.or config.shared.psk with
  | none => simp
  | some psk =>
    simp only [List.isEmpty_nil, if_true, map_eq_ok, Option.some.injEq]
    constructor
    · rintro ⟨user, hu, rfl⟩
      exact ⟨psk, user, rfl, hu, rfl⟩
    · rintro ⟨_, user, rfl, hu, rfl⟩
      exact ⟨user, hu, rfl⟩

theorem buildRemoteSettings_sanitized_iff [Codecs]
    (h : buildRemoteSettings P config args.toArgs = .ok handshake) :
    buildRemoteSettings P config (sanitizedReloadArgs args.toArgs) = .ok handshake ↔
      args.SameKey config := by
  unfold buildRemoteSettings at h ⊢
  rw [map_eq_ok] at h ⊢
  obtain ⟨users, hbu, rfl⟩ := h
  simp only [RemoteSettings.mk.injEq, exists_eq_right]
  unfold Args.SameKey
  by_cases hus : config.remote.users = []
  · rw [buildHandshakeUsers_of_users_eq_nil hus] at hbu ⊢
    obtain ⟨psk, user, hps, hu, rfl⟩ := hbu
    have hk : parsePsk psk = .ok user.config.psk := buildHandshakeUser_psk hu
    constructor
    · rintro ⟨psk', user', hps', hu', heq⟩ - option ho
      obtain rfl := List.singleton_inj.mp heq
      rw [ho] at hps
      obtain rfl := Option.some.inj hps
      exact ⟨psk', hps', (buildHandshakeUser_psk hu').trans hk.symm⟩
    · intro hsa
      cases ho : args.psk with
      | none =>
        rw [ho] at hps
        exact ⟨psk, user, hps, hu, rfl⟩
      | some option =>
        obtain ⟨psk', hps', hp⟩ := hsa hus option ho
        rw [ho] at hps
        obtain rfl := Option.some.inj hps
        refine ⟨psk', user, hps', ?_, rfl⟩
        rw [← hu]
        unfold buildHandshakeUser
        rw [hp]
        rfl
  · -- the users of the configuration, in both cases
    have hsa : buildHandshakeUsers P config (sanitizedReloadArgs args.toArgs) =
        buildHandshakeUsers P config args.toArgs := by
      funext stealthHandshake
      simp only [buildHandshakeUsers, List.isEmpty_iff, hus]
      rfl
    rw [hsa, hbu]
    simp [hus]

theorem overrideConfig_overrideConfig (args : RemoteArgs) (config : EspejismoConfig) :
    args.overrideConfig (args.overrideConfig config) = args.overrideConfig config := by
  simp [RemoteArgs.overrideConfig, FrameOptionOverrides.overrideShared, ← Option.or_assoc]

theorem buildActiveSettings_overrideConfig [Codecs] (args : RemoteArgs) (config : EspejismoConfig) :
    buildActiveSettings P (args.overrideConfig config) {} = buildActiveSettings P config args := by
  rfl

theorem startupConfig_eq_ok (h : startupConfig sources input args = .ok accepted) :
    ∃ config profiled logging, loadConfig sources input = .ok config ∧
      applyProfileOption config args.profile = .ok profiled ∧
      applyLogOverrides profiled.logging args.log = .ok logging ∧
      parseConfig accepted = .ok accepted ∧
      ∃ logging, accepted = { (args.overrideConfig profiled).withDefaultListeners with
        logging } := by
  obtain ⟨config, hl, h⟩ := bind_eq_ok.mp h
  obtain ⟨profiled, hpr, h⟩ := bind_eq_ok.mp h
  obtain ⟨overridden, hos, h⟩ := bind_eq_ok.mp h
  obtain ⟨logging', -, rfl⟩ := map_eq_ok.mp h
  obtain ⟨logging, hlg, hp⟩ := bind_eq_ok.mp hos
  rw [read_configToToml] at hp
  obtain ⟨rfl, -⟩ := parseConfig_eq_ok_iff.mp hp
  exact ⟨config, profiled, logging, hl, hpr, hlg, parseConfig_logging hp logging', logging', rfl⟩

theorem startRemote_eq_ok [Codecs] (h : startRemote P sources input args = .ok settings) :
    ∃ accepted, startupConfig sources input args = .ok accepted ∧
      buildActiveSettings P accepted args = .ok settings := by
  obtain ⟨accepted, hac, h⟩ := bind_eq_ok.mp h
  obtain ⟨built, hb, h⟩ := bind_eq_ok.mp h
  obtain ⟨-, -, hrt⟩ := bind_eq_ok.mp h
  cases hrt
  exact ⟨accepted, hac, hb⟩

theorem requestedConfig_none_eq_ok :
    requestedConfig sources input none = .ok config ↔
      (input.path.isSome || input.base64.isSome) ∧ loadConfig sources input = .ok config := by
  simp only [requestedConfig]
  split <;> simp_all

/-- A reload of the source a remote was started from gives the settings of the
start exactly when the source holds the key of `--psk` and all that the named
profile writes. -/
theorem reloadRemote_none_eq_ok_iff [Codecs] (hl : loadConfig sources input = .ok config)
    (hsr : startRemote P sources input args = .ok settings) :
    reloadRemote P sources input args none = .ok settings ↔
      (input.path.isSome || input.base64.isSome) ∧ args.SameKey config ∧
        ∀ profiled, applyProfileOption config args.profile = .ok profiled →
          config.shared.Agrees args.frames profiled.shared ∧
            profiled.remote.egress = config.remote.egress := by
  obtain ⟨accepted, hac, hb⟩ := startRemote_eq_ok hsr
  obtain ⟨_, profiled, logging, hl', hpr, hlg, hp, logging', rfl⟩ := startupConfig_eq_ok hac
  obtain rfl := Except.ok.inj (hl.symm.trans hl')
  have hpo := positive_of_parseConfig hp
  -- the start builds from the source and the profile alone
  have hb : buildActiveSettings P profiled args = .ok settings := by
    rw [← buildActiveSettings_overrideConfig, ← overrideConfig_overrideConfig]
    exact hb
  have hrd : reloadRemote P sources input args none = .ok settings ↔
      (input.path.isSome || input.base64.isSome) ∧
        buildActiveSettings P config args.sanitized = .ok settings := by
    obtain ⟨reloaded, hrl⟩ := exists_applyLogOverrides hlg config.logging
    constructor
    · intro h
      obtain ⟨requested, hre, h⟩ := bind_eq_ok.mp h
      obtain ⟨hso, hag⟩ := requestedConfig_none_eq_ok.mp hre
      obtain rfl := Except.ok.inj (hl.symm.trans hag)
      obtain ⟨_, -, h⟩ := bind_eq_ok.mp h
      exact ⟨hso, h⟩
    · rintro ⟨hso, h⟩
      exact bind_eq_ok.mpr ⟨config, requestedConfig_none_eq_ok.mpr ⟨hso, hl⟩,
        bind_eq_ok.mpr ⟨reloaded, hrl, h⟩⟩
  have hpf := applyProfileOption_eq_withProfiled hpr
  rw [buildActiveSettings_eq_ok, hpf] at hb
  have hs : buildServiceSettings (config.withProfiled profiled) args =
      buildServiceSettings config args ↔ _ :=
    buildServiceSettings_withProfiled_iff (parseConfig_of_loadConfig hl) hpo.1 hpo.2
  rw [hrd, buildActiveSettings_eq_ok]
  refine and_congr_right fun _ => ⟨?_, ?_⟩
  · rintro ⟨hha, hsa⟩
    obtain ⟨ha, he⟩ := hs.mp (hb.2.trans hsa.symm)
    have hk := hb.1
    rw [buildRemoteSettings_withProfiled ha.obfuscation ha.stealth] at hk
    refine ⟨(buildRemoteSettings_sanitized_iff hk).mp hha, fun _ hpr' => ?_⟩
    obtain rfl := Except.ok.inj (hpr.symm.trans hpr')
    exact ⟨ha, he⟩
  · rintro ⟨hk, ha⟩
    obtain ⟨ha, he⟩ := ha profiled hpr
    have hha := hb.1
    rw [buildRemoteSettings_withProfiled ha.obfuscation ha.stealth] at hha
    exact ⟨(buildRemoteSettings_sanitized_iff hha).mpr hk, (hs.mpr ⟨ha, he⟩).symm.trans hb.2⟩

end Unchanged

end Espejismo
