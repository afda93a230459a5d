import Espejismo.Config

/-!
# Config.Toml

A configuration that is written as TOML and read again (`config_to_toml` and the
first step of `parse_config` of `config/mod.rs`).

A document has a key for every field that has a value.  TOML has no null, so a
`None` is left out, and a key that is missing is read as the default that serde
has for its field.
-/

namespace Espejismo

open RemoteUserConfig

/-! ## Writing -/

/-- The keys of a document, by the field they are of; `none` is a missing key. -/
structure ConfigToml where
  keys : EspejismoConfig

def configToToml (config : EspejismoConfig) : ConfigToml := ⟨config⟩

/-! ## Reading -/

def readKey (default key : Option α) : Option α :=
  match key with
  | some a => some a
  | none => default

def TcpConfig.read (keys : TcpConfig) : TcpConfig :=
  { keys with
    congestionControl := readKey ({} : TcpConfig).congestionControl keys.congestionControl }

def WebSocketUnderlayConfig.read (keys : WebSocketUnderlayConfig) : WebSocketUnderlayConfig :=
  { keys with host := readKey ({} : WebSocketUnderlayConfig).host keys.host }

def Http2UnderlayConfig.read (keys : Http2UnderlayConfig) : Http2UnderlayConfig :=
  { keys with authority := readKey ({} : Http2UnderlayConfig).authority keys.authority }

def SharedConfig.read (keys : SharedConfig) : SharedConfig :=
  { keys with
    psk := readKey ({} : SharedConfig).psk keys.psk
    tcp := keys.tcp.read
    underlay :=
      { keys.underlay with
        websocket := keys.underlay.websocket.read
        http2 := keys.underlay.http2.read } }

def LocalConfig.read (keys : LocalConfig) : LocalConfig :=
  { keys with
    server := readKey ({} : LocalConfig).server keys.server
    -- these two have a default of their own
    socks5Listen := readKey ({} : LocalConfig).socks5Listen keys.socks5Listen
    httpListen := readKey ({} : LocalConfig).httpListen keys.httpListen
    auth := readKey ({} : LocalConfig).auth keys.auth }

def RemoteUserConfig.read (keys : RemoteUserConfig) : RemoteUserConfig :=
  { keys with
    quota :=
      { keys.quota with
        bytes := readKey ({} : RemoteUserQuotaConfig).bytes keys.quota.bytes }
    bytesPerSec := readKey none keys.bytesPerSec }

def RemoteConfig.read (keys : RemoteConfig) : RemoteConfig :=
  { keys with
    fallbackUpstream := readKey ({} : RemoteConfig).fallbackUpstream keys.fallbackUpstream
    egress :=
      { keys.egress with
        proxy := readKey ({} : EgressPolicy).proxy keys.egress.proxy
        socks5Proxy := readKey ({} : EgressPolicy).socks5Proxy keys.egress.socks5Proxy }
    users := keys.users.map RemoteUserConfig.read }

def LogConfig.read (keys : LogConfig) : LogConfig :=
  { keys with file := readKey ({} : LogConfig).file keys.file }

def AdminConfig.read (keys : AdminConfig) : AdminConfig :=
  { listen := readKey ({} : AdminConfig).listen keys.listen
    token := readKey ({} : AdminConfig).token keys.token }

def ConfigToml.read (document : ConfigToml) : EspejismoConfig :=
  { shared := document.keys.shared.read
    localConfig := document.keys.localConfig.read
    remote := document.keys.remote.read
    logging := document.keys.logging.read
    admin := document.keys.admin.read }

/-! ## What the way through TOML changes -/

@[simp] theorem readKey_none (key : Option α) : readKey none key = key := by
  cases key <;> rfl

theorem readKey_eq_self_iff : readKey (some a) key = key ↔ key.isSome := by
  cases key <;> simp [readKey]

theorem or_readKey (default option key : Option α) :
    option.or (readKey default (option.or key)) = readKey default (option.or key) := by
  cases option <;> rfl

def EspejismoConfig.withDefaultListeners (config : EspejismoConfig) : EspejismoConfig :=
  { config with
    localConfig :=
      { config.localConfig with
        socks5Listen := readKey ({} : LocalConfig).socks5Listen config.localConfig.socks5Listen
        httpListen := readKey ({} : LocalConfig).httpListen config.localConfig.httpListen } }

theorem RemoteUserConfig.read_eq (user : RemoteUserConfig) : user.read = user := by
  simp [read]

theorem read_configToToml (config : EspejismoConfig) :
    (configToToml config).read = config.withDefaultListeners := by
  have hus : config.remote.users.map read = config.remote.users := by
    rw [funext read_eq, List.map_id']
  simp [ConfigToml.read, configToToml, SharedConfig.read, TcpConfig.read, WebSocketUnderlayConfig.read, Http2UnderlayConfig.read, LocalConfig.read, RemoteConfig.read, hus, LogConfig.read, AdminConfig.read, EspejismoConfig.withDefaultListeners]

theorem withDefaultListeners_eq_self_iff {config : EspejismoConfig} :
    config.withDefaultListeners = config ↔
      config.localConfig.socks5Listen.isSome ∧ config.localConfig.httpListen.isSome := by
  rw [← readKey_eq_self_iff, ← readKey_eq_self_iff]
  constructor
  · intro h
    exact ⟨congrArg (·.localConfig.socks5Listen) h, congrArg (·.localConfig.httpListen) h⟩
  · rintro ⟨hso5, hht⟩
    simp only [EspejismoConfig.withDefaultListeners]
    rw [hso5, hht]

end Espejismo
