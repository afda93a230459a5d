import Espejismo.Client.Runtime
import Espejismo.Crypto.Base64
import Espejismo.Server.Settings

/-!
# Activation

How settings become active on the two binaries: at startup, and by the reload
and apply requests of the admin API.

Files may change between two requests; what a base64 text or a profile URL holds is
part of the command line and does not.  A request runs to its end: the time limit of
`run_admin_action` is taken not to fall between the two locks that an apply of the local
binary waits for.
-/

namespace Espejismo

open Machine Net List
open scoped Standard

/-! ## A reload of an unchanged source -/

/-- **A reload of the source a binary was started from** builds the settings of
the start exactly when the source holds what the reload does not take from the
command line again: for a remote the key of `--psk`, and for both all that
`--profile` writes and no option hides.  On a local both listeners have to be
named, since only the start puts a default in the place of a missing one. -/
theorem reload_unchanged_iff [Codecs] (P : Platform) {sources : ConfigSources} {input : ConfigInput}
    {config : EspejismoConfig} (hlo : loadConfig sources input = .ok config) :
    (∀ (args : RemoteArgs) (settings : ActiveSettings P),
      startRemote P sources input args = .ok settings →
        (reloadRemote P sources input args none = .ok settings ↔
          (input.path.isSome || input.base64.isSome) ∧ args.SameKey config ∧
            ∀ profiled, applyProfileOption config args.profile = .ok profiled →
              config.shared.Agrees args.frames profiled.shared ∧
                profiled.remote.egress = config.remote.egress)) ∧
      ∀ (args : LocalArgs) (imported : EspejismoConfig) (runtime : LocalRuntime P),
        importProfile sources config args.importProfile = .ok imported →
          startLocal P sources input args = .ok runtime →
            (reloadLocal P sources input args none = .ok runtime ↔
              args.NamesListeners imported ∧
                ∀ profiled, applyProfileOption imported args.profile = .ok profiled →
                  args.Agrees imported profiled) :=
  ⟨fun _ _ hst => reloadRemote_none_eq_ok_iff hlo hst,
    fun _ _ _ hi hst => reloadLocal_none_eq_ok_iff hlo hi hst⟩

def ConfigSources.only (config : EspejismoConfig) : ConfigSources :=
  { file := fun _ => .ok config
    decoded := fun _ => .error (.msg "decode base64 config")
    profile := fun _ => .error (.msg "decode client profile") }

def plainConfig : EspejismoConfig :=
  { shared := { psk := some "0123456789abcdef" }
    localConfig := { server := some "203.0.113.7:6690" } }

/-- A source that holds what the profile writes. -/
def balancedConfig : EspejismoConfig := NamedProfile.balanced.apply plainConfig

def remoteOptions : RemoteArgs :=
  { psk := some "0123456789abcdef", profile := some "balanced", rejectDelayMs := some 100 }

def localOptions : LocalArgs := { profile := some "balanced", tunnelBuffer := some 4096 }

theorem reload_unchanged_balanced :
    (∃ settings, startRemote (.reference .release) (.only balancedConfig)
        { path := some "e.toml" } remoteOptions = .ok settings ∧
      reloadRemote (.reference .release) (.only balancedConfig) { path := some "e.toml" }
        remoteOptions none = .ok settings) ∧
    ∃ runtime, startLocal (.reference .release) (.only balancedConfig)
        { path := some "e.toml" } localOptions = .ok runtime ∧
      reloadLocal (.reference .release) (.only balancedConfig) { path := some "e.toml" }
        localOptions none = .ok runtime := by
  have hlo : loadConfig (.only balancedConfig) { path := some "e.toml" } = .ok balancedConfig :=
    rfl
  have hpr : applyProfileOption balancedConfig (some "balanced") = .ok balancedConfig := rfl
  have hif := reload_unchanged_iff (.reference .release) hlo
  refine ⟨⟨_, rfl, (hif.1 remoteOptions _ rfl).mpr ⟨rfl, ?_, ?_⟩⟩,
    _, rfl, (hif.2 localOptions balancedConfig _ rfl rfl).mpr ⟨⟨rfl, rfl⟩, ?_⟩⟩
  · intro _ option hon
    cases hon
    exact ⟨_, rfl, rfl⟩
  · intro profiled hpf
    obtain rfl := Except.ok.inj (hpr.symm.trans hpf)
    exact ⟨.refl _ _, rfl⟩
  · intro profiled hpf
    obtain rfl := Except.ok.inj (hpr.symm.trans hpf)
    exact .refl _ _

/-- With `--psk` and a source that names no key, a remote starts and cannot be
reloaded; with `--profile server-safe` a reload drops the profile's rule for
private addresses; with `--profile fast` a local goes back to the padding of the
source. -/
theorem reload_changes_settings :
    (∃ settings error,
      startRemote (.reference .release) (.only {}) { path := some "e.toml" }
          { psk := some "0123456789abcdef" } = .ok settings ∧
        reloadRemote (.reference .release) (.only {}) { path := some "e.toml" }
          { psk := some "0123456789abcdef" } none = .error error) ∧
    (∃ settings reloaded,
      startRemote (.reference .release) (.only plainConfig) { path := some "e.toml" }
          { profile := some "server-safe" } = .ok settings ∧
        settings.service.egress.denyPrivateIps = true ∧
        reloadRemote (.reference .release) (.only plainConfig) { path := some "e.toml" }
          { profile := some "server-safe" } none = .ok reloaded ∧
        reloaded.service.egress.denyPrivateIps = false) ∧
    ∃ runtime reloaded,
      startLocal (.reference .release) (.only plainConfig) { path := some "e.toml" }
          { profile := some "fast" } = .ok runtime ∧
        runtime.frames.maxPadding = 0 ∧
        reloadLocal (.reference .release) (.only plainConfig) { path := some "e.toml" }
          { profile := some "fast" } none = .ok reloaded ∧
        reloaded.frames.maxPadding = 64 := by
  exact ⟨⟨_, _, rfl, rfl⟩, ⟨_, _, rfl, rfl, rfl, rfl⟩, _, _, rfl, rfl, rfl, rfl⟩

/-! ## Requests to a running binary -/

/-- The settings of a running binary and the configuration they were built from,
with the options over it. -/
structure Active (σ : Type) where
  builtFrom : EspejismoConfig
  settings : σ

/-- A reload, at a time when the files hold `file`, or an apply. -/
inductive Request where
  | reload (file : String → Except Error EspejismoConfig)
  | apply (body : EspejismoConfig)

def Request.sources (sources : ConfigSources) : Request → ConfigSources
  | .reload file => { sources with file }
  | .apply _ => sources

def Request.body : Request → Option EspejismoConfig
  | .reload _ => none
  | .apply body => some body

def Active.step (answer : Request → Except Error (Active σ)) (active : Active σ)
    (request : Request) : Option (Active σ) :=
  match answer request with
  | .ok next => some next
  | .error _ => some active

section Binaries

variable (P : Platform) (sources : ConfigSources) (input : ConfigInput)

/-- What a remote builds its settings from: the options that reach them over the
requested configuration.  The admin API is not built again. -/
def RemoteArgs.effectiveConfig (args : RemoteArgs) (config : EspejismoConfig) : EspejismoConfig :=
  { args.sanitized.overrideConfig config with admin := config.admin }

def startedRemote [Codecs] (args : RemoteArgs) : Except Error (Active (ActiveSettings P)) := do
  return {
    builtFrom := ← startupConfig sources input args
    settings := ← startRemote P sources input args }

def answerRemote [Codecs] (args : RemoteArgs) (request : Request) :
    Except Error (Active (ActiveSettings P)) := do
  let config ← requestedConfig (request.sources sources) input request.body
  let logging ← applyLogOverrides config.logging args.log
  return {
    builtFrom := { args.effectiveConfig config with logging }
    settings := ← reloadRemote P (request.sources sources) input args request.body }

def startedLocal [Codecs] (args : LocalArgs) : Except Error (Active (LocalRuntime P)) := do
  return {
    builtFrom := ← localStartupConfig sources input args
    settings := ← startLocal P sources input args }

def answerLocal [Codecs] (args : LocalArgs) (request : Request) :
    Except Error (Active (LocalRuntime P)) := do
  let config ← localRequestedConfig (request.sources sources) input request.body
  let config ← importProfile sources config args.importProfile
  let logging ← applyLogOverrides config.logging args.log
  return {
    builtFrom := { args.overrideConfig config with logging }
    settings := ← reloadLocal P (request.sources sources) input args request.body }

end Binaries

/-- The settings were built from a configuration that passes the checks; all
options are in it. -/
def Active.ValidRemote [Codecs] {P : Platform} (active : Active (ActiveSettings P)) : Prop :=
  parseConfig active.builtFrom = .ok active.builtFrom ∧
    buildActiveSettings P active.builtFrom {} = .ok active.settings

def Active.ValidLocal [Codecs] {P : Platform} (active : Active (LocalRuntime P)) : Prop :=
  parseConfig active.builtFrom = .ok active.builtFrom ∧
    buildLocalRuntime P active.builtFrom {} = .ok active.settings

variable {config : EspejismoConfig}

theorem forall_checks_iff :
    (∀ check ∈ config.checks, check.holds) ↔
      (∀ check ∈ config.localConfig.auth.toList.flatMap ProxyAuth.checks, check.holds) ∧
      (∀ check ∈ config.localConfig.tun.checks, check.holds) ∧
      (∀ check ∈ config.admin.checks, check.holds) ∧
      (∀ check ∈ config.limitChecks, check.holds) ∧
      (∀ check ∈ config.localConfig.tunnelPool.checks, check.holds) ∧
      ∀ check ∈ config.remote.userChecks ++ config.shared.obfuscation.checks ++
        config.shared.mux.checks ++ config.shared.tcp.checks ++ config.shared.pacing.checks ++
        config.shared.stealthChecks ++ config.remote.outboundChecks ++
        config.shared.underlay.checks ++ config.shared.portHopping.checks, check.holds := by
  simp only [EspejismoConfig.checks, forall_mem_append]
  tauto

theorem limitChecks_of_mixed {startup request : EspejismoConfig}
    (hs : ∀ check ∈ startup.limitChecks, check.holds)
    (hrq : ∀ check ∈ request.limitChecks, check.holds)
    (hsk : config.shared.clockSkewSecs = startup.shared.clockSkewSecs ∨
      config.shared.clockSkewSecs = request.shared.clockSkewSecs)
    (hwi : config.shared.handshakeWindow = startup.shared.handshakeWindow ∨
      config.shared.handshakeWindow = request.shared.handshakeWindow)
    (hrp : config.remote.replayWindowSecs = startup.remote.replayWindowSecs ∨
      config.remote.replayWindowSecs = request.remote.replayWindowSecs)
    (ht : config.remote.handshakeTimeoutMs = startup.remote.handshakeTimeoutMs ∨
      config.remote.handshakeTimeoutMs = request.remote.handshakeTimeoutMs)
    (hid : config.shared.idleTimeoutSecs = request.shared.idleTimeoutSecs)
    (hsr : config.shared.maxStreams = request.shared.maxStreams)
    (hco : config.shared.maxPhysicalConnections = request.shared.maxPhysicalConnections)
    (hke : config.shared.keyUpdateFrames = request.shared.keyUpdateFrames) :
    ∀ check ∈ config.limitChecks, check.holds := by
  simp only [EspejismoConfig.limitChecks, forall_mem_cons, forall_mem_append,
    cons_append, hid, hsr, hco, hke] at hs hrq ⊢
  obtain ⟨hsk₁, hwi₁, hrp₁, ht₁, -⟩ := hs
  obtain ⟨hsk₂, hwi₂, hrp₂, ht₂, hrs⟩ := hrq
  refine ⟨?_, ?_, ?_, ?_, hrs⟩
  · rcases hsk with h | h <;> rw [h] <;> assumption
  · rcases hwi with h | h <;> rw [h] <;> assumption
  · rcases hrp with h | h <;> rw [h] <;> assumption
  · rcases ht with h | h <;> rw [h] <;> assumption

theorem getD_mixed (option : Option α) (profiled requested : α) :
    option.getD requested = option.getD profiled ∨ option.getD requested = requested := by
  cases option with
  | none => exact .inr rfl
  | some => exact .inl rfl

section Remote

variable {P : Platform} {sources : ConfigSources} {input : ConfigInput} {args : RemoteArgs}
  {config : EspejismoConfig} {active : Active (ActiveSettings P)}

theorem parseConfig_effectiveConfig (hs : startupConfig sources input args = .ok startup)
    (hc : parseConfig config = .ok config) :
    parseConfig (args.effectiveConfig config) = .ok (args.effectiveConfig config) := by
  obtain ⟨-, profiled, -, -, -, -, ha, logging, rfl⟩ := startupConfig_eq_ok hs
  obtain ⟨-, hch, hpx⟩ := parseConfig_eq_ok_iff.mp hc
  obtain ⟨-, hs, -⟩ := parseConfig_eq_ok_iff.mp ha
  refine parseConfig_eq_ok_iff.mpr ⟨rfl, forall_checks_iff.mpr ?_, hpx⟩
  obtain ⟨hau, htu, had, hl, hpo, hrs⟩ := forall_checks_iff.mp hch
  have hs := (forall_checks_iff.mp hs).2.2.2.1
  refine ⟨hau, htu, had, limitChecks_of_mixed hs hl ?_ (.inr rfl) ?_ ?_ rfl rfl
    rfl rfl, hpo, hrs⟩
  · exact getD_mixed _ _ _
  · exact getD_mixed _ _ _
  · exact getD_mixed _ _ _

theorem parseConfig_of_requestedConfig
    (h : requestedConfig sources input body = .ok config) : parseConfig config = .ok config := by
  cases body with
  | none => exact parseConfig_of_loadConfig (requestedConfig_none_eq_ok.mp h).2
  | some =>
    obtain ⟨rfl, -⟩ := parseConfig_eq_ok_iff.mp h
    exact h

theorem validRemote_of_started [Codecs] (h : startedRemote P sources input args = .ok active) :
    active.ValidRemote := by
  obtain ⟨accepted, ha, h⟩ := bind_eq_ok.mp h
  obtain ⟨settings, hst, rfl⟩ := map_eq_ok.mp h
  obtain ⟨_, ha', hb⟩ := startRemote_eq_ok hst
  obtain rfl := Except.ok.inj (ha.symm.trans ha')
  obtain ⟨-, profiled, -, -, -, -, hp, logging, rfl⟩ := startupConfig_eq_ok ha
  refine ⟨hp, ?_⟩
  change buildActiveSettings P (args.overrideConfig profiled) {} = .ok settings
  rw [← overrideConfig_overrideConfig]
  exact hb

theorem validRemote_of_answer [Codecs] (hs : startupConfig sources input args = .ok startup)
    (h : answerRemote P sources input args request = .ok active) : active.ValidRemote := by
  obtain ⟨config, hc, h⟩ := bind_eq_ok.mp h
  obtain ⟨logging, -, h⟩ := bind_eq_ok.mp h
  obtain ⟨settings, hr, rfl⟩ := map_eq_ok.mp h
  obtain ⟨_, hc', hr⟩ := bind_eq_ok.mp hr
  obtain rfl := Except.ok.inj (hc.symm.trans hc')
  obtain ⟨_, -, hb⟩ := bind_eq_ok.mp hr
  have hp := parseConfig_effectiveConfig hs (parseConfig_of_requestedConfig hc)
  refine ⟨parseConfig_logging hp logging, ?_⟩
  exact hb

end Remote

/-- A configuration that passes the checks and whose tunnel pool, DNS and admin
sections go with the options. -/
structure LocalArgs.Fits (args : LocalArgs) (config : EspejismoConfig) : Prop where
  accepted : parseConfig config = .ok config
  pool : ∀ check ∈ (args.pool.override config.localConfig.tunnelPool).checks, check.holds
  dns : args.tun.autoDns → args.tun.dns = [] → config.localConfig.tun.route.dnsServers ≠ []
  admin : ∀ listen, args.adminListen = some listen →
    listen.ip.isLoopback ∨ args.adminToken.isSome ∨ config.admin.token.isSome

section Local

variable {P : Platform} {sources : ConfigSources} {input : ConfigInput} {args : LocalArgs}

variable {config imported : EspejismoConfig} {active : Active (LocalRuntime P)}

theorem importProfile_mixed (h : importProfile sources config url = .ok imported)
    (hs : importProfile sources startup url = .ok started) :
    ∃ psk handshakeWindow server socks5Listen httpListen auth,
      imported =
        { config with
          shared := { config.shared with psk, handshakeWindow }
          localConfig := { config.localConfig with server, socks5Listen, httpListen, auth } } ∧
      (auth = started.localConfig.auth ∨ auth = config.localConfig.auth) ∧
      (handshakeWindow = started.shared.handshakeWindow ∨
        handshakeWindow = config.shared.handshakeWindow) := by
  cases url with
  | none =>
    cases h
    exact ⟨_, _, _, _, _, _, rfl, .inr rfl, .inr rfl⟩
  | some =>
    obtain ⟨profile, hpr, rfl⟩ := map_eq_ok.mp h
    obtain ⟨_, hpr', rfl⟩ := map_eq_ok.mp hs
    obtain rfl := Except.ok.inj (hpr.symm.trans hpr')
    exact ⟨_, _, _, _, _, _, rfl, .inl rfl, .inl rfl⟩

theorem TunOverrides.override_checks {overrides : TunOverrides} {startup config : LocalTunConfig}
    (hs : ∀ check ∈ (overrides.override startup).checks, check.holds)
    (hc : ∀ check ∈ config.checks, check.holds)
    (hdn : overrides.autoDns → overrides.dns = [] → config.route.dnsServers ≠ []) :
    ∀ check ∈ (overrides.override config).checks, check.holds := by
  have hpl : (overrides.override config).prefixLen = (overrides.override startup).prefixLen ∨
      (overrides.override config).prefixLen = config.prefixLen := getD_mixed _ _ _
  have hmt : (overrides.override config).mtu = (overrides.override startup).mtu ∨
      (overrides.override config).mtu = config.mtu := getD_mixed _ _ _
  have ht :
      (overrides.override config).udpTimeoutSecs = (overrides.override startup).udpTimeoutSecs ∨
        (overrides.override config).udpTimeoutSecs = config.udpTimeoutSecs := getD_mixed _ _ _
  simp only [LocalTunConfig.checks, forall_mem_append, forall_mem_cons] at hs hc ⊢
  obtain ⟨⟨hpre₁, hmt₁, ht₁, -⟩, -⟩ := hs
  obtain ⟨⟨hpre₂, hmt₂, ht₂, hni⟩, hse⟩ := hc
  refine ⟨⟨?_, ?_, ?_, hni⟩, ?_⟩
  · rcases hpl with h | h <;> rw [h] <;> assumption
  · rcases hmt with h | h <;> rw [h] <;> assumption
  · rcases ht with h | h <;> rw [h] <;> assumption
  · intro check hme
    obtain ⟨hen, hme⟩ := Check.mem_guarded.mp hme
    obtain rfl := mem_singleton.mp hme
    have hcs : (overrides.override config).route.dnsServers =
        if overrides.dns.isEmpty then config.route.dnsServers else overrides.dns := rfl
    cases hgi : overrides.dns with
    | cons => simp [hcs, hgi]
    | nil =>
      have hse : config.route.dnsServers ≠ [] := by
        rcases Bool.or_eq_true _ _ ▸ hen with hat | hrq
        · exact hdn hat hgi
        · simpa using hse _ (Check.mem_guarded.mpr ⟨hrq, mem_singleton_self _⟩)
      simpa [hcs, hgi] using hse

theorem admin_checks_override {startup config : AdminConfig} {listen : Option SocketAddr}
    {token : Option String}
    (hs : ∀ check ∈ ({ listen := listen.or startup.listen, token := token.or startup.token } :
      AdminConfig).checks, check.holds) (hc : ∀ check ∈ config.checks, check.holds)
    (hf : ∀ addr, listen = some addr → addr.ip.isLoopback ∨ token.isSome ∨ config.token.isSome) :
    ∀ check ∈ ({ listen := listen.or config.listen, token := token.or config.token } :
      AdminConfig).checks, check.holds := by
  simp only [AdminConfig.checks, forall_mem_append, forall_mem_map, Option.mem_toList,
    Bool.or_eq_true] at hs hc ⊢
  constructor
  · cases token with
    | none => exact hc.1
    | some => exact hs.1
  · intro addr har
    cases listen with
    | none =>
      rcases hc.2 addr har with h | h
      · exact .inl h
      · exact .inr (by simp [h])
    | some option =>
      obtain rfl := Option.some.inj har
      rcases hf option rfl with h | h | h
      · exact .inl h
      · exact .inr (by simp [h])
      · exact .inr (by simp [h])

theorem parseConfig_overrideConfig (hs : localStartupConfig sources input args = .ok startup)
    (hf : args.Fits config)
    (hi : importProfile sources config args.importProfile = .ok imported) :
    parseConfig (args.overrideConfig imported) = .ok (args.overrideConfig imported) := by
  obtain ⟨_, started, profiled, -, -, hsd, hpr, -, ha, logging, rfl⟩ := localStartupConfig_eq_ok hs
  obtain ⟨-, hch, hpx⟩ := parseConfig_eq_ok_iff.mp hf.accepted
  obtain ⟨hau, htu, had, hl, -, hrs⟩ := forall_checks_iff.mp hch
  rw [applyProfileOption_eq_withProfiled hpr] at ha
  obtain ⟨hau', htu', had', hl', -⟩ := forall_checks_iff.mp (parseConfig_eq_ok_iff.mp ha).2.1
  obtain ⟨psk, window, server, socks5Listen, httpListen, auth, rfl, hsa, hsw⟩ :=
    importProfile_mixed hi hsd
  refine parseConfig_eq_ok_iff.mpr ⟨rfl, forall_checks_iff.mpr ⟨?_, ?_, ?_, ?_, ?_, ?_⟩, hpx⟩
  · rcases hsa with rfl | rfl
    · exact hau'
    · exact hau
  · exact TunOverrides.override_checks htu' htu hf.dns
  · exact admin_checks_override had' had hf.admin
  · exact limitChecks_of_mixed hl' hl (getD_mixed _ _ _) hsw (.inr rfl) (.inr rfl) rfl rfl rfl rfl
  · exact hf.pool
  · exact hrs

theorem validLocal_of_started [Codecs] (h : startedLocal P sources input args = .ok active) :
    active.ValidLocal := by
  obtain ⟨accepted, ha, h⟩ := bind_eq_ok.mp h
  obtain ⟨runtime, hst, rfl⟩ := map_eq_ok.mp h
  obtain ⟨_, ha', hb⟩ := startLocal_eq_ok hst
  obtain rfl := Except.ok.inj (ha.symm.trans ha')
  obtain ⟨-, -, profiled, -, -, -, -, -, hp, logging, rfl⟩ := localStartupConfig_eq_ok ha
  refine ⟨hp, ?_⟩
  change buildLocalRuntime P (args.overrideConfig profiled).withDefaultListeners {} = .ok runtime
  rw [← LocalArgs.overrideConfig_withDefaultListeners]
  exact hb

theorem validLocal_of_answer [Codecs] (hs : localStartupConfig sources input args = .ok startup)
    (hf : ∀ config, localRequestedConfig (request.sources sources) input request.body =
      .ok config → args.Fits config) (h : answerLocal P sources input args request = .ok active) :
    active.ValidLocal := by
  obtain ⟨config, hc, h⟩ := bind_eq_ok.mp h
  obtain ⟨imported, hi, h⟩ := bind_eq_ok.mp h
  obtain ⟨logging, -, h⟩ := bind_eq_ok.mp h
  obtain ⟨runtime, hr, rfl⟩ := map_eq_ok.mp h
  obtain ⟨_, hc', hr⟩ := bind_eq_ok.mp hr
  obtain rfl := Except.ok.inj (hc.symm.trans hc')
  have hps : (request.sources sources).profile = sources.profile := by cases request <;> rfl
  obtain ⟨_, hi', hr⟩ := bind_eq_ok.mp hr
  obtain rfl : imported = _ := by
    have hsm : importProfile (request.sources sources) config args.importProfile =
        importProfile sources config args.importProfile := by
      simp [importProfile, hps]
    exact Except.ok.inj (hi.symm.trans (hsm.symm.trans hi'))
  obtain ⟨_, -, hb⟩ := bind_eq_ok.mp hr
  have hp := parseConfig_overrideConfig hs (hf config hc) hi
  refine ⟨parseConfig_logging hp logging, ?_⟩
  exact hb

end Local

/-- The configuration that a request to a local asks for, if it can be read, fits. -/
def LocalArgs.FitsRequest {P : Platform} (sources : ConfigSources) (input : ConfigInput)
    (args : LocalArgs) (_ : Active (LocalRuntime P)) (request : Request) : Prop :=
  ∀ config, localRequestedConfig (request.sources sources) input request.body = .ok config →
    args.Fits config

section Runs

variable {P : Platform} {sources : ConfigSources} {input : ConfigInput}

variable {answer : Request → Except Error (Active σ)} {request : Request} {next : Active σ}
  {args : RemoteArgs} {e : Error}

theorem Active.step_eq_some (h : active.step answer request = some next) :
    answer request = .ok next ∨ next = active := by
  unfold Active.step at h
  split at h <;> cases h
  · exact .inl ‹_›
  · exact .inr rfl

theorem validRemote_of_reach [Codecs] (hst : startedRemote P sources input args = .ok start)
    (hrc : Reach (Active.step (answerRemote P sources input args)) Any start active) :
    active.ValidRemote := by
  obtain ⟨startup, hs, -⟩ := bind_eq_ok.mp hst
  refine hrc.invariant (validRemote_of_started hst) fun _ _ next hva _ hsp => ?_
  rcases Active.step_eq_some hsp with han | rfl
  · exact validRemote_of_answer hs han
  · exact hva

theorem validLocal_of_reach [Codecs] {args : LocalArgs}
    (hst : startedLocal P sources input args = .ok start)
    (hrc : Reach (Active.step (answerLocal P sources input args)) (args.FitsRequest sources input)
      start active) : active.ValidLocal := by
  obtain ⟨startup, hs, -⟩ := bind_eq_ok.mp hst
  refine hrc.invariant (validLocal_of_started hst) fun _ _ next hva hf hsp => ?_
  rcases Active.step_eq_some hsp with han | rfl
  · exact validLocal_of_answer hs hf han
  · exact hva

theorem Active.step_of_error (h : ∀ next, answer request ≠ .ok next) (active : Active σ) :
    active.step answer request = some active := by
  unfold Active.step
  split
  · exact absurd ‹_› (h _)
  · rfl

theorem step_answerRemote_of_error [Codecs]
    (h : reloadRemote P (request.sources sources) input args request.body = .error e)
    (active : Active (ActiveSettings P)) :
    active.step (answerRemote P sources input args) request = some active := by
  refine Active.step_of_error (fun next hn => ?_) active
  obtain ⟨_, -, hn⟩ := bind_eq_ok.mp hn
  obtain ⟨_, -, hn⟩ := bind_eq_ok.mp hn
  obtain ⟨_, hr, -⟩ := map_eq_ok.mp hn
  rw [h] at hr
  contradiction

theorem step_answerLocal_of_error [Codecs] {args : LocalArgs}
    (h : reloadLocal P (request.sources sources) input args request.body = .error e)
    (active : Active (LocalRuntime P)) :
    active.step (answerLocal P sources input args) request = some active := by
  refine Active.step_of_error (fun next hn => ?_) active
  obtain ⟨_, -, hn⟩ := bind_eq_ok.mp hn
  obtain ⟨_, -, hn⟩ := bind_eq_ok.mp hn
  obtain ⟨_, -, hn⟩ := bind_eq_ok.mp hn
  obtain ⟨_, hr, -⟩ := map_eq_ok.mp hn
  rw [h] at hr
  contradiction

/-- **Only settings from a configuration that passes the checks are active**: on a
remote after any requests, on a local after requests that fit.  A request that
fails leaves the settings as they are. -/
theorem active_settings_validated [Codecs] (P : Platform) (sources : ConfigSources)
    (input : ConfigInput) :
    (∀ (args : RemoteArgs) (start active : Active (ActiveSettings P)),
      startedRemote P sources input args = .ok start →
        Reach (Active.step (answerRemote P sources input args)) Any start active →
          active.ValidRemote) ∧
    (∀ (args : LocalArgs) (start active : Active (LocalRuntime P)),
      startedLocal P sources input args = .ok start →
        Reach (Active.step (answerLocal P sources input args)) (args.FitsRequest sources input)
            start active →
          active.ValidLocal) ∧
    (∀ (args : RemoteArgs) (request : Request) (e : Error) (active : Active (ActiveSettings P)),
      reloadRemote P (request.sources sources) input args request.body = .error e →
        active.step (answerRemote P sources input args) request = some active) ∧
    ∀ (args : LocalArgs) (request : Request) (e : Error) (active : Active (LocalRuntime P)),
      reloadLocal P (request.sources sources) input args request.body = .error e →
        active.step (answerLocal P sources input args) request = some active :=
  ⟨fun _ _ _ => validRemote_of_reach, fun _ _ _ => validLocal_of_reach,
    fun _ _ _ active h => step_answerRemote_of_error h active,
    fun _ _ _ active h => step_answerLocal_of_error h active⟩

theorem active_settings_validated_plain :
    (∃ start active : Active (ActiveSettings (.reference .release)),
      startedRemote (.reference .release) (.only plainConfig) { path := some "e.toml" } {} =
          .ok start ∧
        start.step (answerRemote (.reference .release) (.only plainConfig)
          { path := some "e.toml" } {}) (.apply plainConfig) = some active ∧ active.ValidRemote ∧
        active.step (answerRemote (.reference .release) (.only plainConfig)
          { path := some "e.toml" } {}) (.apply {}) = some active) ∧
    ∃ start active : Active (LocalRuntime (.reference .release)),
      startedLocal (.reference .release) (.only plainConfig) { path := some "e.toml" } {} =
          .ok start ∧
        start.step (answerLocal (.reference .release) (.only plainConfig)
          { path := some "e.toml" } {}) (.apply plainConfig) = some active ∧ active.ValidLocal ∧
        active.step (answerLocal (.reference .release) (.only plainConfig)
          { path := some "e.toml" } {}) (.apply {}) = some active := by
  have hp : parseConfig plainConfig = .ok plainConfig :=
    parseConfig_eq_ok_iff.mpr ⟨rfl, by decide, none, rfl⟩
  obtain ⟨hrt, hlc, hrm, hle⟩ := active_settings_validated
    (.reference .release) (.only plainConfig) { path := some "e.toml" }
  refine ⟨⟨_, _, rfl, rfl, hrt {} _ _ rfl (.next .refl (e := .apply plainConfig) trivial rfl),
    hrm {} (.apply {})
      (.msg "provide shared.psk, remote.users, --psk, or ESPEJISMO_PSK") _ rfl⟩,
    _, _, rfl, rfl, hlc {} _ _ rfl (.next .refl (e := .apply plainConfig) ?_ rfl),
    hle {} (.apply {}) (.msg "provide psk in config, --psk, or ESPEJISMO_PSK") _ rfl⟩
  intro config hc
  cases hc
  exact { accepted := hp, pool := by decide, dns := by simp, admin := by simp }

def noLanes : EspejismoConfig :=
  { plainConfig with
    localConfig :=
      { plainConfig.localConfig with tunnelPool := { interactiveLanes := 0, bulkLanes := 0 } } }

/-- An apply on a local makes a configuration active that the checks refuse. -/
theorem unchecked_apply_active :
    ∃ start active : Active (LocalRuntime (.reference .release)),
      startedLocal (.reference .release) (.only plainConfig) { path := some "e.toml" } {} =
          .ok start ∧
        start.step (answerLocal (.reference .release) (.only plainConfig)
          { path := some "e.toml" } {}) (.apply noLanes) = some active ∧
        parseConfig active.builtFrom ≠ .ok active.builtFrom ∧
        active.settings.tunnelPool.interactiveLanes + active.settings.tunnelPool.bulkLanes = 0 := by
  refine ⟨_, _, rfl, rfl, fun hp => ?_, rfl⟩
  have hch : ¬∀ check ∈ noLanes.checks, check.holds := by decide
  exact hch (parseConfig_eq_ok_iff.mp hp).2.1

end Runs

end Espejismo
