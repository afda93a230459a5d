import Espejismo.Config.Toml
import Espejismo.Crypto.Psk

/-!
# Server.Remote

A running remote (`espejismo-server/src/main.rs`, `handler.rs`): how its
settings are built from the command line and a configuration, how they are
replaced by a reload, and what its connections share.

A connection takes the settings of the moment it is opened and keeps them
through its handshake; the replay cache is one for the whole process and is
never rebuilt.
-/

namespace Espejismo

open Net

/-! ## Settings -/

/-- The command-line options that reach the settings or a check. -/
structure Args where
  psk : Option String := none
  clockSkewSecs : Option Int64 := none
  handshakeTimeoutMs : Option Nat := none
  maxHandshakePadding : Option Nat := none
  replayWindowSecs : Option Int64 := none
  puzzleBits : Option Nat := none
  adminListen : Option SocketAddr := none
  adminToken : Option String := none

/-- The options win over the configuration; the result is checked again, by way
of its TOML. -/
def applyCliOverridesToConfig (config : EspejismoConfig) (args : Args) :
    Except Error EspejismoConfig :=
  parseConfig (configToToml
    { config with
      shared :=
        { config.shared with
          psk := args.psk.or config.shared.psk
          clockSkewSecs := args.clockSkewSecs.getD config.shared.clockSkewSecs
          puzzleBits := args.puzzleBits.getD config.shared.puzzleBits }
      remote :=
        { config.remote with
          handshakeTimeoutMs := args.handshakeTimeoutMs.getD config.remote.handshakeTimeoutMs
          maxHandshakePadding := args.maxHandshakePadding.getD config.remote.maxHandshakePadding
          replayWindowSecs := args.replayWindowSecs.getD config.remote.replayWindowSecs }
      admin :=
        { listen := args.adminListen.or config.admin.listen
          token := args.adminToken.or config.admin.token } }).read

section Settings

variable (P : Platform)

def buildHandshakeUser [Codecs] (config : EspejismoConfig) (args : Args)
    (stealthHandshake : Option Nat) (name psk : String) : Except Error (HandshakeUser P) := do
  let psk ← parsePsk psk
  return {
    name
    config :=
      { HandshakeConfig.new P psk (args.clockSkewSecs.getD config.shared.clockSkewSecs)
          (args.maxHandshakePadding.getD config.remote.maxHandshakePadding)
          (args.puzzleBits.getD config.shared.puzzleBits) with
        stealthFrameSize := stealthHandshake
        window := config.shared.handshakeWindow
        muxMode := config.shared.mux.mode } }

def buildHandshakeUsers [Codecs] (config : EspejismoConfig) (args : Args)
    (stealthHandshake : Option Nat) : Except Error (List (HandshakeUser P)) :=
  if config.remote.users.isEmpty then
    match args.psk.or config.shared.psk with
    | none => .error (.msg "provide shared.psk, remote.users, --psk, or ESPEJISMO_PSK")
    | some psk => do return [← buildHandshakeUser P config args stealthHandshake "default" psk]
  else
    config.remote.users.mapM fun user =>
      buildHandshakeUser P config args stealthHandshake user.name user.psk

structure RemoteSettings where
  users : List (HandshakeUser P)

def buildRemoteSettings [Codecs] (config : EspejismoConfig) (args : Args) :
    Except Error (RemoteSettings P) := do
  let stealthHandshake :=
    if config.shared.obfuscation.profile = .stealth then some config.shared.stealth.frameSize
    else none
  return { users := ← buildHandshakeUsers P config args stealthHandshake }

structure RemoteRuntime where
  settings : RemoteSettings P
  replayWindowSecs : Int64
  reloadArgs : Args

/-- A reload reads the keys from the new configuration only. -/
def sanitizedReloadArgs (args : Args) : Args := { args with psk := none, adminToken := none }

def buildRuntime [Codecs] (config : EspejismoConfig) (args : Args) :
    Except Error (RemoteRuntime P) := do
  return {
    settings := ← buildRemoteSettings P config args
    replayWindowSecs := args.replayWindowSecs.getD config.remote.replayWindowSecs
    reloadArgs := sanitizedReloadArgs args }

end Settings

variable {P : Platform}

/-- The candidate settings are complete before any is replaced. -/
def RemoteRuntime.reloadAction [Codecs] (runtime : RemoteRuntime P) (config : EspejismoConfig) :
    Except Error (RemoteRuntime P) := do
  let config ← parseConfig config
  let next ← buildRemoteSettings P config runtime.reloadArgs
  return { runtime with settings := next }

/-! ## The running remote -/

structure Peer (P : Platform) where
  settings : RemoteSettings P
  openedAt : Int

structure Verification (P : Platform) where
  hello : ParsedClientHello
  user : HandshakeUser P
  verifiedAt : Int64
  checkedAt : Int

structure Remote (P : Platform) where
  runtime : RemoteRuntime P
  replay : ReplayCache
  clock : Int
  /-- Every connection so far; one whose handshake is over is `none`. -/
  peers : List (Option (Peer P))
  /-- Every hello verified so far, in the order the cache was asked. -/
  verified : List (Verification P)

/-- What can happen to a running remote.  A handshake happens when it asks the
replay cache: up to there it reads its own connection and the clock, so `env`
may hold older readings. -/
inductive Event where
  | tick (clock : Int)
  | connect
  | handshake (index : Nat) (env : ServerEnv) (input : List UInt8)
  | drop (index : Nat)
  | reload (config : EspejismoConfig)

namespace Remote

def start (runtime : RemoteRuntime P) (clock : Int) : Remote P :=
  { runtime, replay := .new runtime.replayWindowSecs, clock, peers := [], verified := [] }

def verification (r : Remote P) (settings : RemoteSettings P) (env : ServerEnv)
    (input : List UInt8) : List (Verification P) :=
  match (authenticateClient settings.users env).run
      { input, output := [], replay := some r.replay } with
  | .ok (hello, user) _ =>
    [{ hello, user, verifiedAt := .ofInt env.verifyClock, checkedAt := r.clock }]
  | .error _ _ => []

/-- `accept_handshake_with_users` on a connection that has received `input`. -/
def accept (r : Remote P) (settings : RemoteSettings P) (env : ServerEnv) (input : List UInt8) :
    EStateM.Result Error HandshakeIo AuthenticatedSession :=
  (acceptHandshakeUsersInner settings.users env).run
    { input, output := [], replay := some r.replay }

def step [Codecs] (r : Remote P) : Event → Option (Remote P)
  | .tick clock => if r.clock ≤ clock then some { r with clock } else none
  | .connect =>
    some { r with peers := r.peers ++ [some { settings := r.runtime.settings, openedAt := r.clock }] }
  | .handshake index env input =>
    match r.peers[index]? with
    | some (some peer) =>
      if peer.openedAt ≤ env.parseClock ∧ env.parseClock ≤ env.verifyClock ∧
          env.verifyClock ≤ r.clock then
        some { r with
          replay := (finalState (r.accept peer.settings env input)).replay.getD r.replay
          peers := r.peers.set index none
          verified := r.verified ++ r.verification peer.settings env input }
      else none
    | _ => none
  -- the peer is gone, or its time is over
  | .drop index => some { r with peers := r.peers.set index none }
  | .reload config =>
    match r.runtime.reloadAction config with
    | .ok runtime => some { r with runtime }
    | .error _ => some r

def run [Codecs] (r : Remote P) (events : List Event) : Option (Remote P) := events.foldlM step r

variable {r : Remote P}

/-- **What every step keeps, a run keeps.** -/
theorem run_induct [Codecs] {motive : Remote P → Prop} (h : r.run events = some r') (hst : motive r)
    (hsp : ∀ {r₁ r₂ event}, motive r₁ → r₁.step event = some r₂ → motive r₂) : motive r' := by
  induction events generalizing r with
  | nil =>
    obtain rfl := Option.some.inj h
    exact hst
  | cons event events ih =>
    rw [run, List.foldlM_cons, Option.bind_eq_bind, Option.bind_eq_some_iff] at h
    obtain ⟨r₁, hfi, hre⟩ := h
    exact ih hre (hsp hst hfi)

/-- What a step can do: settle one handshake at a clock that the connection has
read between its start and now, or leave the cache and the log alone while the
clock does not go back. -/
theorem step_cases [Codecs] (h : r.step event = some r') :
    (r'.replay = r.replay ∧ r'.verified = r.verified ∧ r.clock ≤ r'.clock) ∨
    ∃ settings env input, env.verifyClock ≤ r.clock ∧ r'.clock = r.clock ∧
      r'.replay = (finalState (r.accept settings env input)).replay.getD r.replay ∧
      r'.verified = r.verified ++ r.verification settings env input := by
  cases event with
  | tick =>
    simp only [step, Option.ite_none_right_eq_some, Option.some.injEq] at h
    obtain ⟨hle, rfl⟩ := h
    exact .inl ⟨rfl, rfl, hle⟩
  | connect | drop =>
    obtain rfl := Option.some.inj h
    exact .inl ⟨rfl, rfl, Int.le_refl _⟩
  | handshake index env input =>
    simp only [step] at h
    split at h
    · simp only [Option.ite_none_right_eq_some, Option.some.injEq] at h
      obtain ⟨⟨_, _, hcl⟩, rfl⟩ := h
      exact .inr ⟨_, env, input, hcl, rfl, rfl, rfl⟩
    · contradiction
  | reload =>
    simp only [step] at h
    split at h <;> obtain rfl := Option.some.inj h <;> exact .inl ⟨rfl, rfl, Int.le_refl _⟩

end Remote

theorem replayWindowSecs_of_buildRuntime [Codecs]
    (hco : applyCliOverridesToConfig config args = .ok accepted)
    (hru : buildRuntime P accepted args = .ok runtime) :
    runtime.replayWindowSecs = accepted.remote.replayWindowSecs ∧
      0 < accepted.remote.replayWindowSecs := by
  refine ⟨?_, parseConfig_replayWindowSecs hco⟩
  have hwi : runtime.replayWindowSecs =
      args.replayWindowSecs.getD accepted.remote.replayWindowSecs := by
    unfold buildRuntime at hru
    cases hse : buildRemoteSettings P accepted args with
    | error => simp [hse] at hru
    | ok =>
      simp only [hse, bind, Except.bind, pure, Except.pure, Except.ok.injEq] at hru
      rw [← hru]
  -- the option was already written into the configuration
  obtain ⟨rfl, -⟩ := parseConfig_eq_ok_iff.mp hco
  rw [hwi]
  cases args.replayWindowSecs <;> rfl

end Espejismo
