import Espejismo.Crypto.Base64
import Espejismo.Crypto.Handshake.Sound
import Espejismo.Data.Machine
import Espejismo.Server.Limits
import Espejismo.Server.Remote

/-!
# Server.Tunnels

The tunnels and streams of a running remote across its reloads (`handler.rs`,
`main.rs`).  A tunnel takes its user from the handshake, which reads the settings
the connection was accepted with; each of its streams takes the limits of the
settings in force when it is opened.  A registry has no limits for a name it does
not know.
-/

namespace Espejismo

open Binary Machine List Option
open scoped Standard

/-! ## Limits of a configuration -/

def nanosPerSec : Nat := 10 ^ 9

def buildUserLimits (config : EspejismoConfig) (now : Nat) : UserLimitRegistry :=
  .new
    (config.remote.users.map fun user =>
      (user.name,
        { quotaBytes := user.quota.bytes
          quotaWindow := user.quota.windowSecs * nanosPerSec
          bandwidthBytesPerSec := user.bytesPerSec }))
    now

def UserLimitRegistry.limitsOf (registry : UserLimitRegistry) (user : String) : UserLimitConfig :=
  match registry.states user with
  | some state => state.config
  | none => {}

def UserLimitConfig.limited (limits : UserLimitConfig) : Bool :=
  limits.quotaBytes.isSome || limits.bandwidthBytesPerSec.isSome

/-- No more bytes in a window, no shorter windows, and no higher rate.  A window of
no duration never ends. -/
def UserLimitConfig.AtLeastAsStrict (limits old : UserLimitConfig) : Prop :=
  (∀ quota, old.quotaBytes = some quota →
    ∃ quota', limits.quotaBytes = some quota' ∧ quota' ≤ quota ∧
      (limits.quotaWindow = 0 ∨ old.quotaWindow ≠ 0 ∧ old.quotaWindow ≤ limits.quotaWindow)) ∧
  ∀ rate, old.bandwidthBytesPerSec = some rate →
    ∃ rate', limits.bandwidthBytesPerSec = some rate' ∧ rate' ≤ rate

def EspejismoConfig.userNames (config : EspejismoConfig) : List String :=
  config.remote.users.map (·.name)

/-! ## The running remote -/

/-- Settings that are or were in force, and the configuration they were built
from. -/
structure Generation (P : Platform) where
  settings : RemoteSettings P
  config : EspejismoConfig
  limits : UserLimitRegistry

structure Connection where
  generation : Nat
  user : Option String := none
  isOpen : Bool := true
  deriving DecidableEq

/-- A logical stream, relayed or refused under the limits of its generation. -/
structure Stream where
  connection : Nat
  user : String
  generation : Nat
  refused : Bool
  deriving DecidableEq

structure Tunnels (P : Platform) where
  runtime : RemoteRuntime P
  clock : Nat
  generations : List (Generation P)
  connections : List Connection := []
  streams : List Stream := []

inductive TunnelEvent where
  | tick (now : Nat)
  | connect
  | authenticate (i : Nat) (user : String)
  | close (i : Nat)
  | reload (config : EspejismoConfig)
  | openStream (i : Nat)
  | account (i : Nat) (bytes later : Nat)

namespace Tunnels

variable {P : Platform}

def start (runtime : RemoteRuntime P) (config : EspejismoConfig) (now : Nat) : Tunnels P :=
  { runtime
    clock := now
    generations :=
      [{ settings := runtime.settings, config, limits := buildUserLimits config now }] }

def latest (s : Tunnels P) : Nat := s.generations.length - 1

def touch (s : Tunnels P) (i : Nat) (g : Generation P) (limits : UserLimitRegistry) :
    List (Generation P) :=
  s.generations.set i { g with limits }

def step [Codecs] (after : (wake bytes rate : Nat) → Option Nat) (s : Tunnels P) :
    TunnelEvent → Option (Tunnels P)
  | .tick now => if s.clock ≤ now then some { s with clock := now } else none
  | .connect => some { s with connections := s.connections ++ [{ generation := s.latest }] }
  | .authenticate i user => do
    let conn ← s.connections[i]?
    let g ← s.generations[conn.generation]?
    if conn.isOpen ∧ conn.user = none ∧ user ∈ g.settings.users.map (·.name) then
      some { s with connections := s.connections.set i { conn with user := some user } }
    else none
  | .close i => do
    let conn ← s.connections[i]?
    some { s with connections := s.connections.set i { conn with isOpen := false } }
  | .reload config =>
    match s.runtime.reloadAction config with
    | .ok runtime => some { s with
        runtime
        generations := s.generations ++
          [{ settings := runtime.settings, config, limits := buildUserLimits config s.clock }] }
    | .error _ => some s
  | .openStream i => do
    let conn ← s.connections[i]?
    let user ← conn.user
    let g ← s.generations[s.latest]?
    if conn.isOpen then
      let result := (UserLimitRegistry.ensureOpen user s.clock).run g.limits
      some { s with
        generations := s.touch s.latest g (finalState result)
        streams := s.streams ++
          [{ connection := i, user, generation := s.latest
             refused := match result with | .ok _ _ => false | .error _ _ => true }] }
    else none
  | .account i bytes later => do
    let stream ← s.streams[i]?
    let g ← s.generations[stream.generation]?
    if stream.refused = false ∧ s.clock ≤ later then
      some { s with
        clock := later
        generations := s.touch stream.generation g
          (finalState ((UserLimitRegistry.accountAndThrottle after stream.user bytes s.clock
            later).run g.limits)) }
    else none

def limitsAt (s : Tunnels P) (i : Nat) (user : String) : UserLimitConfig :=
  match s.generations[i]? with
  | some g => g.limits.limitsOf user
  | none => {}

def namesAt (s : Tunnels P) (i : Nat) : Option (List String) :=
  (s.generations[i]?).map (·.config.userNames)

end Tunnels

/-! ## One step -/

/-- The users of a registry are held to the same limits as those of another. -/
def UserLimitRegistry.SameLimits (registry registry' : UserLimitRegistry) : Prop :=
  ∀ user, registry'.limitsOf user = registry.limitsOf user

section SameLimits

variable {registry : UserLimitRegistry} {user : String} {now later bytes : Nat}
  {after : (wake bytes rate : Nat) → Option Nat}

open UserLimitRegistry

theorem current_config (registry : UserLimitRegistry) (user : String) (now : Nat) :
    (registry.current user now).config = registry.limitsOf user := by
  unfold current limitsOf stateForUser
  cases registry.states user <;> simp [UserLimitState.fresh]

theorem sameLimits_insert (h : state.config = (registry.current user now).config) :
    SameLimits registry (registry.insert user state) := by
  intro other
  by_cases hoh : other = user
  · subst hoh
    rw [limitsOf, insert_states, ← current_config registry other now, ← h]
  · rw [limitsOf, insert_states_of_ne _ hoh, limitsOf]

theorem sameLimits_ensureOpen :
    SameLimits registry (finalState ((ensureOpen user now).run registry)) := by
  rw [ensureOpen_run]
  dsimp only
  split <;> exact sameLimits_insert rfl

theorem sameLimits_accountAndThrottle :
    SameLimits registry
      (finalState ((accountAndThrottle after user bytes now later).run registry)) := by
  by_cases hby : bytes = 0
  · rw [accountAndThrottle, if_pos hby]
    exact fun _ => rfl
  generalize hru : (accountAndThrottle after user bytes now later).run registry = result
  cases accounted_of_run hby hru with
  | refused => exact sameLimits_insert rfl
  | charged hcn huse hrs =>
    rcases hrs with ⟨wake, rfl⟩ | rfl <;> exact sameLimits_insert hcn

end SameLimits

namespace Tunnels

variable {P : Platform} {after : (wake bytes rate : Nat) → Option Nat} {s s' : Tunnels P}
  {e : TunnelEvent}

inductive Transition [Codecs] (s : Tunnels P) : TunnelEvent → Tunnels P → Prop
  | tick {now} : Transition s (.tick now) { s with clock := now }
  | connect :
      Transition s .connect { s with connections := s.connections ++ [{ generation := s.latest }] }
  | authenticate {i user conn g} (hc : s.connections[i]? = some conn)
      (hg : s.generations[conn.generation]? = some g) (hno : conn.user = none)
      (hu : user ∈ g.settings.users.map (·.name)) :
      Transition s (.authenticate i user)
        { s with connections := s.connections.set i { conn with user := some user } }
  | close {i conn} (hc : s.connections[i]? = some conn) :
      Transition s (.close i)
        { s with connections := s.connections.set i { conn with isOpen := false } }
  | reload {config runtime} (hrl : s.runtime.reloadAction config = .ok runtime) :
      Transition s (.reload config) { s with
        runtime
        generations := s.generations ++
          [{ settings := runtime.settings, config, limits := buildUserLimits config s.clock }] }
  | reloadFailed {config} : Transition s (.reload config) s
  | openStream {i conn user g refused limits} (hc : s.connections[i]? = some conn)
      (hu : conn.user = some user) (ho : conn.isOpen = true)
      (hg : s.generations[s.latest]? = some g) (hli : g.limits.SameLimits limits) :
      Transition s (.openStream i) { s with
        generations := s.touch s.latest g limits
        streams := s.streams ++ [{ connection := i, user, generation := s.latest, refused }] }
  | account {i bytes later stream g limits} (hst : s.streams[i]? = some stream)
      (hg : s.generations[stream.generation]? = some g) (hli : g.limits.SameLimits limits) :
      Transition s (.account i bytes later) { s with
        clock := later
        generations := s.touch stream.generation g limits }

theorem transition_of_step [Codecs] (h : s.step after e = some s') : Transition s e s' := by
  cases e with
  | tick =>
    simp only [step, ite_none_right_eq_some, Option.some.injEq] at h
    obtain ⟨-, rfl⟩ := h
    exact .tick
  | connect =>
    cases h
    exact .connect
  | authenticate =>
    simp only [step, bind_eq_bind, bind_eq_some_iff, ite_none_right_eq_some, Option.some.injEq] at h
    obtain ⟨conn, hc, g, hg, ⟨-, hno, hu⟩, rfl⟩ := h
    exact .authenticate hc hg hno hu
  | close =>
    simp only [step, bind_eq_bind, bind_eq_some_iff, Option.some.injEq] at h
    obtain ⟨conn, hc, rfl⟩ := h
    exact .close hc
  | reload =>
    simp only [step] at h
    split at h
    · next hrl =>
      cases h
      exact .reload hrl
    · cases h
      exact .reloadFailed
  | openStream =>
    simp only [step, bind_eq_bind, bind_eq_some_iff, ite_none_right_eq_some, Option.some.injEq] at h
    obtain ⟨conn, hc, user, hu, g, hg, ho, rfl⟩ := h
    exact .openStream hc hu ho hg sameLimits_ensureOpen
  | account =>
    simp only [step, bind_eq_bind, bind_eq_some_iff, ite_none_right_eq_some, Option.some.injEq] at h
    obtain ⟨stream, hst, g, hg, -, rfl⟩ := h
    exact .account hst hg sameLimits_accountAndThrottle

/-- The settings that were in force keep their users and limits. -/
structure Frame (s s' : Tunnels P) : Prop where
  length_le : s.generations.length ≤ s'.generations.length
  limitsAt : ∀ i user, i < s.generations.length → s'.limitsAt i user = s.limitsAt i user
  namesAt : ∀ i, i < s.generations.length → s'.namesAt i = s.namesAt i

theorem Frame.of_generations_eq (h : s'.generations = s.generations) : Frame s s' where
  length_le := by rw [h]
  limitsAt i user _ := by rw [Tunnels.limitsAt, Tunnels.limitsAt, h]
  namesAt i _ := by rw [Tunnels.namesAt, Tunnels.namesAt, h]

theorem Frame.of_append (h : s'.generations = s.generations ++ [g]) :
    Frame s s' where
  length_le := by simp [h]
  limitsAt i user hi := by
    rw [Tunnels.limitsAt, Tunnels.limitsAt, h, getElem?_append_left hi]
  namesAt i hi := by rw [Tunnels.namesAt, Tunnels.namesAt, h, getElem?_append_left hi]

variable {i : Nat}

theorem Frame.of_touch (hg : s.generations[i]? = some g) (hli : g.limits.SameLimits limits)
    (h : s'.generations = s.touch i g limits) : Frame s s' where
  length_le := by simp [h, touch]
  limitsAt j user hj := by
    rw [Tunnels.limitsAt, Tunnels.limitsAt, h, touch]
    by_cases hij : i = j
    · subst hij
      rw [getElem?_set_self hj, hg]
      exact hli user
    · rw [getElem?_set_ne hij]
  namesAt j hj := by
    rw [Tunnels.namesAt, Tunnels.namesAt, h, touch]
    by_cases hij : i = j
    · subst hij
      rw [getElem?_set_self hj, hg]
      rfl
    · rw [getElem?_set_ne hij]

theorem frame_of_step [Codecs] (h : s.step after e = some s') : Frame s s' := by
  cases transition_of_step h with
  | tick | connect | authenticate | close | reloadFailed => exact .of_generations_eq rfl
  | reload => exact .of_append rfl
  | openStream hc hu ho hg hli | account hst hg hli =>
    exact .of_touch hg hli rfl

/-! ## Every run -/

/-- A reload keeps the users that are connected and have limits; so do all reloads
since a connection was accepted whose handshake gives such a user. -/
def KeepsLimitedUsers (s : Tunnels P) : TunnelEvent → Prop
  | .reload config =>
    ∀ conn ∈ s.connections, conn.isOpen → ∀ user ∈ conn.user,
      (s.limitsAt conn.generation user).limited → user ∈ config.userNames
  | .authenticate i user =>
    ∀ conn ∈ s.connections[i]?, (s.limitsAt conn.generation user).limited →
      ∀ g ∈ s.generations.drop (conn.generation + 1), user ∈ g.config.userNames
  | _ => True

/-- A user with limits under one generation is in the configurations after it, up
to another. -/
def Held (s : Tunnels P) (i j : Nat) (user : String) : Prop :=
  (s.limitsAt i user).limited = true →
    ∀ k names, i < k → k ≤ j → s.namesAt k = some names → user ∈ names

theorem Held.frame {j : Nat} {user : String} (h : Held s i j user) (hf : Frame s s')
    (hi : i < s.generations.length) (hj : j < s.generations.length) : Held s' i j user := by
  intro hl k names hk hkj hn
  rw [hf.limitsAt i user hi] at hl
  rw [hf.namesAt k (by omega)] at hn
  exact h hl k names hk hkj hn

/-- The users of the open tunnels are held up to now, and those of the streams were
when the stream was opened. -/
structure Kept (s : Tunnels P) : Prop where
  inForce : 0 < s.generations.length
  accepted : ∀ conn ∈ s.connections, conn.generation < s.generations.length
  opened : ∀ stream ∈ s.streams, stream.generation < s.generations.length
  tunnels : ∀ conn ∈ s.connections, conn.isOpen = true → ∀ user, conn.user = some user →
    Held s conn.generation s.latest user
  streams : ∀ stream ∈ s.streams, ∃ conn, s.connections[stream.connection]? = some conn ∧
    conn.user = some stream.user ∧ Held s conn.generation stream.generation stream.user

/-- A connection whose user is known stays what it was, open or not. -/
def SameUsers (s s' : Tunnels P) : Prop :=
  ∀ (i : Nat) (conn : Connection) (user : String), s.connections[i]? = some conn →
    conn.user = some user →
    ∃ conn', s'.connections[i]? = some conn' ∧ conn'.user = some user ∧
      conn'.generation = conn.generation

theorem SameUsers.of_eq (h : s'.connections = s.connections) : SameUsers s s' :=
  fun _ conn _ hc hu => ⟨conn, by rw [h, hc], hu, rfl⟩

theorem SameUsers.of_append (h : s'.connections = s.connections ++ [conn]) : SameUsers s s' := by
  intro i old user hold hu
  obtain ⟨hi, -⟩ := List.getElem?_eq_some_iff.mp hold
  exact ⟨old, by rw [h, List.getElem?_append_left hi, hold], hu, rfl⟩

theorem SameUsers.of_set (hc : s.connections[i]? = some conn) (hsa : ∀ user, conn.user = some user →
      conn'.user = some user ∧ conn'.generation = conn.generation)
    (h : s'.connections = s.connections.set i conn') : SameUsers s s' := by
  intro j other user hoh hu
  by_cases hij : i = j
  · subst hij
    rw [hc] at hoh
    cases hoh
    obtain ⟨hi, -⟩ := List.getElem?_eq_some_iff.mp hc
    exact ⟨conn', by rw [h, List.getElem?_set_self hi], hsa user hu⟩
  · exact ⟨other, by rw [h, List.getElem?_set_ne hij, hoh], hu, rfl⟩

namespace Kept

theorem latest_lt (hs : Kept s) : s.latest < s.generations.length := by
  have hpos := hs.inForce
  unfold latest
  omega

theorem streams_step (hs : Kept s) (hf : Frame s s') (hsa : SameUsers s s') :
    ∀ stream ∈ s.streams, ∃ conn, s'.connections[stream.connection]? = some conn ∧
      conn.user = some stream.user ∧ Held s' conn.generation stream.generation stream.user := by
  intro stream hst
  obtain ⟨conn, hc, hu, hh⟩ := hs.streams stream hst
  obtain ⟨conn', hc', hu', hge⟩ := hsa _ conn _ hc hu
  refine ⟨conn', hc', hu', ?_⟩
  rw [hge]
  exact hh.frame hf (hs.accepted conn (mem_of_getElem? hc)) (hs.opened stream hst)

theorem replace (hs : Kept s)
    (hc : s.connections[i]? = some conn) (hge : conn'.generation = conn.generation)
    (hsa : ∀ user, conn.user = some user → conn'.user = some user)
    (hh : conn'.isOpen = true → ∀ user, conn'.user = some user →
      Held s conn'.generation s.latest user) :
    Kept { s with connections := s.connections.set i conn' } where
  inForce := hs.inForce
  accepted := by
    intro other hoh
    rcases mem_or_eq_of_mem_set hoh with hold | rfl
    · exact hs.accepted other hold
    · rw [hge]
      exact hs.accepted conn (mem_of_getElem? hc)
  opened := hs.opened
  tunnels := by
    intro other hoh ho user hu
    rcases mem_or_eq_of_mem_set hoh with hold | rfl
    · exact hs.tunnels other hold ho user hu
    · exact hh ho user hu
  streams := hs.streams_step (.of_generations_eq rfl)
    (.of_set hc (fun user hu => ⟨hsa user hu, hge⟩) rfl)

theorem step [Codecs] (hs : Kept s) (hok : KeepsLimitedUsers s e) (h : s.step after e = some s') :
    Kept s' := by
  have hf := frame_of_step h
  have hif : 0 < s'.generations.length := Nat.lt_of_lt_of_le hs.inForce hf.length_le
  have ha (conn) (hc : conn ∈ s.connections) :
      conn.generation < s'.generations.length :=
    Nat.lt_of_lt_of_le (hs.accepted conn hc) hf.length_le
  have hon (stream) (hst : stream ∈ s.streams) : stream.generation < s'.generations.length :=
    Nat.lt_of_lt_of_le (hs.opened stream hst) hf.length_le
  have ht (conn) (hc : conn ∈ s.connections) (ho : conn.isOpen = true) (user)
      (hu : conn.user = some user) : Held s' conn.generation s.latest user :=
    (hs.tunnels conn hc ho user hu).frame hf (hs.accepted conn hc) hs.latest_lt
  have hla (hln : s'.generations.length = s.generations.length) : s'.latest = s.latest := by
    rw [latest, latest, hln]
  cases transition_of_step h with
  | tick =>
    exact ⟨hif, ha, hon, ht, hs.streams_step hf (.of_eq rfl)⟩
  | connect =>
    refine ⟨hif, fun conn hc => ?_, hon, fun conn hc ho user hu => ?_,
      hs.streams_step hf (.of_append rfl)⟩
    · rcases mem_append.mp hc with hold | hne
      · exact ha conn hold
      · cases mem_singleton.mp hne
        exact hs.latest_lt
    · rcases mem_append.mp hc with hold | hne
      · exact ht conn hold ho user hu
      · cases mem_singleton.mp hne
        cases hu
  | @authenticate i name conn g hc hg hno =>
    refine hs.replace hc rfl (by simp [hno]) fun _ user hu => ?_
    -- the user has just been found, and was kept since the connection was accepted
    cases hu
    intro hl k names hk hle hn
    obtain ⟨later, hlr, rfl⟩ := map_eq_some_iff.mp hn
    refine hok conn hc hl later ?_
    rw [mem_iff_getElem?]
    exact ⟨k - (conn.generation + 1), by
      rw [getElem?_drop, Nat.add_sub_cancel' hk]
      exact hlr⟩
  | close hc => exact hs.replace hc rfl (fun _ hu => hu) nofun
  | reload =>
    refine ⟨hif, ha, hon, fun conn hc ho user hu => ?_, hs.streams_step hf (.of_eq rfl)⟩
    intro hl k names hk hle hn
    by_cases hold : k ≤ s.latest
    · exact ht conn hc ho user hu hl k names hk hold hn
    -- the new configuration
    have hlt := hs.latest_lt
    have hk : k = s.generations.length := by
      simp only [latest, length_append, length_singleton] at hle hold hlt
      omega
    subst hk
    simp only [namesAt, getElem?_concat_length, map_some, Option.some.injEq] at hn
    rw [hf.limitsAt _ _ (hs.accepted conn hc)] at hl
    exact hn ▸ hok conn hc ho user hu hl
  | reloadFailed => exact hs
  | @openStream i conn name g refused limits hc hna ho =>
    refine ⟨hif, ha, fun stream hst => ?_, fun other hoh ho' user hu => ?_,
      fun stream hst => ?_⟩
    · rcases mem_append.mp hst with hold | hne
      · exact hon stream hold
      · cases mem_singleton.mp hne
        exact Nat.lt_of_lt_of_le hs.latest_lt hf.length_le
    · rw [hla (by simp [touch])]
      exact ht other hoh ho' user hu
    · rcases mem_append.mp hst with hold | hne
      · exact hs.streams_step hf (.of_eq rfl) stream hold
      · cases mem_singleton.mp hne
        exact ⟨conn, hc, hna, ht conn (mem_of_getElem? hc) ho name hna⟩
  | account =>
    refine ⟨hif, ha, hon, fun conn hc ho user hu => ?_, hs.streams_step hf (.of_eq rfl)⟩
    rw [hla (by simp [touch])]
    exact ht conn hc ho user hu

end Kept

theorem kept_of_reach [Codecs] {runtime : RemoteRuntime P}
    (h : Reach (step after) KeepsLimitedUsers (start runtime config now) s) : Kept s :=
  h.invariant ⟨by simp [start], by simp [start], by simp [start], by simp [start],
    by simp [start]⟩ fun _ _ _ hs hok hsp => hs.step hok hsp

/-- **A removed user is not promoted**, in every run whose reloads keep the users
that are connected and have limits: a stream that is opened after a reload without
the user of its tunnel is refused, or held to limits at least as strict as those
of the settings the tunnel was authenticated with. -/
theorem removed_users_not_promoted [Codecs] (after : (wake bytes rate : Nat) → Option Nat)
    {runtime : RemoteRuntime P} {config : EspejismoConfig} {now : Nat}
    (hr : Reach (step after) KeepsLimitedUsers (start runtime config now) s) :
    ∀ stream ∈ s.streams, ∃ conn, s.connections[stream.connection]? = some conn ∧
      conn.user = some stream.user ∧
      ((∃ k names, conn.generation < k ∧ k ≤ stream.generation ∧ s.namesAt k = some names ∧
          stream.user ∉ names) →
        stream.refused = true ∨
          (s.limitsAt stream.generation stream.user).AtLeastAsStrict
            (s.limitsAt conn.generation stream.user)) := by
  intro stream hst
  obtain ⟨conn, hc, hu, hh⟩ := (kept_of_reach hr).streams stream hst
  refine ⟨conn, hc, hu, ?_⟩
  rintro ⟨k, names, hk, hle, hn, hrm⟩
  have hfr : (s.limitsAt conn.generation stream.user).limited = false := by
    rw [Bool.eq_false_iff]
    exact fun hl => hrm (hh hl k names hk hle hn)
  refine .inr ⟨fun quota hqu => ?_, fun rate hra => ?_⟩
  · simp [UserLimitConfig.limited, hqu] at hfr
  · simp [UserLimitConfig.limited, hra] at hfr

section Runs

def oneUserConfig (name : String) (bytes : Option Nat) : EspejismoConfig :=
  { remote := { users := [{ name, psk := "0123456789abcdef", quota := { bytes } }] } }

def oneUserRuntime (P : Platform) (name : String) : RemoteRuntime P :=
  { settings :=
      { users :=
          [{ name, config := HandshakeConfig.new P (ascii "0123456789abcdef") 30 1024 12 }] }
    replayWindowSecs := 60
    reloadArgs := {} }

instance (s : Tunnels P) : (e : TunnelEvent) → Decidable (KeepsLimitedUsers s e)
  | .reload config => inferInstanceAs (Decidable (∀ conn ∈ s.connections, conn.isOpen →
      ∀ user ∈ conn.user, (s.limitsAt conn.generation user).limited → user ∈ config.userNames))
  | .authenticate i user => inferInstanceAs (Decidable (∀ conn ∈ s.connections[i]?,
      (s.limitsAt conn.generation user).limited →
        ∀ g ∈ s.generations.drop (conn.generation + 1), user ∈ g.config.userNames))
  | .tick _ | .connect | .close _ | .openStream _ | .account .. => inferInstanceAs (Decidable True)

theorem removed_users_not_promoted_unlimited :
    ∃ s : Tunnels (.reference .release),
      Reach (step fun _ _ _ => none) KeepsLimitedUsers
          (start (oneUserRuntime _ "alice") (oneUserConfig "alice" none) 0) s ∧
        s.namesAt 1 = some ["bob"] ∧
        ∃ stream ∈ s.streams, stream.user = "alice" ∧ stream.generation = 1 ∧
          (stream.refused = true ∨
            (s.limitsAt 1 "alice").AtLeastAsStrict (s.limitsAt 0 "alice")) := by
  obtain ⟨s, hr, hco, hsr, hn⟩ := exists_of_run (step fun _ _ _ => none) KeepsLimitedUsers
      (start (oneUserRuntime (.reference .release) "alice") (oneUserConfig "alice" none) 0)
      (fun s => s.connections = [{ generation := 0, user := some "alice" }] ∧
        s.streams = [{ connection := 0, user := "alice", generation := 1, refused := false }] ∧
        s.namesAt 1 = some ["bob"])
      [.connect, .authenticate 0 "alice", .reload (oneUserConfig "bob" none), .openStream 0]
      (by decide +kernel)
  have hme : { connection := 0, user := "alice", generation := 1, refused := false } ∈ s.streams := by
    rw [hsr]
    exact mem_singleton_self _
  obtain ⟨conn, hc, -, hsc⟩ := removed_users_not_promoted (fun _ _ _ => none) hr _ hme
  rw [hco] at hc
  cases hc
  exact ⟨s, hr, hn, _, hme, rfl, rfl,
    hsc ⟨1, ["bob"], Nat.one_pos, Nat.le_refl _, hn, by decide⟩⟩

/-- A reload without a user who has a quota gives the streams of their open tunnel
no quota at all. -/
theorem removed_user_promoted :
    applyCliOverridesToConfig (oneUserConfig "alice" (some 10)) {} =
        .ok (oneUserConfig "alice" (some 10)) ∧
      buildRuntime (.reference .release) (oneUserConfig "alice" (some 10)) {} =
        .ok (oneUserRuntime _ "alice") ∧
      ∃ s : Tunnels (.reference .release),
        Reach (step fun _ _ _ => none) Any
            (start (oneUserRuntime _ "alice") (oneUserConfig "alice" (some 10)) 0) s ∧
          s.connections = [{ generation := 0, user := some "alice" }] ∧
          s.streams = [{ connection := 0, user := "alice", generation := 1, refused := false }] ∧
          s.namesAt 1 = some ["bob"] ∧
          ¬(s.limitsAt 1 "alice").AtLeastAsStrict (s.limitsAt 0 "alice") := by
  refine ⟨parseConfig_eq_ok_iff.mpr ⟨rfl, by decide +kernel, none, rfl⟩, by rfl, ?_⟩
  obtain ⟨s, hr, hco, hsr, hn, hold, hne⟩ := exists_of_run (step fun _ _ _ => none) Any
      (start (oneUserRuntime (.reference .release) "alice") (oneUserConfig "alice" (some 10)) 0)
      (fun s => s.connections = [{ generation := 0, user := some "alice" }] ∧
        s.streams = [{ connection := 0, user := "alice", generation := 1, refused := false }] ∧
        s.namesAt 1 = some ["bob"] ∧ (s.limitsAt 0 "alice").quotaBytes = some 10 ∧
        (s.limitsAt 1 "alice").quotaBytes = none)
      [.connect, .authenticate 0 "alice", .reload (oneUserConfig "bob" (some 10)), .openStream 0,
        .account 0 1000 0]
      (by decide +kernel)
  refine ⟨s, hr, hco, hsr, hn, fun hsc => ?_⟩
  obtain ⟨quota, hqu, -⟩ := hsc.1 10 hold
  rw [hne] at hqu
  cases hqu

end Runs

end Tunnels

end Espejismo
