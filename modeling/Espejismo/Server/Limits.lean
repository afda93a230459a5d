import Mathlib.Algebra.Group.Nat.Defs
import Espejismo.Error

/-!
# Server.Limits

The limits of the users of a remote (`limits.rs`): a quota of bytes in windows of
a fixed duration, and a rate.  Times are in nanoseconds.
-/

namespace Espejismo

open EStateM

/-! ## The program -/

structure UserLimitConfig where
  quotaBytes : Option Nat := none
  quotaWindow : Nat := 0
  bandwidthBytesPerSec : Option Nat := none
  deriving DecidableEq

structure UserLimitState where
  config : UserLimitConfig
  windowStarted : Nat
  usedBytes : Nat
  nextSend : Nat
  deriving DecidableEq

structure UserLimitRegistry where
  states : String → Option UserLimitState := fun _ => none

def saturatingAdd (a b : Nat) : Nat := min (a + b) (2 ^ 64 - 1)

def UserLimitState.fresh (config : UserLimitConfig) (now : Nat) : UserLimitState :=
  { config, windowStarted := now, usedBytes := 0, nextSend := now }

def UserLimitState.due (state : UserLimitState) (now : Nat) : Bool :=
  state.config.quotaBytes.isSome && state.config.quotaWindow != 0 &&
    decide (state.config.quotaWindow ≤ now - state.windowStarted)

def refreshWindow (state : UserLimitState) (now : Nat) : UserLimitState :=
  if state.due now then { state with windowStarted := now, usedBytes := 0 } else state

namespace UserLimitRegistry

def insert (registry : UserLimitRegistry) (user : String) (state : UserLimitState) :
    UserLimitRegistry :=
  ⟨fun name => if name = user then some state else registry.states name⟩

def new (configs : List (String × UserLimitConfig)) (now : Nat) : UserLimitRegistry :=
  configs.foldl (fun registry entry => registry.insert entry.1 (.fresh entry.2 now)) {}

def stateForUser (registry : UserLimitRegistry) (user : String) (now : Nat) : UserLimitState :=
  (registry.states user).getD (.fresh {} now)

/-- The state of a user as a call for them finds it, with a
window that is due started anew. -/
def current (registry : UserLimitRegistry) (user : String) (now : Nat) : UserLimitState :=
  refreshWindow (registry.stateForUser user now) now

def ensureOpen (user : String) (now : Nat) : EStateM Error UserLimitRegistry Unit := do
  let registry ← get
  let state := registry.current user now
  set (registry.insert user state)
  match state.config.quotaBytes with
  | some limit =>
    if limit ≤ state.usedBytes then throw (.msg "user quota exceeded")
    else return ()
  | none => return ()

/-- The rate of a user, after the quota: when the bytes may go, and when the next
ones may.  `after wake bytes rate` is the time that so many bytes take at a rate,
after `wake`; there is none when it is too large for a duration or for the clock. -/
def throttle (after : (wake bytes rate : Nat) → Option Nat) (user : String) (bytes now : Nat)
    (state : UserLimitState) : EStateM Error UserLimitRegistry (Option Nat) := do
  let registry ← get
  match state.config.bandwidthBytesPerSec with
  | none =>
    set (registry.insert user state)
    return none
  | some rate =>
    let wake := max state.nextSend now
    match after wake bytes rate with
    | none =>
      set (registry.insert user { state with nextSend := wake })
      throw .panic
    | some next =>
      set (registry.insert user { state with nextSend := next })
      return some wake

/-- `account_and_throttle` up to its sleep: the time until which the caller then
sleeps.  The clock is read when the lock is taken and `later` for the rate. -/
def accountAndThrottle (after : (wake bytes rate : Nat) → Option Nat) (user : String)
    (bytes now later : Nat) : EStateM Error UserLimitRegistry (Option Nat) :=
  if bytes = 0 then return none
  else do
    let registry ← get
    let state := registry.current user now
    match state.config.quotaBytes with
    | some limit =>
      let next := saturatingAdd state.usedBytes bytes
      if limit < next then
        set (registry.insert user state)
        throw (.msg "user quota exceeded")
      else
        throttle after user bytes later { state with usedBytes := next }
    | none => throttle after user bytes later state

end UserLimitRegistry

/-! ## What a call does -/

section States

variable {registry : UserLimitRegistry} {user : String} {now bytes : Nat}
  {after : (wake bytes rate : Nat) → Option Nat}

@[simp] theorem insert_states (state : UserLimitState) :
    (registry.insert user state).states user = some state := by
  simp [UserLimitRegistry.insert]

theorem insert_states_of_ne (state : UserLimitState) (h : other ≠ user) :
    (registry.insert user state).states other = registry.states other := by
  simp [UserLimitRegistry.insert, h]

@[simp] theorem refreshWindow_config (state : UserLimitState) :
    (refreshWindow state now).config = state.config := by
  unfold refreshWindow
  split <;> rfl

theorem refreshWindow_usedBytes (state : UserLimitState) :
    (refreshWindow state now).usedBytes = if state.due now then 0 else state.usedBytes := by
  unfold refreshWindow
  split <;> rfl

end States

namespace UserLimitRegistry

variable {registry : UserLimitRegistry} {user : String} {now later bytes : Nat}
  {after : (wake bytes rate : Nat) → Option Nat}

theorem ensureOpen_run :
    (ensureOpen user now).run registry =
      let state := registry.current user now
      if state.config.quotaBytes.any (· ≤ state.usedBytes)
      then .error (.msg "user quota exceeded") (registry.insert user state)
      else .ok () (registry.insert user state) := by
  simp only [ensureOpen, run_bind, run_get, run_set]
  split
  · next limit hq =>
    by_cases hu : limit ≤ (registry.current user now).usedBytes
    · simp [hq, hu]
    · simp [hq, hu]
  · next hq => simp [hq]

theorem throttle_run (state : UserLimitState) {result}
    (h : (throttle after user bytes now state).run registry = result) :
    ∃ state' : UserLimitState, state'.config = state.config ∧
      state'.usedBytes = state.usedBytes ∧
      ((∃ wake, result = .ok wake (registry.insert user state')) ∨
        result = .error .panic (registry.insert user state')) := by
  subst h
  simp only [throttle]
  split
  · exact ⟨state, rfl, rfl, .inl ⟨none, rfl⟩⟩
  · split
    · exact ⟨{ state with nextSend := max state.nextSend now }, rfl, rfl, .inr rfl⟩
    · next next _ => exact ⟨{ state with nextSend := next }, rfl, rfl, .inl ⟨_, rfl⟩⟩

inductive Accounted (registry : UserLimitRegistry) (user : String) (bytes now : Nat) :
    EStateM.Result Error UserLimitRegistry (Option Nat) → Prop
  | refused {limit : Nat} (hq : (registry.current user now).config.quotaBytes = some limit)
      (hov : limit < saturatingAdd (registry.current user now).usedBytes bytes) :
      Accounted registry user bytes now
        (.error (.msg "user quota exceeded") (registry.insert user (registry.current user now)))
  /-- The bytes are within the quota, if there is one; the rate may still fail. -/
  | charged {state : UserLimitState} {result : EStateM.Result Error UserLimitRegistry (Option Nat)}
      (hc : state.config = (registry.current user now).config)
      (hu : ∀ limit, state.config.quotaBytes = some limit →
        state.usedBytes = saturatingAdd (registry.current user now).usedBytes bytes ∧
          state.usedBytes ≤ limit)
      (hr : (∃ wake, result = .ok wake (registry.insert user state)) ∨
        result = .error .panic (registry.insert user state)) :
      Accounted registry user bytes now result

theorem accounted_of_run {result} (hb : bytes ≠ 0)
    (h : (accountAndThrottle after user bytes now later).run registry = result) :
    Accounted registry user bytes now result := by
  rw [accountAndThrottle, if_neg hb] at h
  simp only [run_bind, run_get] at h
  split at h
  · next limit hq =>
    split at h
    · next hov =>
      subst h
      exact .refused hq hov
    · next hov =>
      obtain ⟨state, hc, hu, hr⟩ := throttle_run _ h
      refine .charged hc (fun limit' hq' => ?_) hr
      rw [hc, hq] at hq'
      cases hq'
      exact ⟨hu, hu ▸ Nat.le_of_not_lt hov⟩
  · next hq =>
    obtain ⟨state, hc, hu, hr⟩ := throttle_run _ h
    refine .charged hc (fun limit' hq' => ?_) hr
    rw [hc, hq] at hq'
    cases hq'

/-! ## Whom a call changes -/

theorem ensureOpen_other (h : other ≠ user) :
    (finalState ((ensureOpen user now).run registry)).states other = registry.states other := by
  rw [ensureOpen_run]
  dsimp only
  split <;> exact insert_states_of_ne _ h

theorem accountAndThrottle_other (h : other ≠ user) :
    (finalState ((accountAndThrottle after user bytes now later).run registry)).states other =
      registry.states other := by
  by_cases hb : bytes = 0
  · rw [accountAndThrottle, if_pos hb]
    rfl
  generalize hru : (accountAndThrottle after user bytes now later).run registry = result
  cases accounted_of_run hb hru with
  | refused => exact insert_states_of_ne _ h
  | charged hc hu hr =>
    rcases hr with ⟨wake, rfl⟩ | rfl <;> exact insert_states_of_ne _ h

theorem accountAndThrottle_refused
    (h : (accountAndThrottle after user bytes now later).run registry =
      .error (.msg text) registry') :
    registry' = registry.insert user (registry.current user now) := by
  by_cases hb : bytes = 0
  · rw [accountAndThrottle, if_pos hb] at h
    cases h
  · cases accounted_of_run hb h with
    | refused => rfl
    | charged hc hu hr => rcases hr with ⟨wake, hr⟩ | hr <;> cases hr

theorem usedBytes_of_new
    (h : (new configs now).states user = some state) : state.usedBytes = 0 := by
  have hfo : ∀ (configs : List (String × UserLimitConfig)) (registry : UserLimitRegistry),
      (∀ name state, registry.states name = some state → state.usedBytes = 0) →
      ∀ name state, (configs.foldl (fun registry entry =>
        registry.insert entry.1 (.fresh entry.2 now)) registry).states name = some state →
        state.usedBytes = 0 := by
    intro configs
    induction configs with
    | nil => exact fun _ hrg => hrg
    | cons entry configs ih =>
      intro registry hrg
      refine ih _ fun name state hs => ?_
      by_cases hna : name = entry.1
      · rw [hna, insert_states] at hs
        cases hs
        rfl
      · rw [insert_states_of_ne _ hna] at hs
        exact hrg name state hs
  refine hfo configs {} (fun name state hs => ?_) user state h
  cases hs

end UserLimitRegistry

end Espejismo
