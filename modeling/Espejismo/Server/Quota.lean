import Espejismo.Data.Windows
import Espejismo.Server.Limits
import Espejismo.Transport.Copy

/-!
# Server.Quota

The stream handlers of a remote over one registry of limits (`handler.rs`,
`relay.rs`): TCP relays that meter each chunk they read, and UDP handlers that
account a datagram before it is relayed and its answer before it is written.
The handlers run interleaved, and their calls see a clock that does not go back.
-/

namespace Espejismo.Quota

open Copy Windows Option

/-! ## One handler -/

inductive DatagramPhase where
  | request (payload : List UInt8)
  | relaying
  | response (answer : List UInt8)
  | writing (rest : List UInt8)
  | finished (error : Option Error)
  deriving DecidableEq

/-- The handler of a datagram; the side `a` is the client. -/
structure Datagram where
  phase : DatagramPhase
  /-- What was handed to the relay, and what of the answer was written. -/
  forwarded : Both (List UInt8) := ⟨[], []⟩
  deriving DecidableEq

inductive DatagramEvent where
  | relayed (answer : List UInt8)
  | relayFailed (error : Error)
  | wrote (n : Nat)
  | writeFailed
  | closed
  deriving DecidableEq

def Datagram.step (d : Datagram) : DatagramEvent → Option Datagram
  | .relayed answer =>
    match d.phase with
    | .relaying => some { d with phase := .response answer }
    | _ => none
  | .relayFailed error =>
    match d.phase with
    | .relaying => some { d with phase := .finished (some error) }
    | _ => none
  | .wrote n =>
    match d.phase with
    | .writing rest => some { d with
        phase := .writing (rest.drop n)
        forwarded := d.forwarded.set .b (d.forwarded.of .b ++ rest.take n) }
    | _ => none
  | .writeFailed =>
    match d.phase with
    | .writing _ => some { d with phase := .finished (some .io) }
    | _ => none
  | .closed =>
    match d.phase with
    | .writing [] => some { d with phase := .finished none }
    | _ => none

def Datagram.metered (d : Datagram) (error : Option Error) : Option Datagram :=
  match d.phase, error with
  | .request _, some error | .response _, some error =>
    some { d with phase := .finished (some error) }
  | .request payload, none => some { d with
      phase := .relaying
      forwarded := d.forwarded.set .a (d.forwarded.of .a ++ payload) }
  | .response answer, none =>
    if 65535 < answer.length then
      some { d with phase := .finished (some (.msg "UDP response too large")) }
    else some { d with phase := .writing answer }
  | _, _ => none

inductive Work where
  | tcp (copy : Copy.State)
  | udp (datagram : Datagram)
  deriving DecidableEq

inductive WorkEvent where
  | copy (e : Copy.Event)
  | datagram (e : DatagramEvent)
  deriving DecidableEq

namespace Work

/-- The side and the bytes of the account call the handler is in. -/
def charge : Work → Option (Side × List UInt8)
  | .tcp copy =>
    match copy.phase with
    | .metering side => some (side, copy.pending.of side)
    | _ => none
  | .udp d =>
    match d.phase with
    | .request payload => some (.a, payload)
    | .response answer => some (.b, answer)
    | _ => none

def metered : Work → Option Error → Option Work
  | .tcp copy, error => (Copy.step copy (.metered error)).map .tcp
  | .udp d, error => (d.metered error).map .udp

def step : Work → WorkEvent → Option Work
  | .tcp _, .copy (.metered _) => none
  | .tcp copy, .copy e => (Copy.step copy e).map .tcp
  | .udp d, .datagram e => (d.step e).map .udp
  | _, _ => none

def forwarded : Work → Side → List UInt8
  | .tcp copy, side => copy.written.of side.other
  | .udp d, side => d.forwarded.of side

end Work

/-! ## All handlers -/

structure Task where
  user : String
  work : Work
  accounted : Both (List UInt8) := ⟨[], []⟩
  /-- The account call has charged its bytes and sleeps. -/
  wake : Option Nat := none
  deriving DecidableEq

structure System where
  registry : UserLimitRegistry
  clock : Nat
  tasks : List Task := []
  log : List (Entry String) := []

def System.start (configs : List (String × UserLimitConfig)) (now : Nat) : System :=
  { registry := .new configs now, clock := now }

inductive Event where
  | tick (now : Nat)
  /-- A stream of a user: for TCP, or with a datagram. -/
  | openStream (user : String) (datagram : Option (List UInt8))
  /-- A handler's account call gets the lock; the clock is read again later. -/
  | account (i : Nat) (later : Nat)
  | resume (i : Nat)
  | work (i : Nat) (e : WorkEvent)
  deriving DecidableEq

def Task.charge (task : Task) (side : Side) (bytes : List UInt8) : Task :=
  { task with accounted := task.accounted.set side (task.accounted.of side ++ bytes) }

def Task.opened (user : String) : (datagram : Option (List UInt8)) → Task
  | none => { user, work := .tcp {} }
  | some payload => { user, work := .udp { phase := .request payload } }

namespace System

def resets (s : System) (user : String) : List (Entry String) :=
  if (s.registry.stateForUser user s.clock).due s.clock then [.reset user] else []

/-- What an account call records; one for no bytes does nothing. -/
def entries (s : System) (user : String) (bytes : List UInt8) : List (Entry String) :=
  if bytes = [] then [] else s.resets user ++ [.charge user bytes.length]

def account (after : (wake bytes rate : Nat) → Option Nat) (s : System) (i later : Nat)
    (task : Task) (side : Side) (bytes : List UInt8) : Option System :=
  match (UserLimitRegistry.accountAndThrottle after task.user bytes.length s.clock later).run
      s.registry with
  | .ok wake registry => some { s with
      registry
      clock := later
      tasks := s.tasks.set i { task.charge side bytes with wake := some (wake.getD 0) }
      log := s.log ++ s.entries task.user bytes }
  | .error .panic registry =>
    -- the bytes were charged before the rate failed
    (task.work.metered (some .panic)).map fun work => { s with
      registry
      clock := later
      tasks := s.tasks.set i { task.charge side bytes with work }
      log := s.log ++ s.entries task.user bytes }
  | .error e registry =>
    (task.work.metered (some e)).map fun work => { s with
      registry
      clock := later
      tasks := s.tasks.set i { task with work }
      log := s.log ++ s.resets task.user }

def step (after : (wake bytes rate : Nat) → Option Nat) (s : System) : Event → Option System
  | .tick now => if s.clock ≤ now then some { s with clock := now } else none
  | .openStream user datagram =>
    match (UserLimitRegistry.ensureOpen user s.clock).run s.registry with
    | .ok _ registry => some { s with
        registry
        tasks := s.tasks ++ [.opened user datagram]
        log := s.log ++ s.resets user }
    | .error _ registry => some { s with registry, log := s.log ++ s.resets user }
  | .account i later => do
    let task ← s.tasks[i]?
    let (side, bytes) ← task.work.charge
    if task.wake = none ∧ s.clock ≤ later then s.account after i later task side bytes else none
  | .resume i => do
    let task ← s.tasks[i]?
    let wake ← task.wake
    if wake ≤ s.clock then
      let work ← task.work.metered none
      some { s with tasks := s.tasks.set i { task with work, wake := none } }
    else none
  | .work i e => do
    let task ← s.tasks[i]?
    let work ← task.work.step e
    if task.wake = none then some { s with tasks := s.tasks.set i { task with work } } else none

end System

/-! ## One step -/

section Step

variable {after : (wake bytes rate : Nat) → Option Nat} {s : System}

inductive Transition (s : System) : System → Prop
  | tick {now} : Transition s { s with clock := now }
  | opened {user datagram} :
      Transition s { s with
        registry := s.registry.insert user (s.registry.current user s.clock)
        tasks := s.tasks ++ [.opened user datagram]
        log := s.log ++ s.resets user }
  | notOpened {user} :
      Transition s { s with
        registry := s.registry.insert user (s.registry.current user s.clock)
        log := s.log ++ s.resets user }
  | free {i later wake task side} (ht : s.tasks[i]? = some task) (hw : task.wake = none)
      (hc : task.work.charge = some (side, [])) :
      Transition s { s with
        clock := later
        tasks := s.tasks.set i { task.charge side [] with wake := some wake } }
  /-- The bytes are charged; the call then sleeps, or panics. -/
  | charged {i later task task' side bytes state} (ht : s.tasks[i]? = some task)
      (hw : task.wake = none) (hc : task.work.charge = some (side, bytes))
      (hco : state.config = (s.registry.current task.user s.clock).config)
      (hus : ∀ limit, state.config.quotaBytes = some limit →
        state.usedBytes =
            saturatingAdd (s.registry.current task.user s.clock).usedBytes bytes.length ∧
          state.usedBytes ≤ limit)
      (ht' : (∃ wake, task' = { task.charge side bytes with wake := some wake }) ∨
        ∃ work, task.work.metered (some .panic) = some work ∧
          task' = { task.charge side bytes with work }) :
      Transition s { s with
        registry := s.registry.insert task.user state
        clock := later
        tasks := s.tasks.set i task'
        log := s.log ++ (s.resets task.user ++ [.charge task.user bytes.length]) }
  | refused {i later task work e} (ht : s.tasks[i]? = some task) (hw : task.wake = none)
      (hm : task.work.metered (some e) = some work) :
      Transition s { s with
        registry := s.registry.insert task.user (s.registry.current task.user s.clock)
        clock := later
        tasks := s.tasks.set i { task with work }
        log := s.log ++ s.resets task.user }
  | resumed {i wake task work} (ht : s.tasks[i]? = some task) (hw : task.wake = some wake)
      (hm : task.work.metered none = some work) :
      Transition s { s with tasks := s.tasks.set i { task with work, wake := none } }
  | worked {i task work e} (ht : s.tasks[i]? = some task) (hw : task.wake = none)
      (hst : task.work.step e = some work) :
      Transition s { s with tasks := s.tasks.set i { task with work } }

theorem transition_of_account (ht : s.tasks[i]? = some task) (hw : task.wake = none)
    (hc : task.work.charge = some (side, bytes))
    (h : s.account after i later task side bytes = some s') : Transition s s' := by
  unfold System.account at h
  cases bytes with
  | nil =>
    cases h
    simpa [System.entries] using Transition.free ht hw hc
  | cons b rest =>
    generalize hru : (UserLimitRegistry.accountAndThrottle after task.user
      (b :: rest).length s.clock later).run s.registry = result at h
    cases UserLimitRegistry.accounted_of_run (by simp) hru with
    | refused =>
      obtain ⟨work, hm, rfl⟩ := map_eq_some_iff.mp h
      exact .refused ht hw hm
    | charged hco hus hre =>
      rcases hre with ⟨wake, rfl⟩ | rfl
      · cases h
        exact .charged ht hw hc hco hus (.inl ⟨_, rfl⟩)
      · obtain ⟨work, hm, rfl⟩ := map_eq_some_iff.mp h
        exact .charged ht hw hc hco hus (.inr ⟨work, hm, rfl⟩)

theorem transition_of_step (h : s.step after e = some s') : Transition s s' := by
  cases e with
  | tick =>
    simp only [System.step, ite_none_right_eq_some, Option.some.injEq] at h
    obtain ⟨-, rfl⟩ := h
    exact .tick
  | openStream user =>
    simp only [System.step, UserLimitRegistry.ensureOpen_run] at h
    by_cases hfu : (s.registry.current user s.clock).config.quotaBytes.any
        (· ≤ (s.registry.current user s.clock).usedBytes)
    · rw [if_pos hfu] at h
      cases h
      exact .notOpened
    · rw [if_neg hfu] at h
      cases h
      exact .opened
  | account =>
    simp only [System.step, bind_eq_bind, bind_eq_some_iff, ite_none_right_eq_some] at h
    obtain ⟨task, ht, ⟨side, bytes⟩, hc, ⟨hw, -⟩, hac⟩ := h
    exact transition_of_account ht hw hc hac
  | resume =>
    simp only [System.step, bind_eq_bind, bind_eq_some_iff, ite_none_right_eq_some] at h
    obtain ⟨task, ht, wake, hw, -, work, hm, hs⟩ := h
    cases hs
    exact .resumed ht hw hm
  | work =>
    simp only [System.step, bind_eq_bind, bind_eq_some_iff, ite_none_right_eq_some] at h
    obtain ⟨task, ht, work, hst, hw, hs⟩ := h
    cases hs
    exact .worked ht hw hst

end Step

end Espejismo.Quota
