import Espejismo.Config
import Espejismo.Data.Machine
import Espejismo.Data.Shares

/-!
# Server.Peers

The peers of a remote (`handle_peer`, `handle_websocket_peer` and
`run_authenticated_tunnel` of `handler.rs`, the accept loop and `build_runtime`
of `main.rs`).  A peer's task goes from the probes of its first bytes through the
handshake into the loop that takes streams from the mux session; a stream needs a
permit of the remote and one of its tunnel.

An event is an await that has completed, with what it returned.  A tunnel's
session is dropped when its task returns, which aborts the owner of its streams
(`Drop for NativeSession`); their handlers are tasks of their own and keep their
permits until they end.
-/

namespace Espejismo

open Machine Shares List Option

/-! ## One peer -/

inductive PeerPhase where
  /-- Before the handshake: the probes, the accept of an underlay, the HTTP fallback. -/
  | routing
  /-- In the handshake, over TCP itself or over a WebSocket or HTTP/2 underlay. -/
  | authenticating (wrapped : Bool)
  /-- In `fallback_or_reject` after a failed handshake over TCP. -/
  | rejecting (error : Error)
  | serving
  /-- Holds a permit of the remote for a new stream and waits for one of the tunnel. -/
  | waiting
  | returned (error : Option Error)
  deriving DecidableEq

structure PeerTask where
  maxStreams : Nat
  phase : PeerPhase := .routing
  streamLimit : Nat := 0
  opened : Nat := 0
  handlers : List Nat := []
  /-- Calls of `inc_active_physical` and `dec_active_physical`. -/
  incs : Nat := 0
  decs : Nat := 0
  deriving DecidableEq

structure Shared where
  gauge : UInt64
  streamPermits : Nat
  connectionPermits : Nat
  deriving DecidableEq

inductive PeerRoute where
  | raw
  | wrapped
  | fallback
  | failed (error : Error)
  deriving DecidableEq

inductive HandshakeOutcome where
  | authenticated
  | failed (error : Error)
  | timedOut
  deriving DecidableEq

inductive SessionItem where
  | stream
  | failed (error : Error)
  | closed
  deriving DecidableEq

inductive PeerInput where
  | routed (route : PeerRoute)
  | handshake (outcome : HandshakeOutcome)
  | rejected
  | next (item : SessionItem)
  /-- `stream_limit` gave its permit within `STREAM_PERMIT_TIMEOUT`. -/
  | permit
  | permitTimeout
  | streamEnded (stream : Nat)
  deriving DecidableEq

def elapsedError : Error := .msg "deadline has elapsed"

def globalLimitError : Error := .msg "global stream limit reached"
def permitTimeoutError : Error := .msg "stream limit wait timed out"

namespace PeerTask

def startHandshake (shared : Shared) (peer : PeerTask) (wrapped : Bool) : Shared × PeerTask :=
  ({ shared with gauge := shared.gauge + 1 },
    { peer with phase := .authenticating wrapped, incs := peer.incs + 1 })

def decActivePhysical (shared : Shared) (peer : PeerTask) : Shared × PeerTask :=
  ({ shared with gauge := shared.gauge - 1 }, { peer with decs := peer.decs + 1 })

def finish (error : Option Error) : Shared × PeerTask → Shared × PeerTask
  | (shared, peer) =>
    ({ shared with connectionPermits := shared.connectionPermits + 1 },
      { peer with phase := .returned error })

/-- A handshake that failed.  Over TCP the peer is answered or held first. -/
def turnAway (shared : Shared) (peer : PeerTask) (wrapped : Bool) (error : Error) :
    Shared × PeerTask :=
  let (shared, peer) := decActivePhysical shared peer
  if wrapped then finish (some error) (shared, peer)
  else (shared, { peer with phase := .rejecting error })

def spawnHandler (peer : PeerTask) : PeerTask :=
  { peer with
    phase := .serving
    streamLimit := peer.streamLimit - 1
    handlers := peer.handlers ++ [peer.opened - 1] }

/-- The loop of `run_authenticated_tunnel` with a new stream. -/
def onStream (shared : Shared) (peer : PeerTask) : Shared × PeerTask :=
  let peer := { peer with opened := peer.opened + 1 }
  if peer.maxStreams = 0 then (shared, peer)
  else if shared.streamPermits = 0 then finish (some globalLimitError) (shared, peer)
  else
    let shared := { shared with streamPermits := shared.streamPermits - 1 }
    if peer.streamLimit = 0 then (shared, { peer with phase := .waiting })
    else (shared, peer.spawnHandler)

def step (shared : Shared) (peer : PeerTask) (input : PeerInput) : Option (Shared × PeerTask) :=
  match peer.phase, input with
  | .routing, .routed .raw => some (peer.startHandshake shared false)
  | .routing, .routed .wrapped => some (peer.startHandshake shared true)
  | .routing, .routed .fallback => some (finish none (shared, peer))
  | .routing, .routed (.failed error) => some (finish (some error) (shared, peer))
  | .authenticating _, .handshake .authenticated =>
    some (shared, { peer with phase := .serving, streamLimit := peer.maxStreams })
  | .authenticating wrapped, .handshake (.failed error) =>
    some (peer.turnAway shared wrapped error)
  | .authenticating wrapped, .handshake .timedOut =>
    some (peer.turnAway shared wrapped elapsedError)
  | .rejecting error, .rejected => some (finish (some error) (shared, peer))
  | .serving, .next .stream => some (peer.onStream shared)
  | .serving, .next (.failed error) =>
    some (finish (some error) (peer.decActivePhysical shared))
  | .serving, .next .closed => some (finish none (peer.decActivePhysical shared))
  | .waiting, .permit =>
    if peer.streamLimit = 0 then none else some (shared, peer.spawnHandler)
  | .waiting, .permitTimeout =>
    -- `timeout` polls the semaphore before the clock.
    if peer.streamLimit = 0 then
      some (finish (some permitTimeoutError)
        ({ shared with streamPermits := shared.streamPermits + 1 }, peer))
    else none
  | _, .streamEnded stream =>
    if stream ∈ peer.handlers then
      some ({ shared with streamPermits := shared.streamPermits + 1 },
        { peer with
          streamLimit := peer.streamLimit + 1
          handlers := peer.handlers.erase stream })
    else none
  | _, _ => none

/-- **What a task can do.** -/
inductive Turn (shared : Shared) (peer : PeerTask) : PeerInput → Shared × PeerTask → Prop
  | handshake {route} (wrapped : Bool) (h : peer.phase = .routing) :
      Turn shared peer (.routed route) (peer.startHandshake shared wrapped)
  | unrouted {route} (error : Option Error) (h : peer.phase = .routing) :
      Turn shared peer (.routed route) (finish error (shared, peer))
  | authenticated {wrapped} (h : peer.phase = .authenticating wrapped) :
      Turn shared peer (.handshake .authenticated)
        (shared, { peer with phase := .serving, streamLimit := peer.maxStreams })
  | turnedAway {wrapped outcome} (error : Error) (h : peer.phase = .authenticating wrapped) :
      Turn shared peer (.handshake outcome) (peer.turnAway shared wrapped error)
  | rejected {error} (h : peer.phase = .rejecting error) :
      Turn shared peer .rejected (finish (some error) (shared, peer))
  | closed {item} (error : Option Error) (h : peer.phase = .serving) (him : item ≠ .stream) :
      Turn shared peer (.next item) (finish error (peer.decActivePhysical shared))
  | dropped (h : peer.phase = .serving) (hze : peer.maxStreams = 0) :
      Turn shared peer (.next .stream) (shared, { peer with opened := peer.opened + 1 })
  | refused (h : peer.phase = .serving) (hma : peer.maxStreams ≠ 0)
      (hfu : shared.streamPermits = 0) :
      Turn shared peer (.next .stream)
        (finish (some globalLimitError) (shared, { peer with opened := peer.opened + 1 }))
  | queued (h : peer.phase = .serving) (hfr : shared.streamPermits ≠ 0)
      (hl : peer.streamLimit = 0) :
      Turn shared peer (.next .stream)
        ({ shared with streamPermits := shared.streamPermits - 1 },
          { peer with opened := peer.opened + 1, phase := .waiting })
  | admitted (h : peer.phase = .serving) (hfr : shared.streamPermits ≠ 0)
      (hl : peer.streamLimit ≠ 0) :
      Turn shared peer (.next .stream)
        ({ shared with streamPermits := shared.streamPermits - 1 },
          { peer with opened := peer.opened + 1 }.spawnHandler)
  | granted (h : peer.phase = .waiting) (hl : peer.streamLimit ≠ 0) :
      Turn shared peer .permit (shared, peer.spawnHandler)
  | timedOut (h : peer.phase = .waiting) :
      Turn shared peer .permitTimeout
        (finish (some permitTimeoutError)
          ({ shared with streamPermits := shared.streamPermits + 1 }, peer))
  | ended {stream} (hm : stream ∈ peer.handlers) :
      Turn shared peer (.streamEnded stream)
        ({ shared with streamPermits := shared.streamPermits + 1 },
          { peer with
            streamLimit := peer.streamLimit + 1
            handlers := peer.handlers.erase stream })

variable {shared : Shared} {peer : PeerTask}

theorem turn_onStream (h : peer.phase = .serving) :
    Turn shared peer (.next .stream) (peer.onStream shared) := by
  unfold onStream
  dsimp only
  split
  · next hze => exact .dropped h hze
  · next hma =>
    split
    · next hfu => exact .refused h hma hfu
    · next hfr =>
      split
      · next hl => exact .queued h hfr hl
      · next hl => exact .admitted h hfr hl

theorem turn_of_step
    (h : peer.step shared input = some result) : Turn shared peer input result := by
  unfold step at h
  split at h
  · next hph => cases h; exact .handshake false hph
  · next hph => cases h; exact .handshake true hph
  · next hph => cases h; exact .unrouted none hph
  · next hph => cases h; exact .unrouted _ hph
  · next hph => cases h; exact .authenticated hph
  · next hph => cases h; exact .turnedAway _ hph
  · next hph => cases h; exact .turnedAway _ hph
  · next hph => cases h; exact .rejected hph
  · next hph => cases h; exact turn_onStream hph
  · next hph => cases h; exact .closed _ hph nofun
  · next hph => cases h; exact .closed none hph nofun
  · next hph =>
    split at h
    · contradiction
    · next hl => cases h; exact .granted hph hl
  · next hph =>
    split at h
    · cases h; exact .timedOut hph
    · contradiction
  · split at h
    · next hm => cases h; exact .ended hm
    · contradiction
  · contradiction

end PeerTask

/-! ## All peers -/

structure Peers where
  shared : Shared
  maxStreams : Nat
  tasks : List PeerTask

inductive PeersEvent where
  | accept
  | reload (maxStreams : Nat)
  | task (i : Nat) (input : PeerInput)

namespace Peers

def start (config : EspejismoConfig) : Peers :=
  { shared :=
      { gauge := 0
        streamPermits := max config.shared.maxStreams 1
        connectionPermits := max config.shared.maxPhysicalConnections 1 }
    maxStreams := config.shared.maxStreams
    tasks := [] }

def step (s : Peers) : PeersEvent → Option Peers
  | .accept =>
    if s.shared.connectionPermits = 0 then some s
    else some { s with
      shared := { s.shared with connectionPermits := s.shared.connectionPermits - 1 }
      tasks := s.tasks ++ [{ maxStreams := s.maxStreams }] }
  | .reload maxStreams => some { s with maxStreams }
  | .task i input => do
    let peer ← s.tasks[i]?
    let (shared, peer') ← peer.step s.shared input
    some { s with shared, tasks := s.tasks.set i peer' }

inductive Transition (s : Peers) : PeersEvent → Peers → Prop
  | full : Transition s .accept s
  | accept (h : s.shared.connectionPermits ≠ 0) :
      Transition s .accept { s with
        shared := { s.shared with connectionPermits := s.shared.connectionPermits - 1 }
        tasks := s.tasks ++ [{ maxStreams := s.maxStreams }] }
  | reload {maxStreams} : Transition s (.reload maxStreams) { s with maxStreams }
  | task {i peer input shared peer'} (hp : s.tasks[i]? = some peer)
      (ht : PeerTask.Turn s.shared peer input (shared, peer')) :
      Transition s (.task i input) { s with shared, tasks := s.tasks.set i peer' }

theorem transition_of_step (h : s.step e = some s') : Transition s e s' := by
  cases e with
  | accept =>
    simp only [step] at h
    split at h
    · cases h
      exact .full
    · next hfr =>
      cases h
      exact .accept hfr
  | reload =>
    cases h
    exact .reload
  | task =>
    simp only [step, bind_eq_bind, bind_eq_some_iff] at h
    obtain ⟨peer, hp, ⟨shared, peer'⟩, hsp, h⟩ := h
    cases h
    exact .task hp (PeerTask.turn_of_step hsp)

end Peers

/-! ## The gauge -/

namespace PeerTask

/-- In the handshake or in the loop of an authenticated tunnel. -/
def active (peer : PeerTask) : Nat :=
  match peer.phase with
  | .authenticating _ | .serving | .waiting => 1
  | .routing | .rejecting _ | .returned _ => 0

def rejecting (peer : PeerTask) : Nat :=
  match peer.phase with
  | .rejecting _ => 1
  | _ => 0

/-- Between the start of the handshake and the return of the task. -/
def started (peer : PeerTask) : Nat :=
  match peer.phase with
  | .routing | .returned _ => 0
  | _ => 1

def connected (peer : PeerTask) : Nat :=
  match peer.phase with
  | .returned _ => 0
  | _ => 1

theorem started_eq (peer : PeerTask) : peer.started = peer.active + peer.rejecting := by
  cases h : peer.phase <;> simp [started, active, rejecting, h]

theorem active_le_connected (peer : PeerTask) : peer.active ≤ peer.connected := by
  cases h : peer.phase <;> simp [active, connected, h]

def Balanced (peer : PeerTask) : Prop := peer.incs = peer.decs + peer.active

/-- A new stream finds its permits: one of the remote at once, unless streams are
disabled, and one of the tunnel before the wait is over. -/
def FindsPermit (shared : Shared) (peer : PeerTask) : PeerInput → Prop
  | .next .stream => peer.maxStreams = 0 ∨ 0 < shared.streamPermits
  | .permitTimeout => False
  | _ => True

instance (shared : Shared) (peer : PeerTask) :
    (input : PeerInput) → Decidable (peer.FindsPermit shared input)
  | .next .stream => inferInstanceAs (Decidable (_ ∨ _))
  | .permitTimeout => isFalse id
  | .routed _ | .handshake _ | .rejected | .next .closed | .next (.failed _) | .permit
  | .streamEnded _ => isTrue trivial

variable {shared : Shared} {peer peer' : PeerTask} {input : PeerInput}

theorem gauge_of_turn (h : Turn shared peer input (shared', peer'))
    (hf : peer.FindsPermit shared input) :
    (peer.Balanced → peer'.Balanced) ∧
      shared'.gauge + .ofNat peer.active = shared.gauge + .ofNat peer'.active := by
  generalize hr : (shared', peer') = result at h
  cases h with
  | @turnedAway wrapped =>
    cases wrapped <;> cases hr <;> simp_all [Balanced, active]
  -- The two refusals are where the task returns without a call.
  | refused =>
    rcases hf with hze | hfr <;> omega
  | timedOut => exact hf.elim
  | ended =>
    cases hr
    exact ⟨id, rfl⟩
  | _ => cases hr; simp_all [Balanced, active, spawnHandler]

theorem connected_of_turn (h : Turn shared peer input (shared', peer')) :
    shared'.connectionPermits + peer'.connected = shared.connectionPermits + peer.connected := by
  generalize hr : (shared', peer') = result at h
  cases h with
  | @turnedAway wrapped =>
    cases wrapped <;> cases hr <;> simp_all [connected]
  | ended =>
    cases hr
    rfl
  | _ => cases hr; simp_all [connected, spawnHandler]

end PeerTask

namespace Peers

variable {config : EspejismoConfig} {s s' : Peers}

def FindsPermit (i : Nat) (s : Peers) : PeersEvent → Prop
  | .task j input => j = i → ∀ peer, s.tasks[j]? = some peer → peer.FindsPermit s.shared input
  | _ => True

instance (s : Peers) : (e : PeersEvent) → Decidable (∀ i, FindsPermit i s e)
  | .task j input =>
    decidable_of_iff (∀ peer ∈ s.tasks[j]?, peer.FindsPermit s.shared input)
      ⟨fun h _ _ => h, fun h => h j rfl⟩
  | .accept | .reload _ => isTrue fun _ => trivial

theorem connected_of_reach (h : Reach step Any (start config) s) :
    s.shared.connectionPermits + total PeerTask.connected s.tasks =
      max config.shared.maxPhysicalConnections 1 := by
  induction h with
  | refl => rfl
  | next _ _ hs ih =>
    cases transition_of_step hs with
    | full | reload => exact ih
    | accept =>
      simp only [total_concat, PeerTask.connected] at ih ⊢
      omega
    | @task j old input shared peer' hold ht =>
      have hmo := PeerTask.connected_of_turn ht
      have hto := total_set PeerTask.connected hold peer'
      dsimp only
      omega

theorem balanced_of_reach (h : Reach step (FindsPermit i) (start config) s)
    (hp : s.tasks[i]? = some peer) : peer.Balanced := by
  induction h generalizing peer with
  | refl => exact nomatch hp
  | next _ hok hs ih =>
    cases transition_of_step hs with
    | full | reload => exact ih hp
    | accept =>
      rw [getElem?_append] at hp
      split at hp
      · exact ih hp
      rw [getElem?_singleton] at hp
      split at hp
      · cases hp
        rfl
      · exact nomatch hp
    | @task j old input shared peer' hold ht =>
      rw [getElem?_set] at hp
      split at hp
      · next hij =>
        subst hij
        split at hp
        · cases hp
          exact (PeerTask.gauge_of_turn ht (hok rfl _ hold)).1 (ih hold)
        · exact nomatch hp
      · exact ih hp

theorem gauge_of_reach (h : Reach step (fun s e => ∀ i, FindsPermit i s e) (start config) s) :
    s.shared.gauge = .ofNat (total PeerTask.active s.tasks) := by
  induction h with
  | refl => rfl
  | next _ hok hs ih =>
    cases transition_of_step hs with
    | full | reload => exact ih
    | accept =>
      simp only [total_concat]
      exact ih
    | @task j old input shared peer' hold ht =>
      have hmo := (PeerTask.gauge_of_turn ht (hok j rfl _ hold)).2
      have hto := total_set PeerTask.active hold peer'
      rw [ih, ← UInt64.ofNat_add, ← hto, UInt64.ofNat_add] at hmo
      exact (UInt64.add_left_inj _).mp hmo

/-- **The gauge of physical connections**: a peer whose streams all find their
permits returns with as many calls down as up.  When the streams of all peers do,
the gauge is the number of peers between the start of the handshake and the return,
less those that are turned away at the moment. -/
theorem gauge_balances (h : parseConfig config = .ok config) :
    (∀ s i peer error, Reach step (FindsPermit i) (start config) s → s.tasks[i]? = some peer →
      peer.phase = .returned error → peer.incs = peer.decs) ∧
    ∀ s, Reach step (fun s e => ∀ i, FindsPermit i s e) (start config) s →
      s.shared.gauge.toNat + total PeerTask.rejecting s.tasks = total PeerTask.started s.tasks := by
  have hl : config.shared.maxPhysicalConnections ≤ 65535 := by
    have hch := holds_of_parseConfig h
      ⟨config.shared.maxPhysicalConnections ≤ 65535,
        "shared.max_physical_connections must be in 1..=65535; for example, max_physical_connections = 8"⟩
      (by simp [EspejismoConfig.checks, EspejismoConfig.limitChecks])
    exact of_decide_eq_true hch
  refine ⟨fun s i peer error hrc hp hph => ?_, fun s hrc => ?_⟩
  · have hba := balanced_of_reach hrc hp
    simpa [PeerTask.Balanced, PeerTask.active, hph] using hba
  · have hact : total PeerTask.active s.tasks ≤ total PeerTask.connected s.tasks :=
      total_mono fun peer _ => peer.active_le_connected
    have hcon := connected_of_reach (hrc.mono fun _ _ _ => trivial)
    have hst : total PeerTask.started s.tasks =
        total PeerTask.active s.tasks + total PeerTask.rejecting s.tasks := by
      rw [← total_add]
      exact congrArg (total · s.tasks) (funext PeerTask.started_eq)
    rw [gauge_of_reach hrc, UInt64.toNat_ofNat', Nat.mod_eq_of_lt (by omega), hst]

/-- Two peers log in, and each opens a stream. -/
def crowding : List PeersEvent :=
  [.accept, .task 0 (.routed .raw), .task 0 (.handshake .authenticated), .accept,
    .task 1 (.routed .raw), .task 1 (.handshake .authenticated), .task 0 (.next .stream),
    .task 1 (.next .stream)]

theorem gauge_balances_close :
    ∃ (s : Peers) (peer : PeerTask), s.tasks[1]? = some peer ∧ peer.opened = 2 ∧ peer.phase =
      .returned none ∧
      peer.incs = peer.decs ∧ total PeerTask.started s.tasks = 1 ∧
      s.shared.gauge.toNat + total PeerTask.rejecting s.tasks = total PeerTask.started s.tasks := by
  obtain ⟨s, hrc, hst, hp⟩ := exists_of_run step (fun s e => ∀ i, FindsPermit i s e)
    (start {})
    (fun s => total PeerTask.started s.tasks = 1 ∧
      s.tasks[1]?.map (fun peer => (peer.opened, peer.phase)) = some (2, .returned none))
    (crowding ++ [.task 1 (.next .stream), .task 1 (.streamEnded 0), .task 1 (.next .closed)])
    (by decide)
  obtain ⟨peer, hp, hbo⟩ := Option.map_eq_some_iff.mp hp
  obtain ⟨hon, hph⟩ := Prod.mk.inj hbo
  have hga := gauge_balances parseConfig_default
  exact ⟨s, peer, hp, hon, hph,
    hga.1 s 1 peer none (hrc.mono fun _ _ h => h 1) hp hph, hst, hga.2 s hrc⟩

/-- With room for two streams, one on each of two tunnels, a third one ends its tunnel,
and the gauge keeps counting the peer. -/
theorem gauge_leaks :
    ∃ s, Reach step Any (start { shared := { maxStreams := 2 } }) s ∧
      s.tasks.map (·.phase) = [.serving, .returned (some globalLimitError)] ∧
      s.tasks.map (·.incs) = [1, 1] ∧ s.tasks.map (·.decs) = [0, 0] ∧ s.shared.gauge = 2 ∧
      total PeerTask.started s.tasks = 1 :=
  exists_of_run step Any _ _ (crowding ++ [.task 1 (.next .stream)]) (by decide)

end Peers

/-! ## Admission of streams -/

namespace PeerTask

variable {shared : Shared} {peer peer' : PeerTask} {input : PeerInput}

def isOpen (peer : PeerTask) : Bool := peer.phase = .serving ∨ peer.phase = .waiting

def held (peer : PeerTask) : Nat := peer.handlers.length + if peer.phase = .waiting then 1 else 0

def Limited (peer : PeerTask) : Prop :=
  match peer.phase with
  | .routing | .authenticating _ => peer.handlers = []
  | .serving | .waiting => peer.streamLimit + peer.handlers.length = peer.maxStreams
  | .rejecting _ | .returned _ => True

theorem held_of_turn (h : Turn shared peer input (shared', peer')) :
    shared'.streamPermits + peer'.held = shared.streamPermits + peer.held := by
  generalize hr : (shared', peer') = result at h
  cases h with
  | @turnedAway wrapped =>
    cases wrapped <;> cases hr <;> simp_all [held]
  | ended hm =>
    cases hr
    have hpo := length_pos_of_mem hm
    simp only [held, length_erase_of_mem hm]
    omega
  | _ => cases hr; simp_all [held, spawnHandler] <;> omega

theorem limited_of_turn (h : Turn shared peer input (shared', peer')) (hli : peer.Limited) :
    peer'.Limited := by
  generalize hr : (shared', peer') = result at h
  cases h with
  | @turnedAway wrapped =>
    cases wrapped <;> cases hr <;> simp_all [Limited]
  | ended hm =>
    have hpo := length_pos_of_mem hm
    unfold Limited at hli ⊢
    cases hph : peer.phase <;> simp_all <;> omega
  | _ => cases hr; simp_all [Limited, spawnHandler] <;> omega

/-- **A turn that ends neither the session nor the stream leaves it running.** -/
theorem running_of_turn (h : Turn shared peer input (shared', peer'))
    (hf : peer.FindsPermit shared input) (he : input ≠ .streamEnded stream)
    (hcl : ∀ item, input = .next item → item = .stream) (ho : peer.isOpen = true)
    (hm : stream ∈ peer.handlers) : peer'.isOpen = true ∧ stream ∈ peer'.handlers := by
  generalize hr : (shared', peer') = result at h
  cases h with
  | turnedAway error hph => simp [isOpen, hph] at ho
  | closed error hph him => exact absurd (hcl _ rfl) him
  | refused =>
    rcases hf with hze | hfr <;> omega
  | timedOut => exact hf.elim
  | ended =>
    cases hr
    refine ⟨ho, (mem_erase_of_ne ?_).mpr hm⟩
    rintro rfl
    exact he rfl
  | _ => cases hr; simp_all [isOpen, spawnHandler]

theorem returned_of_turn (h : Turn shared peer input (shared', peer'))
    (hf : ¬ peer.FindsPermit shared input) : ∃ error, peer'.phase = .returned (some error) := by
  generalize hr : (shared', peer') = result at h
  cases h with
  | refused | timedOut =>
    cases hr
    exact ⟨_, rfl⟩
  | closed error hph him =>
    revert hf him
    cases ‹SessionItem› <;> simp [FindsPermit]
  | _ => simp_all [FindsPermit]

end PeerTask

namespace Peers

variable {config : EspejismoConfig} {s s' : Peers}

/-- The stream is admitted: its handler runs and the session of its tunnel is open. -/
def Running (s : Peers) (i stream : Nat) : Prop :=
  ∃ peer, s.tasks[i]? = some peer ∧ peer.isOpen = true ∧ stream ∈ peer.handlers

/-- The event ends neither the handler of the stream nor the session of its tunnel,
and if it is a new stream of the tunnel, that one finds its permits. -/
def Spares (i stream : Nat) (s : Peers) (e : PeersEvent) : Prop :=
  FindsPermit i s e ∧ e ≠ .task i (.streamEnded stream) ∧
    ∀ item, e = .task i (.next item) → item = .stream

variable {i : Nat} {peer : PeerTask} {stream : Nat}

theorem running_of_step (hru : s.Running i stream)
    (hsr : Spares i stream s e) (h : s.step e = some s') : s'.Running i stream := by
  obtain ⟨peer, hp, ho, hm⟩ := hru
  obtain ⟨hf, he, hcl⟩ := hsr
  cases transition_of_step h with
  | full | reload => exact ⟨peer, hp, ho, hm⟩
  | accept =>
    have hlt := (List.getElem?_eq_some_iff.mp hp).1
    exact ⟨peer, by rw [List.getElem?_append_left hlt]; exact hp, ho, hm⟩
  | @task j old input shared peer' hold ht =>
    by_cases hij : j = i
    · subst hij
      obtain rfl := Option.some.inj (hold.symm.trans hp)
      have hlt := (List.getElem?_eq_some_iff.mp hp).1
      obtain ⟨ho', hm'⟩ := PeerTask.running_of_turn ht (hf rfl _ hold)
        (fun heq => he (heq ▸ rfl)) (fun item heq => hcl item (heq ▸ rfl)) ho hm
      exact ⟨peer', by simp [hlt], ho', hm'⟩
    · exact ⟨peer, by rw [List.getElem?_set_ne hij]; exact hp, ho, hm⟩

theorem running_of_reach (hru : s.Running i stream) (h : Reach step (Spares i stream) s s') :
    s'.Running i stream :=
  h.invariant (I := fun t => t.Running i stream) hru fun _ _ _ => running_of_step

theorem permits_of_reach (h : Reach step Any (start config) s) :
    s.shared.streamPermits + total PeerTask.held s.tasks = max config.shared.maxStreams 1 ∧
      ∀ peer ∈ s.tasks, peer.Limited := by
  induction h with
  | refl => exact ⟨rfl, nofun⟩
  | next _ _ hs ih =>
    obtain ⟨hhe, hli⟩ := ih
    cases transition_of_step hs with
    | full | reload => exact ⟨hhe, hli⟩
    | accept =>
      refine ⟨by simpa [PeerTask.held] using hhe, fun peer hp => ?_⟩
      rcases mem_append.mp hp with hp | hp
      · exact hli peer hp
      · obtain rfl := mem_singleton.mp hp
        rfl
    | @task j old input shared peer' hold ht =>
      have hmo := PeerTask.held_of_turn ht
      have hto := total_set PeerTask.held hold peer'
      refine ⟨by dsimp only; omega, fun peer hp => ?_⟩
      rcases mem_or_eq_of_mem_set hp with hp | rfl
      · exact hli peer hp
      · exact PeerTask.limited_of_turn ht (hli old (mem_of_getElem? hold))

theorem limit_of_isOpen (h : peer.Limited) (ho : peer.isOpen = true) :
    peer.streamLimit + peer.handlers.length = peer.maxStreams := by
  unfold PeerTask.isOpen at ho
  unfold PeerTask.Limited at h
  cases hph : peer.phase <;> simp_all

theorem running_of_permits (hp : s.tasks[i]? = some peer) (hse : peer.phase = .serving)
    (hfr : 0 < s.shared.streamPermits) (hl : 0 < peer.streamLimit)
    (hma : peer.maxStreams ≠ 0) :
    ∃ s', s.step (.task i (.next .stream)) = some s' ∧ s'.Running i peer.opened := by
  have hlt := (List.getElem?_eq_some_iff.mp hp).1
  have hfr' : s.shared.streamPermits ≠ 0 := by omega
  have hl' : peer.streamLimit ≠ 0 := by omega
  simp only [step, hp, PeerTask.step, hse, PeerTask.onStream, hma, hfr', hl',
    Option.bind_eq_bind, Option.bind_some]
  exact ⟨_, rfl, _, List.getElem?_set_self hlt, by simp [PeerTask.isOpen, PeerTask.spawnHandler],
    by simp [PeerTask.spawnHandler]⟩

theorem running_of_permit (hp : s.tasks[i]? = some peer) (hwa : peer.phase = .waiting)
    (hl : 0 < peer.streamLimit) :
    ∃ s', s.step (.task i .permit) = some s' ∧ s'.Running i (peer.opened - 1) := by
  have hlt := (List.getElem?_eq_some_iff.mp hp).1
  have hl' : peer.streamLimit ≠ 0 := by omega
  simp only [step, hp, PeerTask.step, hwa, hl', Option.bind_eq_bind, Option.bind_some]
  exact ⟨_, rfl, _, List.getElem?_set_self hlt, by simp [PeerTask.isOpen, PeerTask.spawnHandler],
    by simp [PeerTask.spawnHandler]⟩

theorem returned_of_step (hp : s.tasks[i]? = some peer)
    (hf : ¬ peer.FindsPermit s.shared input) (h : s.step (.task i input) = some s') :
    (∃ peer' error, s'.tasks[i]? = some peer' ∧ peer'.phase = .returned (some error)) ∧
      ∀ j, j ≠ i → s'.tasks[j]? = s.tasks[j]? := by
  cases transition_of_step h with
  | @task j old input shared peer' hold ht =>
    have hlt := (List.getElem?_eq_some_iff.mp hp).1
    obtain rfl := Option.some.inj (hold.symm.trans hp)
    obtain ⟨error, herr⟩ := PeerTask.returned_of_turn ht hf
    refine ⟨⟨peer', error, by simp [hlt], herr⟩, fun j hj => ?_⟩
    exact List.getElem?_set_ne (Ne.symm hj)

/-- **Admission of streams**, in every state of a remote.  Streams of a tunnel run on
through everything that does not end them or their session, or leave a new stream of
the same tunnel without a permit; such a stream ends its own tunnel and no other.  A
new stream runs once permits are free, and permits come back with their handlers. -/
theorem stream_admission (h : Reach step Any (start config) s) :
    (∀ i stream s', s.Running i stream → Reach step (Spares i stream) s s' → s'.Running i stream) ∧
    (∀ i peer input s', s.tasks[i]? = some peer → ¬ peer.FindsPermit s.shared input →
      s.step (.task i input) = some s' →
        (∃ peer' error, s'.tasks[i]? = some peer' ∧ peer'.phase = .returned (some error)) ∧
          ∀ j, j ≠ i → s'.tasks[j]? = s.tasks[j]?) ∧
    (∀ i peer, s.tasks[i]? = some peer → 0 < peer.streamLimit →
      (peer.phase = .serving → peer.maxStreams ≠ 0 → 0 < s.shared.streamPermits →
        ∃ s', s.step (.task i (.next .stream)) = some s' ∧ s'.Running i peer.opened) ∧
      (peer.phase = .waiting →
        ∃ s', s.step (.task i .permit) = some s' ∧ s'.Running i (peer.opened - 1))) ∧
    s.shared.streamPermits + total PeerTask.held s.tasks = max config.shared.maxStreams 1 ∧
    ∀ (i : Nat) (peer : PeerTask), s.tasks[i]? = some peer → peer.isOpen = true →
      peer.streamLimit + peer.handlers.length = peer.maxStreams := by
  obtain ⟨hhe, hli⟩ := permits_of_reach h
  refine ⟨fun i stream s' => running_of_reach, fun i peer input s' => returned_of_step,
    fun i peer hp hl => ⟨fun hse hma hfr => ?_, fun hwa => ?_⟩, hhe,
    fun i peer hp => limit_of_isOpen (hli peer (mem_of_getElem? hp))⟩
  · exact running_of_permits hp hse hfr hl hma
  · exact running_of_permit hp hwa hl

def crowded : Peers :=
  { shared := { gauge := 2, streamPermits := 0, connectionPermits := 1022 }
    maxStreams := 2
    tasks := replicate 2
      { maxStreams := 2, phase := .serving, streamLimit := 1, opened := 1, handlers := [0]
        incs := 1 } }

theorem run_crowding :
    run step Any (start { shared := { maxStreams := 2 } }) crowding = some crowded := rfl

/-- The second tunnel opens a stream too many; then the first one loses its stream and
opens another. -/
theorem stream_admission_crowded :
    ∃ s s' s'', crowded.step (.task 1 (.next .stream)) = some s ∧ s.Running 0 0 ∧
      (∀ stream, ¬ s.Running 1 stream) ∧ s.step (.task 0 (.streamEnded 0)) = some s' ∧
      s'.step (.task 0 (.next .stream)) = some s'' ∧ s''.Running 0 1 := by
  have hrc : Reach step Any _ crowded := .of_run run_crowding
  obtain ⟨⟨peer, error, hp, hph⟩, hoh⟩ :=
    (stream_admission hrc).2.1 1 _ (.next .stream) _ rfl (by decide) rfl
  have he := (hrc.next (e := .task 1 (.next .stream)) trivial rfl).next
    (e := .task 0 (.streamEnded 0)) trivial rfl
  obtain ⟨s'', hsp, hru⟩ :=
    ((stream_admission he).2.2.1 0 _ rfl (by decide)).1 rfl (by decide) (by decide)
  refine ⟨_, _, s'', rfl, ⟨_, hoh 0 (by decide), rfl, mem_singleton_self 0⟩, ?_, rfl, hsp, hru⟩
  rintro stream ⟨peer', hp', ho, -⟩
  rw [hp] at hp'
  cases hp'
  simp [PeerTask.isOpen, hph] at ho

/-- With room for two streams, one on each of two tunnels, a third one ends the stream
of its tunnel, and no other follows on it. -/
theorem refused_stream_ends_tunnel :
    ∃ s s', Reach step Any (start { shared := { maxStreams := 2 } }) s ∧ s.Running 1 0 ∧
      s.step (.task 1 (.next .stream)) = some s' ∧ (∀ stream, ¬ s'.Running 1 stream) ∧
      ∀ input, (∀ stream, input ≠ .streamEnded stream) → s'.step (.task 1 input) = none := by
  refine ⟨_, _, .of_run run_crowding, ⟨_, rfl, rfl, mem_singleton_self 0⟩, rfl, ?_, ?_⟩
  · rintro stream ⟨peer, hp, ho, -⟩
    cases hp
    contradiction
  · intro input hin
    cases input with
    | streamEnded stream => exact absurd rfl (hin stream)
    | _ => rfl

end Peers

end Espejismo
