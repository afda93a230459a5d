import Espejismo.Config
import Espejismo.Data.Machine
import Espejismo.Data.Shares
import Espejismo.Mux.Native.Frame

/-!
# Client.Tunnel

The pool of connections of a client (`tunnel.rs`): the lanes of a manager, the
calls of `open_stream` that share them, the streams they open, and the service
that swaps the manager on a reload.

What a call does between two awaits is one step; `OpenPhase` lists the awaits.  A
`Mutex` guard is a local of its function, so a lock is held exactly while some call
is in a phase in which the guard lives (`holdsSelect`, `holdsControl`,
`holdsConnect`), and a dropped call gives its locks back.

Which lane of its kind a call takes depends on scores that are read while other
tasks run; here it may take any of them.
-/

namespace Espejismo.Client

open Machine Shares Mux Option

/-! ## Lanes -/

inductive LaneKind where
  | interactive
  | bulk
  deriving DecidableEq, Repr

/-- A mux session of a lane, by the number of its dial. -/
structure Connection where
  id : Nat
  connectedAt : Nat
  deriving DecidableEq, Repr

structure LaneHealth where
  activeStreams : Nat := 0
  pendingStreamOpens : Nat := 0
  bytesClientToRemote : Nat := 0
  bytesRemoteToClient : Nat := 0
  /-- The connection whose time is `connected_at`. -/
  connected : Option Connection := none
  lastActivityAt : Option Nat := none
  deriving DecidableEq, Repr

structure TunnelLane where
  kind : LaneKind
  control : Option Connection := none
  health : LaneHealth := {}
  inflightClientToRemote : Nat := 0
  inflightRemoteToClient : Nat := 0
  deriving DecidableEq, Repr

/-- `IDLE_LANE_PRUNE_AFTER`, in nanoseconds as all times here. -/
def idleLanePruneAfter : Nat := 300 * 10 ^ 9

def laneKinds (pool : TunnelPoolConfig) : List LaneKind :=
  let kinds := List.replicate (max pool.interactiveLanes 1) LaneKind.interactive
  let kinds := kinds ++ List.replicate pool.bulkLanes LaneKind.bulk
  let kinds := kinds.take (max pool.maxConnections 1)
  kinds ++ List.replicate (max (min pool.minConnections pool.maxConnections) 1 - kinds.length)
    LaneKind.interactive

def connectionExpired (connectedAt : Option Nat) (maxAge now : Nat) : Bool :=
  connectedAt.any fun since => maxAge ≤ now - since

def idleLongEnoughAt (lastActivity : Option Nat) (now idle : Nat) : Bool :=
  lastActivity.any fun last => idle ≤ now - last

def shouldPruneIdleLane (connected minimum activeStreams pendingStreamOpens : Nat)
    (lastActivity : Option Nat) (now : Nat) : Bool :=
  minimum < connected && activeStreams == 0 && pendingStreamOpens == 0 &&
    idleLongEnoughAt lastActivity now idleLanePruneAfter

def reconnectAttemptLimit (configured : Nat) : Nat := max configured 1

namespace LaneHealth

def recordLaneActivity (health : LaneHealth) (now : Nat) : LaneHealth :=
  { health with lastActivityAt := some now }

def reserve (health : LaneHealth) : LaneHealth :=
  { health with pendingStreamOpens := health.pendingStreamOpens + 1 }

def recordLaneConnected (health : LaneHealth) (connection : Connection) : LaneHealth :=
  { health with connected := some connection }.recordLaneActivity connection.connectedAt

def recordOpenSuccess (health : LaneHealth) (now : Nat) : LaneHealth :=
  { health with
    pendingStreamOpens := health.pendingStreamOpens - 1
    activeStreams := health.activeStreams + 1 }.recordLaneActivity now

def releaseLaneReservation (health : LaneHealth) (now : Nat) : LaneHealth :=
  { health with pendingStreamOpens := health.pendingStreamOpens - 1 }.recordLaneActivity now

def recordStreamBytes (health : LaneHealth) (clientToRemote remoteToClient now : Nat) :
    LaneHealth :=
  { health with
    bytesClientToRemote := health.bytesClientToRemote + clientToRemote
    bytesRemoteToClient := health.bytesRemoteToClient + remoteToClient
    activeStreams := health.activeStreams - 1 }.recordLaneActivity now

end LaneHealth

/-! ## Managers -/

structure TunnelManager where
  maxReconnectAttempts : Nat
  maxConnectionAge : Nat
  minConnections : Nat
  lanes : List TunnelLane
  deriving DecidableEq, Repr

namespace TunnelManager

def new (pool : TunnelPoolConfig) : TunnelManager where
  maxReconnectAttempts := reconnectAttemptLimit pool.maxReconnectAttempts
  maxConnectionAge := max pool.maxConnectionAgeSecs 1 * 10 ^ 9
  minConnections := max (min pool.minConnections (laneKinds pool).length) 1
  lanes := (laneKinds pool).map fun kind => { kind := kind }

def update (manager : TunnelManager) (lane : Nat) (f : TunnelLane → TunnelLane) : TunnelManager :=
  { manager with lanes := manager.lanes.modify lane f }

def updateHealth (manager : TunnelManager) (lane : Nat) (f : LaneHealth → LaneHealth) :
    TunnelManager :=
  manager.update lane fun lane => { lane with health := f lane.health }

def setControl (manager : TunnelManager) (lane : Nat) (control : Option Connection) :
    TunnelManager :=
  manager.update lane fun lane => { lane with control := control }

/-- The lanes that `select_and_reserve_lane` chooses from: those of the kind of the
priority, or all when there is none. -/
def eligible (manager : TunnelManager) (priority : StreamPriority) (lane : TunnelLane) : Bool :=
  let kind := match priority with
    | .interactive => LaneKind.interactive
    | .bulk => LaneKind.bulk
  lane.kind == kind || !manager.lanes.any fun lane => lane.kind == kind

end TunnelManager

/-! ## Opening a stream -/

/-- Where a call of `open_stream` waits. -/
inductive OpenPhase where
  /-- `prune_idle_lanes`: for `select_lock`. -/
  | pruneLock
  /-- For the control of a lane, with so many connected before it. -/
  | counting (next connected : Nat)
  | checking (next connected : Nat)
  /-- For the control of a lane that was found idle. -/
  | pruning (next connected : Nat)
  /-- `select_and_reserve_lane`: for `select_lock`. -/
  | selectLock
  | reserving (lane : Nat)
  /-- `open_stream`: for the health, to note the activity. -/
  | noting (lane : Nat)
  /-- `lane_connection_expired`: for the health. -/
  | aging (lane attempt : Nat)
  /-- `ensure_lane_control`: for the control, to clear it, as this connection is too old. -/
  | expiring (lane attempt : Nat) (aged : Connection)
  | looking (lane attempt : Nat)
  /-- For `connect_lock`. -/
  | connectLock (lane attempt : Nat)
  | rechecking (lane attempt : Nat)
  /-- `connect_lane`: for the connection and the handshake. -/
  | dialing (lane attempt : Nat)
  /-- `record_lane_error` of a failed dial: for the health. -/
  | undialed (lane : Nat)
  /-- `record_lane_connected`: for the health. -/
  | connecting (lane attempt : Nat)
  | pinging (lane attempt : Nat) (connection : Connection)
  | ponged (lane attempt : Nat) (connection : Connection)
  /-- `ensure_lane_control`: for the control, to install the new connection. -/
  | installing (lane attempt : Nat) (connection : Connection)
  /-- `open_stream_on_lane`: for the control. -/
  | opening (lane attempt : Nat)
  /-- `open_stream_with_priority`. -/
  | awaiting (lane attempt : Nat) (connection : Connection)
  /-- `record_open_success`: for the health. -/
  | succeeded (lane : Nat)
  /-- For the control, to clear it, as the open on this connection failed. -/
  | failing (lane attempt : Nat) (connection : Connection)
  /-- `record_lane_error` of a failed open: for the health. -/
  | erring (lane attempt : Nat)
  /-- `release_lane_reservation`: for the health. -/
  | releasing (lane : Nat)
  | returned (lane : Option Nat)
  | dropped
  deriving DecidableEq, Repr

namespace OpenPhase

def reservation : OpenPhase → Option Nat
  | noting lane | aging lane _ | expiring lane _ _ | looking lane _ | connectLock lane _
  | rechecking lane _ | dialing lane _ | undialed lane | connecting lane _ | pinging lane _ _
  | ponged lane _ _ | installing lane _ _ | opening lane _ | awaiting lane _ _ | succeeded lane
  | failing lane _ _ | erring lane _ | releasing lane => some lane
  | _ => none

def holdsSelect : OpenPhase → Bool
  | counting .. | checking .. | pruning .. | reserving .. => true
  | _ => false

/-- The guard of the lane's control lives over an await. -/
def holdsControl : OpenPhase → Option Nat
  | awaiting lane _ _ => some lane
  | _ => none

def holdsConnect : OpenPhase → Option Nat
  | rechecking lane _ | dialing lane _ | undialed lane | connecting lane _ | pinging lane _ _
  | ponged lane _ _ | installing lane _ _ => some lane
  | _ => none

def isOver : OpenPhase → Bool
  | returned _ | dropped => true
  | _ => false

end OpenPhase

structure OpenCall where
  manager : Nat
  priority : StreamPriority
  phase : OpenPhase := .pruneLock
  counted : Nat := 0
  cleared : Nat := 0
  deriving DecidableEq, Repr

inductive OpenInput where
  | go
  /-- `select_lock` was acquired and this lane has the best score. -/
  | choose (lane : Nat)
  | dialed (ok : Bool)
  /-- `ping_rtt` returned, with an answer or without. -/
  | pinged (answered : Bool)
  | opened (ok : Bool)
  deriving DecidableEq, Repr

/-- What a call sees of the others and of the time. -/
structure Surroundings where
  selectFree : Bool
  controlFree : Nat → Bool
  connectFree : Nat → Bool
  now : Nat
  fresh : Nat

namespace TunnelManager

/-- `prune_idle_lanes` goes on as long as more lanes are connected than the minimum. -/
def checkNext (manager : TunnelManager) (next connected : Nat) : OpenPhase :=
  if next < manager.lanes.length ∧ manager.minConnections < connected then
    .checking next connected
  else .selectLock

/-- Another attempt on the lane, or its reservation is given back. -/
def nextAttempt (manager : TunnelManager) (lane attempt : Nat) : OpenPhase :=
  if attempt < reconnectAttemptLimit manager.maxReconnectAttempts then .aging lane (attempt + 1)
  else .releasing lane

end TunnelManager

namespace OpenCall

def goto (call : OpenCall) (phase : OpenPhase) : OpenCall := { call with phase := phase }

def countNext (call : OpenCall) (manager : TunnelManager) (next connected : Nat) : OpenCall :=
  if next < manager.lanes.length then call.goto (.counting next connected)
  else { call with phase := manager.checkNext 0 connected, counted := connected }

def step (manager : TunnelManager) (around : Surroundings) (call : OpenCall) :
    OpenInput → Option (TunnelManager × OpenCall)
  | .go =>
    match call.phase with
    | .pruneLock =>
      if around.selectFree then some (manager, call.countNext manager 0 0) else none
    | .counting next connected =>
      if around.controlFree next then
        manager.lanes[next]?.map fun lane =>
          (manager, call.countNext manager (next + 1)
            (if lane.control.isSome then connected + 1 else connected))
      else none
    | .checking next connected =>
      manager.lanes[next]?.map fun lane =>
        if shouldPruneIdleLane connected manager.minConnections lane.health.activeStreams
            lane.health.pendingStreamOpens lane.health.lastActivityAt around.now then
          (manager, call.goto (.pruning next connected))
        else (manager, call.goto (manager.checkNext (next + 1) connected))
    | .pruning next connected =>
      if around.controlFree next then
        manager.lanes[next]?.map fun lane =>
          if lane.control.isSome then
            (manager.setControl next none,
              { call with
                phase := manager.checkNext (next + 1) (connected - 1)
                cleared := call.cleared + 1 })
          else (manager, call.goto (manager.checkNext (next + 1) connected))
      else none
    | .reserving lane =>
      manager.lanes[lane]?.map fun _ =>
        (manager.updateHealth lane (·.reserve), call.goto (.noting lane))
    | .noting lane =>
      some (manager.updateHealth lane (·.recordLaneActivity around.now), call.goto (.aging lane 1))
    | .aging lane attempt =>
      manager.lanes[lane]?.map fun l =>
        match l.health.connected with
        | some aged =>
          if connectionExpired (some aged.connectedAt) manager.maxConnectionAge around.now then
            (manager, call.goto (.expiring lane attempt aged))
          else (manager, call.goto (.looking lane attempt))
        | none => (manager, call.goto (.looking lane attempt))
    | .expiring lane attempt _ =>
      if around.controlFree lane then
        some (manager.setControl lane none, call.goto (.looking lane attempt))
      else none
    | .looking lane attempt =>
      if around.controlFree lane then
        manager.lanes[lane]?.map fun l =>
          (manager, call.goto
            (if l.control.isSome then .opening lane attempt else .connectLock lane attempt))
      else none
    | .connectLock lane attempt =>
      if around.connectFree lane then some (manager, call.goto (.rechecking lane attempt))
      else none
    | .rechecking lane attempt =>
      if around.controlFree lane then
        manager.lanes[lane]?.map fun l =>
          (manager, call.goto
            (if l.control.isSome then .opening lane attempt else .dialing lane attempt))
      else none
    | .undialed lane =>
      some (manager.updateHealth lane (·.recordLaneActivity around.now),
        call.goto (.releasing lane))
    | .connecting lane attempt =>
      let connection : Connection := ⟨around.fresh, around.now⟩
      some (manager.updateHealth lane (·.recordLaneConnected connection),
        call.goto (.pinging lane attempt connection))
    | .ponged lane attempt connection =>
      some (manager.updateHealth lane (·.recordLaneActivity around.now),
        call.goto (.installing lane attempt connection))
    | .installing lane attempt connection =>
      if around.controlFree lane then
        manager.lanes[lane]?.map fun _ =>
          (manager.setControl lane (some connection), call.goto (.opening lane attempt))
      else none
    | .opening lane attempt =>
      if around.controlFree lane then
        manager.lanes[lane]?.map fun l =>
          (manager, call.goto
            (match l.control with
            | some connection => .awaiting lane attempt connection
            | none => manager.nextAttempt lane attempt))
      else none
    | .succeeded lane =>
      manager.lanes[lane]?.map fun _ =>
        (manager.updateHealth lane (·.recordOpenSuccess around.now),
          call.goto (.returned (some lane)))
    | .failing lane attempt _ =>
      if around.controlFree lane then
        some (manager.setControl lane none, call.goto (.erring lane attempt))
      else none
    | .erring lane attempt =>
      some (manager.updateHealth lane (·.recordLaneActivity around.now),
        call.goto (manager.nextAttempt lane attempt))
    | .releasing lane =>
      some (manager.updateHealth lane (·.releaseLaneReservation around.now),
        call.goto (.returned none))
    | _ => none
  | .choose lane =>
    match call.phase with
    | .selectLock =>
      if around.selectFree ∧ manager.lanes[lane]?.any (manager.eligible call.priority) then
        some (manager, call.goto (.reserving lane))
      else none
    | _ => none
  | .dialed ok =>
    match call.phase with
    | .dialing lane attempt =>
      some (manager, call.goto (if ok then .connecting lane attempt else .undialed lane))
    | _ => none
  | .pinged answered =>
    match call.phase with
    | .pinging lane attempt connection =>
      some (manager, call.goto
        (if answered then .ponged lane attempt connection
        else .installing lane attempt connection))
    | _ => none
  | .opened ok =>
    match call.phase with
    | .awaiting lane attempt connection =>
      some (manager, call.goto (if ok then .succeeded lane else .failing lane attempt connection))
    | _ => none

section Goto

variable (call : OpenCall) (manager : TunnelManager) (lane next connected attempt : Nat)
  (phase : OpenPhase)

@[simp] theorem goto_phase : (call.goto phase).phase = phase := rfl
@[simp] theorem goto_manager : (call.goto phase).manager = call.manager := rfl

@[simp] theorem countNext_manager : (call.countNext manager next connected).manager =
    call.manager := by
  unfold countNext
  split <;> rfl

@[simp] theorem reservation_checkNext : (manager.checkNext next connected).reservation = none := by
  unfold TunnelManager.checkNext
  split <;> rfl

@[simp] theorem reservation_countNext :
    (call.countNext manager next connected).phase.reservation = none := by
  unfold countNext
  split
  · rfl
  · simp

theorem checkNext_ne_returned (x : Option Nat) : manager.checkNext next connected ≠
    .returned x := by
  unfold TunnelManager.checkNext
  split <;> nofun

theorem countNext_ne_returned (x : Option Nat) :
    (call.countNext manager next connected).phase ≠ .returned x := by
  unfold countNext
  split
  · nofun
  · exact checkNext_ne_returned _ _ _ x

theorem nextAttempt_ne_returned (x : Option Nat) :
    manager.nextAttempt lane attempt ≠ .returned x := by
  unfold TunnelManager.nextAttempt
  split <;> nofun

@[simp] theorem reservation_nextAttempt :
    (manager.nextAttempt lane attempt).reservation = some lane := by
  unfold TunnelManager.nextAttempt
  split <;> rfl

end Goto

/-- **What a call can do** between two awaits. -/
inductive Turn (manager : TunnelManager) (around : Surroundings) (call : OpenCall) :
    TunnelManager → OpenCall → Prop
  | pruneLock (hp : call.phase = .pruneLock) (hf : around.selectFree = true) :
      Turn manager around call manager (call.countNext manager 0 0)
  | counted {next connected lane} (hp : call.phase = .counting next connected)
      (hl : manager.lanes[next]? = some lane) :
      Turn manager around call manager (call.countNext manager (next + 1)
        (if lane.control.isSome then connected + 1 else connected))
  | idle {next connected lane} (hp : call.phase = .checking next connected)
      (hl : manager.lanes[next]? = some lane)
      (hpru : shouldPruneIdleLane connected manager.minConnections lane.health.activeStreams
        lane.health.pendingStreamOpens lane.health.lastActivityAt around.now = true) :
      Turn manager around call manager (call.goto (.pruning next connected))
  | busy {next connected} (hp : call.phase = .checking next connected) :
      Turn manager around call manager (call.goto (manager.checkNext (next + 1) connected))
  | pruned {next connected lane} (hp : call.phase = .pruning next connected)
      (hl : manager.lanes[next]? = some lane) (hco : lane.control.isSome = true)
      (hf : around.controlFree next = true) :
      Turn manager around call (manager.setControl next none)
        { call with
          phase := manager.checkNext (next + 1) (connected - 1)
          cleared := call.cleared + 1 }
  | unpruned {next connected} (hp : call.phase = .pruning next connected) :
      Turn manager around call manager (call.goto (manager.checkNext (next + 1) connected))
  | chosen {lane l} (hp : call.phase = .selectLock) (hf : around.selectFree = true)
      (hl : manager.lanes[lane]? = some l) (heg : manager.eligible call.priority l = true) :
      Turn manager around call manager (call.goto (.reserving lane))
  | reserved {lane l} (hp : call.phase = .reserving lane)
      (hl : manager.lanes[lane]? = some l) :
      Turn manager around call (manager.updateHealth lane (·.reserve)) (call.goto (.noting lane))
  | noted {lane} (hp : call.phase = .noting lane) :
      Turn manager around call (manager.updateHealth lane (·.recordLaneActivity around.now))
        (call.goto (.aging lane 1))
  | expired {lane attempt l aged} (hp : call.phase = .aging lane attempt)
      (hl : manager.lanes[lane]? = some l) (hage : l.health.connected = some aged) :
      Turn manager around call manager (call.goto (.expiring lane attempt aged))
  | young {lane attempt} (hp : call.phase = .aging lane attempt) :
      Turn manager around call manager (call.goto (.looking lane attempt))
  | discarded {lane attempt aged} (hp : call.phase = .expiring lane attempt aged)
      (hf : around.controlFree lane = true) :
      Turn manager around call (manager.setControl lane none) (call.goto (.looking lane attempt))
  | found {lane attempt} (hp : call.phase = .looking lane attempt ∨
        call.phase = .rechecking lane attempt) :
      Turn manager around call manager (call.goto (.opening lane attempt))
  | missing {lane attempt} (hp : call.phase = .looking lane attempt) :
      Turn manager around call manager (call.goto (.connectLock lane attempt))
  | connectLock {lane attempt} (hp : call.phase = .connectLock lane attempt)
      (hf : around.connectFree lane = true) :
      Turn manager around call manager (call.goto (.rechecking lane attempt))
  | unconnected {lane attempt l} (hp : call.phase = .rechecking lane attempt)
      (hl : manager.lanes[lane]? = some l) (hco : l.control = none) :
      Turn manager around call manager (call.goto (.dialing lane attempt))
  | dialed {lane attempt} (hp : call.phase = .dialing lane attempt) :
      Turn manager around call manager (call.goto (.connecting lane attempt))
  | undialed {lane attempt} (hp : call.phase = .dialing lane attempt) :
      Turn manager around call manager (call.goto (.undialed lane))
  | dialRecorded {lane} (hp : call.phase = .undialed lane) :
      Turn manager around call (manager.updateHealth lane (·.recordLaneActivity around.now))
        (call.goto (.releasing lane))
  | connected {lane attempt} (hp : call.phase = .connecting lane attempt) : Turn manager around call
        (manager.updateHealth lane (·.recordLaneConnected ⟨around.fresh, around.now⟩))
        (call.goto (.pinging lane attempt ⟨around.fresh, around.now⟩))
  | answered {lane attempt connection} (hp : call.phase = .pinging lane attempt connection) :
      Turn manager around call manager (call.goto (.ponged lane attempt connection))
  | unanswered {lane attempt connection} (hp : call.phase = .pinging lane attempt connection) :
      Turn manager around call manager (call.goto (.installing lane attempt connection))
  | ponged {lane attempt connection} (hp : call.phase = .ponged lane attempt connection) :
      Turn manager around call (manager.updateHealth lane (·.recordLaneActivity around.now))
        (call.goto (.installing lane attempt connection))
  | installed {lane attempt connection l}
      (hp : call.phase = .installing lane attempt connection)
      (hf : around.controlFree lane = true) (hl : manager.lanes[lane]? = some l) :
      Turn manager around call (manager.setControl lane (some connection))
        (call.goto (.opening lane attempt))
  | opening {lane attempt l connection} (hp : call.phase = .opening lane attempt)
      (hf : around.controlFree lane = true) (hl : manager.lanes[lane]? = some l)
      (hco : l.control = some connection) :
      Turn manager around call manager (call.goto (.awaiting lane attempt connection))
  | lost {lane attempt} (hp : call.phase = .opening lane attempt) :
      Turn manager around call manager (call.goto (manager.nextAttempt lane attempt))
  | succeeded {lane attempt connection} (hp : call.phase = .awaiting lane attempt connection) :
      Turn manager around call manager (call.goto (.succeeded lane))
  | failed {lane attempt connection} (hp : call.phase = .awaiting lane attempt connection) :
      Turn manager around call manager (call.goto (.failing lane attempt connection))
  | successRecorded {lane l} (hp : call.phase = .succeeded lane)
      (hl : manager.lanes[lane]? = some l) :
      Turn manager around call (manager.updateHealth lane (·.recordOpenSuccess around.now))
        (call.goto (.returned (some lane)))
  | thrownAway {lane attempt connection} (hp : call.phase = .failing lane attempt connection)
      (hf : around.controlFree lane = true) :
      Turn manager around call (manager.setControl lane none) (call.goto (.erring lane attempt))
  | errorRecorded {lane attempt} (hp : call.phase = .erring lane attempt) :
      Turn manager around call (manager.updateHealth lane (·.recordLaneActivity around.now))
        (call.goto (manager.nextAttempt lane attempt))
  | released {lane} (hp : call.phase = .releasing lane) :
      Turn manager around call (manager.updateHealth lane (·.releaseLaneReservation around.now))
        (call.goto (.returned none))

variable {manager manager' : TunnelManager} {around : Surroundings} {call call' : OpenCall}

theorem turn_of_step_go (h : call.step manager around .go = some (manager', call')) :
    Turn manager around call manager' call' := by
  cases hp : call.phase with
  | pruneLock =>
    simp only [step, hp, ite_none_right_eq_some] at h
    obtain ⟨hf, rfl, rfl⟩ := h
    exact .pruneLock hp hf
  | counting =>
    simp only [step, hp, ite_none_right_eq_some, map_eq_some_iff] at h
    obtain ⟨-, lane, hl, rfl, rfl⟩ := h
    exact .counted hp hl
  | checking =>
    simp only [step, hp, map_eq_some_iff] at h
    obtain ⟨lane, hl, h⟩ := h
    split at h <;> cases h
    · exact .idle hp hl ‹_›
    · exact .busy hp
  | pruning =>
    simp only [step, hp, ite_none_right_eq_some, map_eq_some_iff] at h
    obtain ⟨hf, lane, hl, h⟩ := h
    split at h <;> cases h
    · exact .pruned hp hl ‹_› hf
    · exact .unpruned hp
  | reserving =>
    simp only [step, hp, map_eq_some_iff] at h
    obtain ⟨l, hl, rfl, rfl⟩ := h
    exact .reserved hp hl
  | succeeded =>
    simp only [step, hp, map_eq_some_iff] at h
    obtain ⟨l, hl, rfl, rfl⟩ := h
    exact .successRecorded hp hl
  | aging =>
    simp only [step, hp, map_eq_some_iff] at h
    obtain ⟨l, hl, h⟩ := h
    split at h
    · split at h <;> cases h
      · exact .expired hp hl ‹_›
      · exact .young hp
    · cases h
      exact .young hp
  | looking =>
    simp only [step, hp, ite_none_right_eq_some, map_eq_some_iff] at h
    obtain ⟨-, l, hl, rfl, rfl⟩ := h
    split
    · exact .found (.inl hp)
    · exact .missing hp
  | rechecking =>
    simp only [step, hp, ite_none_right_eq_some, map_eq_some_iff] at h
    obtain ⟨-, l, hl, rfl, rfl⟩ := h
    split
    · exact .found (.inr hp)
    · exact .unconnected hp hl (by simpa using ‹¬l.control.isSome = true›)
  | opening =>
    simp only [step, hp, ite_none_right_eq_some, map_eq_some_iff] at h
    obtain ⟨hf, l, hl, rfl, rfl⟩ := h
    split
    · exact .opening hp hf hl ‹_›
    · exact .lost hp
  | installing =>
    simp only [step, hp, ite_none_right_eq_some, map_eq_some_iff] at h
    obtain ⟨hf, l, hl, rfl, rfl⟩ := h
    exact .installed hp hf hl
  | expiring | connectLock | failing =>
    simp only [step, hp, ite_none_right_eq_some] at h
    obtain ⟨hf, rfl, rfl⟩ := h
    first
      | exact .discarded hp hf
      | exact .connectLock hp hf
      | exact .thrownAway hp hf
  | noting | undialed | connecting | ponged | erring | releasing =>
    simp only [step, hp] at h
    obtain ⟨rfl, rfl⟩ := h
    first
      | exact .noted hp
      | exact .dialRecorded hp
      | exact .connected hp
      | exact .ponged hp
      | exact .errorRecorded hp
      | exact .released hp
  | _ => simp [step, hp] at h

theorem turn_of_step (h : call.step manager around input = some (manager', call')) :
    Turn manager around call manager' call' := by
  cases input with
  | go => exact turn_of_step_go h
  | choose =>
    simp only [step] at h
    split at h
    · simp only [ite_none_right_eq_some, any_eq_true] at h
      obtain ⟨⟨hf, l, hl, heg⟩, rfl, rfl⟩ := h
      exact .chosen ‹_› hf hl heg
    · cases h
  | dialed ok =>
    simp only [step] at h
    split at h <;> cases h
    cases ok
    · exact .undialed ‹_›
    · exact .dialed ‹_›
  | pinged answered =>
    simp only [step] at h
    split at h <;> cases h
    cases answered
    · exact .unanswered ‹_›
    · exact .answered ‹_›
  | opened ok =>
    simp only [step] at h
    split at h <;> cases h
    cases ok
    · exact .failed ‹_›
    · exact .succeeded ‹_›

end OpenCall

/-! ## The service -/

inductive StreamPhase where
  | opened
  /-- In `record_stream_bytes` of this manager: for the health of the lane. -/
  | recording (manager : Nat)
  | recorded
  deriving DecidableEq, Repr

structure TunnelStream where
  manager : Nat
  lane : Nat
  clientToRemote : Nat := 0
  remoteToClient : Nat := 0
  phase : StreamPhase := .opened
  deriving DecidableEq, Repr

/-- The service, with every manager that it has had; the last one is its current one. -/
structure TunnelService where
  managers : List TunnelManager
  calls : List OpenCall := []
  streams : List TunnelStream := []
  now : Nat := 0
  fresh : Nat := 0
  deriving DecidableEq, Repr

inductive ServiceEvent where
  | tick (n : Nat)
  | openStream (priority : StreamPriority)
  | call (i : Nat) (input : OpenInput)
  | drop (i : Nat)
  /-- `poll_read` and `poll_write` of a `MeteredTunnelStream`. -/
  | transfer (i : Nat) (clientToRemote remoteToClient : Nat)
  | record (i : Nat)
  | recorded (i : Nat)
  | replace (pool : TunnelPoolConfig)
  deriving DecidableEq

namespace TunnelService

def new (pool : TunnelPoolConfig) : TunnelService := { managers := [.new pool] }

def current (s : TunnelService) : Nat := s.managers.length - 1

def surroundings (s : TunnelService) (manager : Nat) : Surroundings where
  selectFree := s.calls.all fun c => c.manager != manager || !c.phase.holdsSelect
  controlFree lane := s.calls.all fun c => c.manager != manager || c.phase.holdsControl != some lane
  connectFree lane := s.calls.all fun c => c.manager != manager || c.phase.holdsConnect != some lane
  now := s.now
  fresh := s.fresh

def opened (call : OpenCall) : List TunnelStream :=
  match call.phase with
  | .returned (some lane) => [{ manager := call.manager, lane := lane }]
  | _ => []

/-- `MeteredTunnelStream`: the bytes of the stream are in flight on its own lane. -/
def transferOn (m : TunnelManager) (stream : TunnelStream) (clientToRemote remoteToClient : Nat) :
    TunnelManager :=
  m.update stream.lane fun lane => { lane with
    inflightClientToRemote := lane.inflightClientToRemote + clientToRemote
    inflightRemoteToClient := lane.inflightRemoteToClient + remoteToClient }

/-- The first part of `record_stream_bytes`: the bytes are no longer in flight. -/
def landOn (m : TunnelManager) (stream : TunnelStream) : TunnelManager :=
  m.update stream.lane fun lane => { lane with
    inflightClientToRemote := lane.inflightClientToRemote - stream.clientToRemote
    inflightRemoteToClient := lane.inflightRemoteToClient - stream.remoteToClient }

def step (s : TunnelService) : ServiceEvent → Option TunnelService
  | .tick n => some { s with now := s.now + n }
  | .openStream priority =>
    some { s with calls := s.calls ++ [{ manager := s.current, priority := priority }] }
  | .call i input => do
    let call ← s.calls[i]?
    let manager ← s.managers[call.manager]?
    let (manager', call') ← call.step manager (s.surroundings call.manager) input
    some { s with
      managers := s.managers.set call.manager manager'
      calls := s.calls.set i call'
      streams := s.streams ++ opened call'
      fresh := s.fresh + 1 }
  | .drop i => do
    let call ← s.calls[i]?
    if call.phase.isOver then none else some { s with calls := s.calls.set i (call.goto .dropped) }
  | .transfer i clientToRemote remoteToClient => do
    let stream ← s.streams[i]?
    let manager ← s.managers[stream.manager]?
    if stream.phase = .opened then
      some { s with
        managers := s.managers.set stream.manager
          (transferOn manager stream clientToRemote remoteToClient)
        streams := s.streams.set i { stream with
          clientToRemote := stream.clientToRemote + clientToRemote
          remoteToClient := stream.remoteToClient + remoteToClient } }
    else none
  | .record i => do
    let stream ← s.streams[i]?
    let manager ← s.managers[s.current]?
    if stream.phase = .opened then
      match manager.lanes[stream.lane]? with
      | some _ =>
        some { s with
          managers := s.managers.set s.current (landOn manager stream)
          streams := s.streams.set i { stream with phase := .recording s.current } }
      -- No lane of the current manager has this number.
      | none => some { s with streams := s.streams.set i { stream with phase := .recorded } }
    else none
  | .recorded i => do
    let stream ← s.streams[i]?
    match stream.phase with
    | .recording m => do
      let manager ← s.managers[m]?
      some { s with
        managers := s.managers.set m (manager.updateHealth stream.lane
          (·.recordStreamBytes stream.clientToRemote stream.remoteToClient s.now))
        streams := s.streams.set i { stream with phase := .recorded } }
    | _ => none
  | .replace pool => some { s with managers := s.managers ++ [.new pool] }

/-- **What can happen to the service.** -/
inductive Transition (s : TunnelService) : ServiceEvent → TunnelService → Prop
  | tick {n} : Transition s (.tick n) { s with now := s.now + n }
  | openStream {priority} : Transition s (.openStream priority)
      { s with calls := s.calls ++ [{ manager := s.current, priority := priority }] }
  | call {i input call manager manager' call'} (hc : s.calls[i]? = some call)
      (hm : s.managers[call.manager]? = some manager)
      (htur : call.Turn manager (s.surroundings call.manager) manager' call') :
      Transition s (.call i input)
        { s with
          managers := s.managers.set call.manager manager'
          calls := s.calls.set i call'
          streams := s.streams ++ opened call'
          fresh := s.fresh + 1 }
  | drop {i call} (hc : s.calls[i]? = some call) (ho : call.phase.isOver = false) :
      Transition s (.drop i) { s with calls := s.calls.set i (call.goto .dropped) }
  | transfer {i clientToRemote remoteToClient stream manager} (hs : s.streams[i]? = some stream)
      (hm : s.managers[stream.manager]? = some manager) (ho : stream.phase = .opened) :
      Transition s (.transfer i clientToRemote remoteToClient)
        { s with
          managers := s.managers.set stream.manager
            (transferOn manager stream clientToRemote remoteToClient)
          streams := s.streams.set i { stream with
            clientToRemote := stream.clientToRemote + clientToRemote
            remoteToClient := stream.remoteToClient + remoteToClient } }
  | record {i stream manager lane} (hs : s.streams[i]? = some stream)
      (hm : s.managers[s.current]? = some manager) (ho : stream.phase = .opened)
      (hl : manager.lanes[stream.lane]? = some lane) :
      Transition s (.record i)
        { s with
          managers := s.managers.set s.current (landOn manager stream)
          streams := s.streams.set i { stream with phase := .recording s.current } }
  | unknownLane {i stream manager} (hs : s.streams[i]? = some stream)
      (hm : s.managers[s.current]? = some manager) (ho : stream.phase = .opened)
      (hl : manager.lanes[stream.lane]? = none) :
      Transition s (.record i)
        { s with streams := s.streams.set i { stream with phase := .recorded } }
  | recorded {i stream m manager} (hs : s.streams[i]? = some stream)
      (hp : stream.phase = .recording m) (hm : s.managers[m]? = some manager) :
      Transition s (.recorded i)
        { s with
          managers := s.managers.set m (manager.updateHealth stream.lane
            (·.recordStreamBytes stream.clientToRemote stream.remoteToClient s.now))
          streams := s.streams.set i { stream with phase := .recorded } }
  | replace {pool} : Transition s (.replace pool) { s with managers := s.managers ++ [.new pool] }

theorem transition_of_step (h : s.step e = some s') : Transition s e s' := by
  cases e with
  | tick | openStream | replace =>
    cases h
    constructor
  | call =>
    simp only [step, bind_eq_bind, bind_eq_some_iff, Option.some.injEq] at h
    obtain ⟨call, hc, manager, hm, ⟨manager', call'⟩, hst, rfl⟩ := h
    exact .call hc hm (OpenCall.turn_of_step hst)
  | drop =>
    simp only [step, bind_eq_bind, bind_eq_some_iff] at h
    obtain ⟨call, hc, h⟩ := h
    split at h <;> cases h
    exact .drop hc (by simpa using ‹¬call.phase.isOver = true›)
  | transfer =>
    simp only [step, bind_eq_bind, bind_eq_some_iff, ite_none_right_eq_some, Option.some.injEq] at h
    obtain ⟨stream, hs, manager, hm, ho, rfl⟩ := h
    exact .transfer hs hm ho
  | record =>
    simp only [step, bind_eq_bind, bind_eq_some_iff, ite_none_right_eq_some] at h
    obtain ⟨stream, hs, manager, hm, ho, h⟩ := h
    split at h <;> cases h
    · exact .record hs hm ho ‹_›
    · exact .unknownLane hs hm ho ‹_›
  | recorded =>
    simp only [step, bind_eq_bind, bind_eq_some_iff] at h
    obtain ⟨stream, hs, h⟩ := h
    split at h
    · simp only [bind_eq_some_iff, Option.some.injEq] at h
      obtain ⟨manager, hm, rfl⟩ := h
      exact .recorded hs ‹_› hm
    · cases h

end TunnelService

end Espejismo.Client
