import Espejismo.Client.Tunnel.Streams
import Espejismo.Data.Locks

/-!
# Client.Tunnel.Connections

The connection of a lane and the calls that install and clear it.  A call clears the
control of its lane when it found the connection too old or when its own open failed
on it; it decides this under one lock and clears the control under another, so the
control may be a different one by then.  `Role` is what a call knows about its lane.
-/

namespace Espejismo.Client

open Machine Locks List Option

/-! ## What a call knows about its lane -/

inductive Role where
  | none
  /-- Holds `connect_lock` of a lane without a control. -/
  | dials (lane : Nat)
  /-- Also, its connection is the last one of the lane. -/
  | dialed (lane : Nat) (connection : Connection)
  /-- Holds the lock of the control, which is this one. -/
  | opens (lane : Nat) (connection : Connection)
  /-- Is about to clear the control, because of this connection. -/
  | discards (lane : Nat) (connection : Connection)

def OpenPhase.role : OpenPhase → Role
  | .dialing lane _ | .undialed lane | .connecting lane _ => .dials lane
  | .pinging lane _ connection | .ponged lane _ connection | .installing lane _ connection =>
    .dialed lane connection
  | .awaiting lane _ connection => .opens lane connection
  | .expiring lane _ connection | .failing lane _ connection => .discards lane connection
  | _ => .none

def Role.Fits (x : Nat) (l : TunnelLane) : Role → Prop
  | .none => True
  | .dials lane => lane = x → l.control = Option.none
  | .dialed lane connection =>
    lane = x → l.control = Option.none ∧ l.health.connected = some connection
  | .opens lane connection => lane = x → l.control = some connection
  | .discards lane connection => lane = x → ∀ c, l.control = some c → c = connection

def TunnelLane.Known (l : TunnelLane) : Prop := ∀ c, l.control = some c → l.health.connected =
    some c

/-! ## What a step does to a lane -/

/-- How a step of a call changes the lane with this number. -/
inductive Change (around : Surroundings) (call : OpenCall) (x : Nat) (l l' : TunnelLane) : Prop
  | kept (hco : l'.control = l.control) (hcn : l'.health.connected = l.health.connected)
  | cleared (hp : (∃ connected, call.phase = .pruning x connected) ∨
        ∃ c, call.phase.role = .discards x c)
      (hf : around.controlFree x = true) (hco : l'.control = none)
      (hcn : l'.health.connected = l.health.connected)
  | installed {attempt : Nat} {connection : Connection}
      (hp : call.phase = .installing x attempt connection)
      (hf : around.controlFree x = true) (hco : l'.control = some connection)
      (hcn : l'.health.connected = l.health.connected)
  | connected {attempt : Nat} {connection : Connection}
      (hp : call.phase = .connecting x attempt) (hco : l'.control = l.control)
      (hcn : l'.health.connected = some connection)

namespace TunnelManager

variable {manager : TunnelManager} {lane x : Nat} {l' : TunnelLane}

theorem of_update (h : (manager.update lane g).lanes[x]? = some l') :
    ∃ l, manager.lanes[x]? = some l ∧ l' = if lane = x then g l else l := by
  rw [update, List.getElem?_modify, Option.map_eq_map, Option.map_eq_some_iff] at h
  obtain ⟨l, hl, rfl⟩ := h
  refine ⟨l, hl, ?_⟩
  split <;> rfl

end TunnelManager

namespace OpenCall

variable {manager : TunnelManager} {around : Surroundings} {call : OpenCall} {x : Nat}
  {l l' : TunnelLane}

variable {lane : Nat}

theorem change_of_health (h : (manager.updateHealth lane g).lanes[x]? = some l')
    (hg : ∀ health, (g health).connected = health.connected) :
    ∃ l, manager.lanes[x]? = some l ∧ Change around call x l l' := by
  obtain ⟨l, hl, rfl⟩ := TunnelManager.of_update h
  refine ⟨l, hl, ?_⟩
  split
  · exact .kept rfl (hg _)
  · exact .kept rfl rfl

theorem change_of_clear (hp : (∃ connected, call.phase = .pruning lane connected) ∨
      ∃ c, call.phase.role = .discards lane c) (hf : around.controlFree lane = true)
    (h : (manager.setControl lane none).lanes[x]? = some l') :
    ∃ l, manager.lanes[x]? = some l ∧ Change around call x l l' := by
  obtain ⟨l, hl, rfl⟩ := TunnelManager.of_update h
  refine ⟨l, hl, ?_⟩
  split
  · next he =>
    subst he
    exact .cleared hp hf rfl rfl
  · exact .kept rfl rfl

theorem Turn.change (ht : call.Turn manager around manager' call')
    (h : manager'.lanes[x]? = some l') :
    ∃ l, manager.lanes[x]? = some l ∧ Change around call x l l' := by
  cases ht with
  | pruned hp _ _ hf => exact change_of_clear (.inl ⟨_, hp⟩) hf h
  | discarded hp hf | thrownAway hp hf =>
    exact change_of_clear (.inr ⟨_, by rw [hp]; rfl⟩) hf h
  | reserved | noted | dialRecorded | ponged | successRecorded | errorRecorded | released =>
    exact change_of_health h fun _ => rfl
  | installed hp hf =>
    obtain ⟨l, hl, rfl⟩ := TunnelManager.of_update h
    refine ⟨l, hl, ?_⟩
    split
    · next he =>
      subst he
      exact .installed hp hf rfl rfl
    · exact .kept rfl rfl
  | connected hp =>
    obtain ⟨l, hl, rfl⟩ := TunnelManager.of_update h
    refine ⟨l, hl, ?_⟩
    split
    · next he =>
      subst he
      exact .connected hp rfl rfl
    · exact .kept rfl rfl
  | _ => exact ⟨l', h, .kept rfl rfl⟩

theorem Turn.exists_lane (ht : call.Turn manager around manager' call')
    (h : manager.lanes[x]? = some l) : ∃ l', manager'.lanes[x]? = some l' := by
  have hup (lane : Nat) (g : TunnelLane → TunnelLane) :
      ∃ l', (manager.update lane g).lanes[x]? = some l' := by
    simp [TunnelManager.update, List.getElem?_modify, h]
  cases ht <;> first | exact hup _ _ | exact ⟨l, h⟩

theorem holdsConnect_checkNext (next connected : Nat) :
    (manager.checkNext next connected).holdsConnect = none := by
  unfold TunnelManager.checkNext
  split <;> rfl

theorem holdsConnect_countNext (next connected : Nat) :
    (call.countNext manager next connected).phase.holdsConnect = none := by
  unfold countNext
  split
  · rfl
  · exact holdsConnect_checkNext 0 connected

theorem holdsConnect_nextAttempt (lane attempt : Nat) :
    (manager.nextAttempt lane attempt).holdsConnect = none := by
  unfold TunnelManager.nextAttempt
  split <;> rfl

theorem role_checkNext (next connected : Nat) :
    (manager.checkNext next connected).role = .none := by
  unfold TunnelManager.checkNext
  split <;> rfl

theorem role_countNext (next connected : Nat) :
    (call.countNext manager next connected).phase.role = .none := by
  unfold countNext
  split
  · rfl
  · exact role_checkNext 0 connected

theorem role_nextAttempt (lane attempt : Nat) :
    (manager.nextAttempt lane attempt).role = .none := by
  unfold TunnelManager.nextAttempt
  split <;> rfl

theorem Turn.of_installing (ht : call.Turn manager around manager' call')
    (hp : call.phase = .installing lane attempt connection) :
    around.controlFree lane = true ∧ ∃ l, manager.lanes[lane]? = some l ∧
      manager' = manager.setControl lane (some connection) ∧
      call' = call.goto (.opening lane attempt) := by
  cases ht with
  | installed hp' hf hla =>
    rw [hp] at hp'
    cases hp'
    exact ⟨hf, _, hla, rfl, rfl⟩
  | found hp' =>
    rw [hp] at hp'
    obtain hp' | hp' := hp' <;> cases hp'
  | _ hp' =>
    rw [hp] at hp'
    cases hp'

theorem Turn.holdsConnect (ht : call.Turn manager around manager' call')
    (h : call'.phase.holdsConnect = some x) :
    call.phase.holdsConnect = some x ∨ around.connectFree x = true := by
  cases ht with
  | connectLock hp hf =>
    cases h
    exact .inr hf
  | unconnected hp | dialed hp | undialed hp | connected hp | answered hp
  | unanswered hp | ponged hp =>
    rw [hp]
    exact .inl h
  | pruneLock | counted =>
    rw [holdsConnect_countNext] at h
    cases h
  | busy | unpruned | pruned =>
    simp only [goto_phase, holdsConnect_checkNext] at h
    cases h
  | lost | errorRecorded =>
    simp only [goto_phase, holdsConnect_nextAttempt] at h
    cases h
  | _ => cases h

theorem Turn.fits (ht : call.Turn manager around manager' call')
    (hft : ∀ x l, manager.lanes[x]? = some l → call.phase.role.Fits x l)
    (hkn : ∀ (x : Nat) (l : TunnelLane), manager.lanes[x]? = some l → l.Known)
    (h : manager'.lanes[x]? = some l') : call'.phase.role.Fits x l' := by
  cases ht with
  | expired hp hla hag =>
    rintro rfl c hc
    rw [hla] at h
    cases h
    have hls := hkn _ _ hla c hc
    rw [hag] at hls
    exact (Option.some.inj hls).symm
  | unconnected hp hla hco | opening hp hf hla hco =>
    rintro rfl
    rw [hla] at h
    cases h
    exact hco
  | dialed hp | undialed hp | answered hp | unanswered hp =>
    have hfi := hft x l' h
    rw [hp] at hfi
    exact hfi
  | connected hp =>
    rintro rfl
    obtain ⟨l, hl, rfl⟩ := TunnelManager.of_update h
    have hfi := hft _ l hl
    rw [hp] at hfi
    simpa [LaneHealth.recordLaneConnected, LaneHealth.recordLaneActivity] using hfi rfl
  | ponged hp =>
    rintro rfl
    obtain ⟨l, hl, rfl⟩ := TunnelManager.of_update h
    have hfi := hft _ l hl
    rw [hp] at hfi
    simpa [LaneHealth.recordLaneActivity] using hfi rfl
  | failed hp =>
    rintro rfl c hc
    have hfi := hft _ l' h
    rw [hp] at hfi
    rw [hfi rfl] at hc
    exact (Option.some.inj hc).symm
  | pruneLock | counted =>
    rw [role_countNext]
    trivial
  | busy | unpruned | pruned =>
    simp only [goto_phase, role_checkNext]
    trivial
  | lost | errorRecorded =>
    simp only [goto_phase, role_nextAttempt]
    trivial
  | _ => trivial

end OpenCall

/-! ## The other calls -/

namespace OpenPhase

variable {phase : OpenPhase} {lane : Nat} {connection : Connection}

theorem holdsConnect_of_dials (h : phase.role = .dials lane) : phase.holdsConnect = some lane := by
  cases phase <;> cases h <;> rfl

theorem holdsConnect_of_dialed (h : phase.role = .dialed lane connection) :
    phase.holdsConnect = some lane := by
  cases phase <;> cases h <;> rfl

theorem holdsControl_of_opens (h : phase.role = .opens lane connection) :
    phase.holdsControl = some lane := by
  cases phase <;> cases h
  rfl

end OpenPhase

namespace Change

variable {around : Surroundings} {call other : OpenCall} {x : Nat} {l l' : TunnelLane}

theorem known (hch : Change around call x l l') (hfi : call.phase.role.Fits x l) (hl : l.Known) :
    l'.Known := by
  intro c hc
  cases hch with
  | kept hco hcn =>
    rw [hcn]
    exact hl c (hco ▸ hc)
  | cleared _ _ hco =>
    rw [hco] at hc
    cases hc
  | installed hp hf hco hcn =>
    rw [hp] at hfi
    rw [hcn, ← hc, hco]
    exact (hfi rfl).2
  | connected hp hco =>
    rw [hp] at hfi
    rw [hco, hfi rfl] at hc
    cases hc

theorem fits (hch : Change around call x l l') (hfi : other.phase.role.Fits x l)
    (hco : around.controlFree x = true → other.phase.holdsControl ≠ some x)
    (hcc : call.phase.holdsConnect = some x → other.phase.holdsConnect ≠ some x)
    (hqu : ∀ attempt c, call.phase = .installing x attempt c →
      ∀ c', other.phase.role = .discards x c' → c' = c) : other.phase.role.Fits x l' := by
  cases hr : other.phase.role with
  | none => trivial
  | dials =>
    rintro rfl
    have hh := OpenPhase.holdsConnect_of_dials hr
    rw [hr] at hfi
    cases hch with
    | kept hc => rw [hc, hfi rfl]
    | cleared _ _ hc => exact hc
    | installed hp | connected hp => exact absurd hh (hcc (by rw [hp]; rfl))
  | dialed =>
    rintro rfl
    have hh := OpenPhase.holdsConnect_of_dialed hr
    rw [hr] at hfi
    cases hch with
    | kept hc hk => rw [hc, hk]; exact hfi rfl
    | cleared _ _ hc hk => exact ⟨hc, by rw [hk]; exact (hfi rfl).2⟩
    | installed hp => exact absurd hh (hcc (by rw [hp]; rfl))
    | connected hp => exact absurd hh (hcc (by rw [hp]; rfl))
  | opens =>
    rintro rfl
    have hh := OpenPhase.holdsControl_of_opens hr
    rw [hr] at hfi
    cases hch with
    | kept hc | connected _ hc => rw [hc]; exact hfi rfl
    | cleared _ hf | installed _ hf => exact absurd hh (hco hf)
  | discards lane c =>
    rintro rfl c' hc'
    rw [hr] at hfi
    cases hch with
    | kept hc | connected _ hc => exact hfi rfl c' (hc ▸ hc')
    | cleared _ _ hc => rw [hc] at hc'; cases hc'
    | installed hp _ hc =>
      rw [hc] at hc'
      cases hc'
      exact (hqu _ _ hp c hr).symm

end Change

/-! ## Every run -/

namespace TunnelService

variable {s s' : TunnelService} {e : ServiceEvent}

def connectHeld (call : OpenCall) : Option (Nat × Nat) :=
  call.phase.holdsConnect.map fun lane => (call.manager, lane)

variable {call : OpenCall} {m x : Nat} {lane i : Nat} {manager : TunnelManager}

theorem connectHeld_eq_some :
    connectHeld call = some (m, x) ↔ call.manager = m ∧ call.phase.holdsConnect = some x := by
  simp only [connectHeld, map_eq_some_iff, Prod.mk.injEq]
  constructor
  · rintro ⟨_, hx, hm, rfl⟩
    exact ⟨hm, hx⟩
  · rintro ⟨hm, hx⟩
    exact ⟨x, hx, hm, rfl⟩

theorem not_holdsControl (h : (s.surroundings m).controlFree x = true) :
    ∀ call ∈ s.calls, call.manager = m → call.phase.holdsControl ≠ some x := by
  intro call hca hm
  have := all_eq_true.mp h call hca
  simpa [hm] using this

theorem free_connect (h : (s.surroundings m).connectFree x = true) :
    Free connectHeld s.calls (m, x) := by
  intro call hca hhe
  obtain ⟨hm, hx⟩ := connectHeld_eq_some.mp hhe
  have := all_eq_true.mp h call hca
  simp [hm, hx] at this

structure Linked (s : TunnelService) : Prop where
  inside : 0 < s.managers.length ∧ ∀ call ∈ s.calls, call.manager < s.managers.length
  known : ∀ (m x : Nat) (manager : TunnelManager) (l : TunnelLane),
    s.managers[m]? = some manager → manager.lanes[x]? = some l → l.Known
  fits : ∀ call ∈ s.calls, ∀ (manager : TunnelManager) (x : Nat) (l : TunnelLane),
    s.managers[call.manager]? = some manager → manager.lanes[x]? = some l → call.phase.role.Fits x l
  alone : Exclusive connectHeld s.calls

/-- A connection is installed while no other call is about to clear the lane's control
because of another connection. -/
def InstallsAlone (s : TunnelService) : ServiceEvent → Prop
  | .call i _ => ∀ call, s.calls[i]? = some call → ∀ lane attempt connection,
      call.phase = .installing lane attempt connection →
        ∀ other ∈ s.calls, other.manager = call.manager →
          ∀ c, other.phase.role = .discards lane c → c = connection
  | _ => True

theorem Linked.of_lanes (hs : s.Linked) (hcs : s'.calls = s.calls)
    (hle : s'.managers.length = s.managers.length)
    (hln : ∀ (m x : Nat) (manager' : TunnelManager) (l' : TunnelLane),
      s'.managers[m]? = some manager' → manager'.lanes[x]? = some l' →
      ∃ manager l, s.managers[m]? = some manager ∧ manager.lanes[x]? = some l ∧
        l'.control = l.control ∧ l'.health.connected = l.health.connected) : s'.Linked := by
  refine ⟨?_, ?_, ?_, ?_⟩
  · rw [hcs, hle]
    exact hs.inside
  · intro m x manager' l' hma' hla' c hc
    obtain ⟨manager, l, hma, hla, hco, hcn⟩ := hln m x _ _ hma' hla'
    rw [hcn]
    exact hs.known m x manager l hma hla c (hco ▸ hc)
  · intro call hca manager' x l' hma' hla'
    obtain ⟨manager, l, hma, hla, hco, hcn⟩ := hln _ x _ _ hma' hla'
    have hfi := hs.fits call (hcs ▸ hca) manager x l hma hla
    revert hfi
    cases call.phase.role <;> simp only [Role.Fits, hco, hcn] <;> exact id
  · rw [hcs]
    exact hs.alone

theorem lanes_of_update {managers : List TunnelManager} (hma : managers[m]? = some manager)
    (hg : ∀ l, (g l).control = l.control ∧ (g l).health.connected = l.health.connected) (m' x : Nat)
    (manager' : TunnelManager) (l' : TunnelLane)
    (hma' : (managers.set m (manager.update lane g))[m']? = some manager')
    (hla' : manager'.lanes[x]? = some l') :
    ∃ manager l, managers[m']? = some manager ∧ manager.lanes[x]? = some l ∧
      l'.control = l.control ∧ l'.health.connected = l.health.connected := by
  by_cases hm : m = m'
  · subst hm
    rw [List.getElem?_set_self (List.getElem?_eq_some_iff.mp hma).1] at hma'
    cases hma'
    obtain ⟨l, hl, rfl⟩ := TunnelManager.of_update hla'
    refine ⟨manager, l, hma, hl, ?_⟩
    split
    · exact hg l
    · exact ⟨rfl, rfl⟩
  · rw [List.getElem?_set_ne hm] at hma'
    exact ⟨manager', l', hma', hla', rfl, rfl⟩

section Turn

variable {i : Nat} {call : OpenCall} {manager : TunnelManager} {l' : TunnelLane} {input : OpenInput}

theorem Linked.known_turn (hs : s.Linked) (hca : s.calls[i]? = some call)
    (hma : s.managers[call.manager]? = some manager)
    (htu : call.Turn manager (s.surroundings call.manager) manager' call')
    (ho : (s.managers.set call.manager manager')[m]? = some other)
    (hla : other.lanes[x]? = some l') : l'.Known := by
  obtain ⟨rfl, rfl⟩ | ⟨-, ho⟩ := getElem?_set_cases ho
  · obtain ⟨l, hl, hch⟩ := htu.change hla
    exact hch.known (hs.fits call (mem_of_getElem? hca) manager x l hma hl)
      (hs.known _ x manager l hma hl)
  · exact hs.known m x other l' ho hla

theorem Linked.fits_turn (hs : s.Linked) (hok : s.InstallsAlone (.call i input))
    (hca : s.calls[i]? = some call) (hma : s.managers[call.manager]? = some manager)
    (htu : call.Turn manager (s.surroundings call.manager) manager' call') {j : Nat}
    (ho : (s.calls.set i call')[j]? = some other)
    (hm' : (s.managers.set call.manager manager')[other.manager]? = some m')
    (hla : m'.lanes[x]? = some l') : other.phase.role.Fits x l' := by
  obtain ⟨rfl, rfl⟩ | ⟨hj, ho⟩ := getElem?_set_cases ho
  · rw [htu.manager_eq, List.getElem?_set_self (List.getElem?_eq_some_iff.mp hma).1] at hm'
    cases hm'
    exact htu.fits (fun x l hl => hs.fits call (List.mem_of_getElem? hca) manager x l hma hl)
      (fun x l hl => hs.known _ x manager l hma hl) hla
  · have hme := List.mem_of_getElem? ho
    obtain ⟨hm, rfl⟩ | ⟨-, hm'⟩ := getElem?_set_cases hm'
    · obtain ⟨l, hl, hch⟩ := htu.change hla
      refine hch.fits (hs.fits other hme manager x l (by rw [hm]; exact hma) hl) ?_ ?_ ?_
      · exact fun hf => not_holdsControl hf other hme hm
      · intro hh hh'
        exact hj (hs.alone i j call other _ hca ho (connectHeld_eq_some.mpr ⟨rfl, hh⟩)
          (connectHeld_eq_some.mpr ⟨hm, hh'⟩)).symm
      · intro attempt c hp c' hr
        exact hok call hca x attempt c hp other hme hm c' hr
    · exact hs.fits other hme m' x l' hm' hla

theorem Linked.turn (hs : s.Linked) (hok : s.InstallsAlone (.call i input))
    (hca : s.calls[i]? = some call) (hma : s.managers[call.manager]? = some manager)
    (htu : call.Turn manager (s.surroundings call.manager) manager' call') :
    Linked { s with
      managers := s.managers.set call.manager manager'
      calls := s.calls.set i call'
      streams := s.streams ++ opened call'
      fresh := s.fresh + 1 } where
  inside := by
    simp only [length_set]
    refine ⟨hs.inside.1, fun c hc => ?_⟩
    obtain hc | rfl := mem_or_eq_of_mem_set hc
    · exact hs.inside.2 c hc
    · rw [htu.manager_eq]
      exact hs.inside.2 call (mem_of_getElem? hca)
  known _ _ _ _ hm hl := hs.known_turn hca hma htu hm hl
  fits c hc m' x l' hm' hl' := by
    obtain ⟨j, hj⟩ := mem_iff_getElem?.mp hc
    exact hs.fits_turn hok hca hma htu hj hm' hl'
  alone := by
    refine hs.alone.set hca fun (m, x) hhe => ?_
    obtain ⟨hm, hx⟩ := connectHeld_eq_some.mp hhe
    rw [htu.manager_eq] at hm
    subst hm
    obtain hx | hf := htu.holdsConnect hx
    · exact .inl (connectHeld_eq_some.mpr ⟨rfl, hx⟩)
    · exact .inr (free_connect hf)

end Turn

theorem Linked.drop (hs : s.Linked) (hca : s.calls[i]? = some call) :
    Linked { s with calls := s.calls.set i (call.goto .dropped) } where
  inside := by
    refine ⟨hs.inside.1, fun c hc => ?_⟩
    obtain hc | rfl := mem_or_eq_of_mem_set hc
    · exact hs.inside.2 c hc
    · exact hs.inside.2 call (mem_of_getElem? hca)
  known := hs.known
  fits c hc := by
    obtain hc | rfl := mem_or_eq_of_mem_set hc
    · exact hs.fits c hc
    · exact fun _ _ _ _ _ => trivial
  alone := hs.alone.set hca nofun

theorem Linked.openStream (hs : s.Linked) (call : OpenCall) (hma : call.manager = s.current)
    (hr : call.phase.role = .none) (hcc : call.phase.holdsConnect = none) :
    Linked { s with calls := s.calls ++ [call] } where
  inside := by
    refine ⟨hs.inside.1, fun c hc => ?_⟩
    obtain hc | hc := mem_append.mp hc
    · exact hs.inside.2 c hc
    rw [mem_singleton.mp hc, hma, current]
    have := hs.inside.1
    dsimp only
    omega
  known := hs.known
  fits c hc := by
    obtain hc | hc := mem_append.mp hc
    · exact hs.fits c hc
    · rw [mem_singleton.mp hc, hr]
      exact fun _ _ _ _ _ => trivial
  alone := hs.alone.concat (by simp [connectHeld, hcc])

theorem Linked.replace (hs : s.Linked) (pool : TunnelPoolConfig) :
    Linked { s with managers := s.managers ++ [.new pool] } where
  inside := by
    simp only [length_append, length_singleton]
    exact ⟨by omega, fun c hc => Nat.lt_succ_of_lt (hs.inside.2 c hc)⟩
  known m x manager l hm hl := by
    obtain hm | ⟨-, rfl⟩ := getElem?_concat_cases hm
    · exact hs.known m x manager l hm hl
    · simp only [TunnelManager.new, getElem?_map, map_eq_some_iff] at hl
      obtain ⟨kind, -, rfl⟩ := hl
      simp [TunnelLane.Known]
  fits c hc manager x l hm hl := by
    obtain hm | ⟨hm, -⟩ := getElem?_concat_cases hm
    · exact hs.fits c hc manager x l hm hl
    · have := hs.inside.2 c hc
      omega
  alone := hs.alone

theorem Linked.step (hs : s.Linked) (hok : s.InstallsAlone e) (h : s.step e = some s') :
    s'.Linked := by
  cases transition_of_step h with
  | tick | unknownLane => exact ⟨hs.inside, hs.known, hs.fits, hs.alone⟩
  | openStream => exact hs.openStream _ rfl rfl rfl
  | call hca hma htu => exact hs.turn hok hca hma htu
  | drop hca => exact hs.drop hca
  | transfer hsr hma | record hsr hma | recorded hsr hp hma =>
    exact hs.of_lanes rfl (by simp) (lanes_of_update hma fun _ => ⟨rfl, rfl⟩)
  | replace => exact hs.replace _

theorem linked_new (pool : TunnelPoolConfig) : (new pool).Linked where
  inside := by simp [new]
  known m x manager l hm hl := by
    obtain rfl := mem_singleton.mp (mem_of_getElem? hm)
    simp only [TunnelManager.new, getElem?_map, map_eq_some_iff] at hl
    obtain ⟨kind, -, rfl⟩ := hl
    simp [TunnelLane.Known]
  fits := by simp [new]
  alone := exclusive_nil

/-- The connection that a lane of a manager holds. -/
def control (s : TunnelService) (m lane : Nat) : Option Connection :=
  (s.managers[m]?.bind fun manager => manager.lanes[lane]?).bind (·.control)

theorem control_eq_some {c : Connection} (h : s.control m x = some c) :
    ∃ manager l, s.managers[m]? = some manager ∧ manager.lanes[x]? = some l ∧
      l.control = some c := by
  obtain ⟨l, hl, hco⟩ := Option.bind_eq_some_iff.mp h
  obtain ⟨manager, hma, hla⟩ := Option.bind_eq_some_iff.mp hl
  exact ⟨manager, l, hma, hla, hco⟩

/-- The step of a call that is not in `prune_idle_lanes` clears the control of a lane. -/
def Clears (s : TunnelService) (i : Nat) (input : OpenInput) (call : OpenCall) (x : Nat)
    (c : Connection) : Prop :=
  s.calls[i]? = some call ∧ (∀ connected, call.phase ≠ .pruning x connected) ∧
    s.control call.manager x = some c ∧
    (s.step (.call i input)).map (·.control call.manager x) = some none

/-- Whenever `ensure_lane_control` or `open_stream_on_lane` clears a control, it is the
connection whose age it found expired, or on which its own open failed. -/
def ClearsOwn (s : TunnelService) : Prop :=
  ∀ i input call x c, s.Clears i input call x c →
    ∃ attempt, call.phase = .expiring x attempt c ∨ call.phase = .failing x attempt c

theorem change_of_call (hca : s.calls[i]? = some call)
    (hst : s.step (.call i input) = some s') {c : Connection}
    (hco : s.control call.manager x = some c) :
    ∃ l l', l.control = some c ∧ s'.control call.manager x = l'.control ∧
      Change (s.surroundings call.manager) call x l l' ∧
      ∃ manager, s.managers[call.manager]? = some manager ∧ manager.lanes[x]? = some l := by
  obtain ⟨manager, l, hma, hla, hl⟩ := control_eq_some hco
  cases transition_of_step hst with
  | call hca' hma' htu =>
    obtain rfl := Option.some.inj (hca.symm.trans hca')
    obtain rfl := Option.some.inj (hma.symm.trans hma')
    obtain ⟨l', hla'⟩ := htu.exists_lane hla
    obtain ⟨l₀, hla₀, hcg⟩ := htu.change hla'
    obtain rfl := Option.some.inj (hla.symm.trans hla₀)
    refine ⟨l, l', hl, ?_, hcg, manager, hma, hla⟩
    simp [control, List.getElem?_set_self (List.getElem?_eq_some_iff.mp hma).1, hla']

theorem discards_of_clears {c : Connection} (h : s.Clears i input call x c) :
    ∃ c', call.phase.role = .discards x c' := by
  obtain ⟨hca, hp, hco, hst⟩ := h
  obtain ⟨s', hst, hno⟩ := Option.map_eq_some_iff.mp hst
  obtain ⟨l, l', hl, hl', hcg, -⟩ := change_of_call hca hst hco
  rw [hno] at hl'
  cases hcg with
  | kept hke | connected _ hke => simp [hke, hl] at hl'
  | installed _ _ hin => simp [hin] at hl'
  | cleared hp' =>
    obtain ⟨connected, hpr⟩ | hr := hp'
    · exact absurd hpr (hp connected)
    · exact hr

theorem phase_of_discards {c : Connection} (h : call.phase.role = .discards x c) :
    ∃ attempt, call.phase = .expiring x attempt c ∨ call.phase = .failing x attempt c := by
  cases hp : call.phase with
  | expiring | failing =>
    rw [hp] at h
    cases h
    simp
  | _ =>
    rw [hp] at h
    cases h

theorem Linked.clearsOwn (hs : s.Linked) : s.ClearsOwn := by
  intro i input call x c hcl
  obtain ⟨c', hr⟩ := discards_of_clears hcl
  obtain ⟨manager, l, hma, hla, hl⟩ := control_eq_some hcl.2.2.1
  have hfi := hs.fits call (mem_of_getElem? hcl.1) manager x l hma hla
  rw [hr] at hfi
  exact phase_of_discards (hfi rfl c hl ▸ hr)

theorem clears_of_discards {c d : Connection} (hca : s.calls[i]? = some call)
    (hr : call.phase.role = .discards lane c)
    (hco : s.control call.manager lane = some d)
    (hf : (s.surroundings call.manager).controlFree lane = true) :
    s.Clears i .go call lane d := by
  obtain ⟨manager, -, hma, -⟩ := control_eq_some hco
  have hlt := (List.getElem?_eq_some_iff.mp hma).1
  cases hp : call.phase with
  | expiring | failing =>
    rw [hp] at hr
    cases hr
    refine ⟨hca, by simp [hp], hco, ?_⟩
    simp [step, hca, OpenCall.step, hp, hf, control, hlt,
      TunnelManager.setControl, TunnelManager.update]
  | _ =>
    rw [hp] at hr
    cases hr

theorem not_clearsOwn_of_install (hba : ¬s.InstallsAlone (.call i input))
    (h : s.step (.call i input) = some s') : ¬s'.ClearsOwn := by
  intro how
  refine hba fun call hca lane attempt connection hp other ho hm c hr => ?_
  obtain ⟨j, hj⟩ := List.mem_iff_getElem?.mp ho
  cases transition_of_step h with
  | @call _ _ call₁ manager manager' call' hca₁ hma htu =>
    rw [hca] at hca₁
    cases hca₁
    obtain ⟨hf, l, hla, rfl, rfl⟩ := htu.of_installing hp
    have hne : i ≠ j := by
      rintro rfl
      rw [hca] at hj
      cases hj
      rw [hp] at hr
      cases hr
    have hj' : (s.calls.set i (call.goto (.opening lane attempt)))[j]? = some other :=
      (List.getElem?_set_ne hne).trans hj
    have hma' : (s.managers.set call.manager
        (manager.setControl lane (some connection)))[other.manager]? =
          some (manager.setControl lane (some connection)) := by
      rw [hm]
      exact List.getElem?_set_self (List.getElem?_eq_some_iff.mp hma).1
    have hla' : (manager.setControl lane (some connection)).lanes[lane]? =
        some { l with control := some connection } := by
      simp [TunnelManager.setControl, TunnelManager.update, hla]
    have hcl := clears_of_discards (s := { s with
      managers := s.managers.set call.manager (manager.setControl lane (some connection))
      calls := s.calls.set i (call.goto (.opening lane attempt))
      streams := s.streams ++ opened (call.goto (.opening lane attempt))
      fresh := s.fresh + 1 }) hj' hr (d := connection) (by simp [control, hma', hla']) (by
        refine List.all_eq_true.mpr fun c hc => ?_
        obtain hc | rfl := List.mem_or_eq_of_mem_set hc
        · rw [hm]
          exact List.all_eq_true.mp hf c hc
        · simp [OpenPhase.holdsControl])
    obtain ⟨attempt', hp' | hp'⟩ := how j .go other lane connection hcl
    · rw [hp'] at hr
      exact (Role.discards.inj hr).2.symm
    · rw [hp'] at hr
      exact (Role.discards.inj hr).2.symm

/-- **A fresh connection is not thrown away** as long as none is installed while another
call is about to clear the control for another one; and only so long. -/
theorem clears_own_iff {pool : TunnelPoolConfig} (h : Reach step InstallsAlone (new pool) s) :
    s.ClearsOwn ∧ ∀ e s', s.step e = some s' → (s'.ClearsOwn ↔ s.InstallsAlone e) := by
  have hs : s.Linked := h.invariant (linked_new pool) fun _ _ _ hs hok hst => hs.step hok hst
  refine ⟨hs.clearsOwn, fun e s' hst => ⟨fun how => ?_, fun hok => (hs.step hok hst).clearsOwn⟩⟩
  cases e with
  | call i input =>
    by_cases hok : s.InstallsAlone (.call i input)
    · exact hok
    · exact absurd how (not_clearsOwn_of_install hok hst)
  | _ => trivial

def failingTwice : List ServiceEvent :=
  reservingCall 0 ++ inputs 0 connectingCall ++ reservingCall 1 ++ inputs 1 [.go, .go, .go] ++
    inputs 0 [.go, .opened false] ++ inputs 1 [.go, .opened false] ++
    inputs 0 (.go :: connectingCall)

/-- A call clears a connection other than the one on which its open failed. -/
theorem fresh_connection_discarded : ∃ s s' old fresh, Reach step Any (new oneLane) s ∧
    s.calls[1]?.map (·.phase) = some (.failing 0 1 old) ∧ s.control 0 0 = some fresh ∧
    fresh ≠ old ∧ s.step (.call 1 .go) = some s' ∧ s'.control 0 0 = none := by
  obtain ⟨s, hre, hp, hfr, hst⟩ := exists_of_run step Any (new oneLane)
    (fun s => s.calls[1]?.map (·.phase) = some (.failing 0 1 ⟨10, 0⟩) ∧
      s.control 0 0 = some ⟨31, 0⟩ ∧
      (s.step (.call 1 .go)).any (fun s' => decide (s'.control 0 0 = none)) = true)
    failingTwice (by decide +kernel)
  rw [Option.any_eq_true] at hst
  obtain ⟨s', hst, hno⟩ := hst
  exact ⟨s, s', ⟨10, 0⟩, ⟨31, 0⟩, hre, hp, hfr, by decide, hst, of_decide_eq_true hno⟩

def noneDiscards (s : TunnelService) : Bool :=
  s.calls.all fun call => match call.phase with
    | .expiring .. | .failing .. => false
    | _ => true

theorem installsAlone_of_noneDiscards (h : s.noneDiscards = true) : s.InstallsAlone e := by
  cases e with
  | call i =>
    intro call _ lane attempt connection _ other ho _ c hr
    obtain ⟨attempt, hp | hp⟩ := phase_of_discards hr
    · simpa [hp] using List.all_eq_true.mp h other ho
    · simpa [hp] using List.all_eq_true.mp h other ho
  | _ => trivial

/-- Two calls use one connection, and the open of the first one fails on it. -/
theorem clears_own_iff_twoCalls : ∃ (s : TunnelService) (call : OpenCall), s.calls.map (·.phase) =
      [.failing 0 1 ⟨10, 0⟩, .opening 0 1] ∧ s.Clears 0 .go call 0 ⟨10, 0⟩ ∧ s.ClearsOwn := by
  obtain ⟨s, hre, hph, hcs, hco, hst⟩ := exists_of_run step
    (fun s _ => s.noneDiscards = true) (new oneLane)
    (fun s => s.calls.map (·.phase) = [.failing 0 1 ⟨10, 0⟩, .opening 0 1] ∧
      s.calls[0]?.map (fun call => (call.manager, call.phase)) = some (0, .failing 0 1 ⟨10, 0⟩) ∧
      s.control 0 0 = some ⟨10, 0⟩ ∧ (s.step (.call 0 .go)).map (·.control 0 0) = some none)
    (reservingCall 0 ++ inputs 0 connectingCall ++ reservingCall 1 ++ inputs 1 [.go, .go, .go] ++
      inputs 0 [.go, .opened false]) (by decide +kernel)
  obtain ⟨call, hca, hbo⟩ := Option.map_eq_some_iff.mp hcs
  obtain ⟨hma, hp⟩ := Prod.mk.inj hbo
  have hre : Reach step InstallsAlone (new oneLane) s :=
    hre.mono fun _ _ => installsAlone_of_noneDiscards
  refine ⟨s, call, hph, ⟨hca, by simp [hp], ?_⟩, (clears_own_iff hre).1⟩
  rw [hma]
  exact ⟨hco, hst⟩

end TunnelService

end Espejismo.Client
