import Espejismo.Client.Tunnel.Connections

/-!
# Client.Tunnel.Prune

`prune_idle_lanes`: a call looks for idle lanes and clears their controls before it
selects its own lane.  It looks at the health of a lane under one lock and clears the
control under another, but it holds `select_lock` all the time, and no reservation is
made without it.
-/

namespace Espejismo.Client

open Machine Shares Locks List TunnelManager

/-! ## How much a call clears -/

def OpenCall.Sparing (minimum : Nat) (call : OpenCall) : Prop :=
  match call.phase with
  | .pruneLock | .counting _ _ => call.cleared = 0
  | .checking _ connected | .pruning _ connected =>
    call.cleared + connected = call.counted ∧ minimum < connected
  | _ => call.cleared ≤ call.counted - minimum

namespace OpenCall

variable {manager : TunnelManager} {call : OpenCall}

theorem Turn.minConnections_eq (ht : call.Turn manager around manager' call') :
    manager'.minConnections = manager.minConnections := by
  cases ht <;> rfl

theorem Sparing.le (h : call.Sparing low) : call.cleared ≤ call.counted - low := by
  unfold Sparing at h
  split at h
  · omega
  · omega
  · omega
  · omega
  · exact h

variable {next connected : Nat}

theorem sparing_checkNext (h : call.phase = manager.checkNext next connected)
    (hcn : call.cleared + connected = call.counted)
    (hmin : 0 < call.cleared → manager.minConnections ≤ connected) :
    call.Sparing manager.minConnections := by
  unfold checkNext at h
  split at h
  · next hnx =>
    simp only [Sparing, h]
    exact ⟨hcn, hnx.2⟩
  · simp only [Sparing, h]
    omega

theorem sparing_countNext (hcl : call.cleared = 0) :
    (call.countNext manager next connected).Sparing manager.minConnections := by
  unfold countNext
  split
  · exact hcl
  · refine sparing_checkNext rfl ?_ ?_
    · simp [hcl]
    · simp [hcl]

theorem sparing_nextAttempt (hle : call.cleared ≤ call.counted - manager.minConnections) :
    (call.goto (manager.nextAttempt lane attempt)).Sparing manager.minConnections := by
  unfold nextAttempt
  split <;> exact hle

theorem Turn.sparing (ht : call.Turn manager around manager' call')
    (h : call.Sparing manager.minConnections) : call'.Sparing manager.minConnections := by
  have hle := h.le
  cases ht with
  | pruneLock hph | counted hph =>
    simp only [Sparing, hph] at h
    exact sparing_countNext h
  | idle hph =>
    simp only [Sparing, hph] at h
    exact h
  | busy hph | unpruned hph =>
    simp only [Sparing, hph] at h
    exact sparing_checkNext rfl h.1 fun _ => h.2.le
  | pruned hph =>
    simp only [Sparing, hph] at h
    refine sparing_checkNext rfl ?_ fun _ => ?_
    · dsimp only
      omega
    · omega
  | lost | errorRecorded => exact sparing_nextAttempt hle
  | _ => exact hle

/-! ## What is cleared is idle -/

theorem holdsSelect_nextAttempt (lane attempt : Nat) :
    (manager.nextAttempt lane attempt).holdsSelect = false := by
  unfold nextAttempt
  split <;> rfl

theorem Turn.holdsSelect (ht : call.Turn manager around manager' call')
    (h : call'.phase.holdsSelect = true) :
    call.phase.holdsSelect = true ∨ around.selectFree = true := by
  cases ht with
  | pruneLock hph hfr | chosen hph hfr => exact .inr hfr
  | counted hph | idle hph | busy hph | pruned hph | unpruned hph =>
    rw [hph]
    exact .inl rfl
  | lost | errorRecorded =>
    rw [goto_phase, holdsSelect_nextAttempt] at h
    cases h
  | _ => cases h

theorem Turn.counter_of_elsewhere (ht : call.Turn manager around manager' call')
    (hco : ∀ l control, f { l with control := control } = f l)
    (hre : call.phase.reservation ≠ some x) (hrs : call.phase ≠ .reserving x) :
    manager'.counter f x = manager.counter f x := by
  cases ht with
  | reserved hph =>
    refine counter_update_of_ne fun hx => hrs ?_
    rw [hph, hx]
  | noted hph | dialRecorded hph | connected hph | ponged hph | successRecorded hph
  | errorRecorded hph | released hph =>
    refine counter_update_of_ne fun hx => hre ?_
    rw [hph, hx]
    rfl
  | pruned | discarded | installed | thrownAway =>
    exact counter_setControl fun l => hco l _
  | _ => rfl

theorem checkNext_ne_pruning (next connected x n : Nat) :
    manager.checkNext next connected ≠ .pruning x n := by
  unfold checkNext
  split <;> nofun

theorem countNext_ne_pruning (next connected x n : Nat) :
    (call.countNext manager next connected).phase ≠ .pruning x n := by
  unfold countNext
  split
  · nofun
  · exact checkNext_ne_pruning 0 connected x n

theorem nextAttempt_ne_pruning (lane attempt x n : Nat) :
    manager.nextAttempt lane attempt ≠ .pruning x n := by
  unfold nextAttempt
  split <;> nofun

theorem Turn.of_pruning (ht : call.Turn manager around manager' call')
    (h : call'.phase = .pruning next connected) :
    manager' = manager ∧ manager.counter TunnelLane.pending next = 0 ∧
      manager.counter TunnelLane.active next = 0 := by
  cases ht with
  | @idle _ _ lane hph hla hpn =>
    cases h
    simp only [shouldPruneIdleLane, Bool.and_eq_true, beq_iff_eq] at hpn
    obtain ⟨⟨⟨-, hac⟩, hpe⟩, -⟩ := hpn
    rw [counter_eq hla, counter_eq hla]
    exact ⟨rfl, hpe, hac⟩
  | pruneLock | counted => exact absurd h (countNext_ne_pruning _ _ _ _)
  | busy | unpruned | pruned => exact absurd h (checkNext_ne_pruning _ _ _ _)
  | lost | errorRecorded => exact absurd h (nextAttempt_ne_pruning _ _ _ _)
  | _ => cases h

end OpenCall

namespace TunnelService

variable {s s' : TunnelService} {e : ServiceEvent}

/-- There is one manager, and the futures of its `open_stream` run to completion. -/
def Undisturbed (_ : TunnelService) : ServiceEvent → Prop
  | .drop _ | .replace _ => False
  | _ => True

instance (s : TunnelService) : ∀ e, Decidable (s.Undisturbed e)
  | .drop _ | .replace _ => .isFalse id
  | .tick _ | .openStream _ | .call _ _ | .transfer _ _ _ | .record _ | .recorded _ =>
    .isTrue trivial

theorem keepsCalls_of_undisturbed (hok : s.Undisturbed e) : s.KeepsCalls e := by
  cases e with
  | drop => exact absurd hok id
  | _ => trivial

def selectHeld (call : OpenCall) : Option Nat :=
  if call.phase.holdsSelect then some call.manager else none

theorem selectHeld_eq_some :
    selectHeld call = some m ↔ call.phase.holdsSelect = true ∧ call.manager = m := by
  simp [selectHeld]

theorem free_select (h : (s.surroundings m).selectFree = true) : Free selectHeld s.calls m := by
  intro call hc hhe
  obtain ⟨hse, hm⟩ := selectHeld_eq_some.mp hhe
  have := all_eq_true.mp h call hc
  simp [hm, hse] at this

/-- What holds as long as nothing disturbs the calls.  In particular a lane that a call
is about to clear has neither a reservation nor a stream. -/
structure Pruning (s : TunnelService) : Prop where
  single : s.managers.length = 1
  own : ∀ stream ∈ s.streams, stream.manager = 0
  pending : s.PendingTallied
  streams : s.StreamsTallied
  alone : Exclusive selectHeld s.calls
  idle : ∀ call ∈ s.calls, ∀ next connected, call.phase = .pruning next connected →
    counterAt TunnelLane.pending s.managers call.manager next = 0 ∧
      counterAt TunnelLane.active s.managers call.manager next = 0
  sparing : ∀ call ∈ s.calls, ∀ manager, s.managers[call.manager]? = some manager →
    call.Sparing manager.minConnections

namespace Pruning

theorem recordsOwn (hs : s.Pruning) : s.RecordsOwn e := by
  cases e with
  | record =>
    intro stream hsr
    rw [hs.own stream (mem_of_getElem? hsr), current, hs.single]
  | _ => trivial

variable {i : Nat} {call : OpenCall} {manager : TunnelManager}

theorem idle_turn (hs : s.Pruning) {j : Nat}
    (hc : s.calls[i]? = some call) (hma : s.managers[call.manager]? = some manager)
    (htu : call.Turn manager (s.surroundings call.manager) manager' call')
    (ho : (s.calls.set i call')[j]? = some other)
    (hph : other.phase = .pruning n connected) :
    counterAt TunnelLane.pending (s.managers.set call.manager manager') other.manager n = 0 ∧
      counterAt TunnelLane.active (s.managers.set call.manager manager') other.manager n = 0 := by
  obtain ⟨rfl, rfl⟩ | ⟨hj, ho⟩ := getElem?_set_cases ho
  · obtain ⟨rfl, hid⟩ := htu.of_pruning hph
    rw [htu.manager_eq, counterAt_set hma, counterAt_set hma]
    exact hid
  have hid := hs.idle other (mem_of_getElem? ho) n connected hph
  by_cases hm : other.manager = call.manager
  · have hre : call.phase.reservation ≠ some n := by
      intro hres
      have hle := held_le_total (OpenCall.reserves other.manager n) hc
      have hpe := hs.pending other.manager n
      rw [hm, OpenCall.reserves_self, if_pos hres] at hle
      rw [hid.1, reserved, hm] at hpe
      omega
    have hrs : call.phase ≠ .reserving n := by
      intro hres
      have hse : selectHeld call = some other.manager :=
        selectHeld_eq_some.mpr ⟨by rw [hres]; rfl, hm.symm⟩
      have hse' : selectHeld other = some other.manager :=
        selectHeld_eq_some.mpr ⟨by rw [hph]; rfl, rfl⟩
      exact hj (hs.alone i j call other _ hc ho hse hse').symm
    rw [hm, counterAt_eq hma, counterAt_eq hma] at hid
    rw [hm, counterAt_set hma, counterAt_set hma,
      htu.counter_of_elsewhere (fun _ _ => rfl) hre hrs,
      htu.counter_of_elsewhere (fun _ _ => rfl) hre hrs]
    exact hid
  · rw [counterAt_set_of_ne hm, counterAt_set_of_ne hm]
    exact hid

theorem sparing_turn (hs : s.Pruning)
    (hc : s.calls[i]? = some call) (hma : s.managers[call.manager]? = some manager)
    (htu : call.Turn manager (s.surroundings call.manager) manager' call')
    (ho : other ∈ s.calls.set i call')
    (hm' : (s.managers.set call.manager manager')[other.manager]? = some m') :
    other.Sparing m'.minConnections := by
  have hb := hs.sparing call (List.mem_of_getElem? hc) manager hma
  obtain hold | rfl := List.mem_or_eq_of_mem_set ho
  · obtain ⟨hm, rfl⟩ | ⟨-, hm'⟩ := getElem?_set_cases hm'
    · rw [htu.minConnections_eq]
      exact hs.sparing other hold manager (hm ▸ hma)
    · exact hs.sparing other hold m' hm'
  · rw [htu.manager_eq, List.getElem?_set_self (List.getElem?_eq_some_iff.mp hma).1] at hm'
    cases hm'
    rw [htu.minConnections_eq]
    exact htu.sparing hb

theorem turn (hs : s.Pruning) (hc : s.calls[i]? = some call)
    (hma : s.managers[call.manager]? = some manager)
    (htu : call.Turn manager (s.surroundings call.manager) manager' call') :
    Pruning { s with
      managers := s.managers.set call.manager manager'
      calls := s.calls.set i call'
      streams := s.streams ++ opened call'
      fresh := s.fresh + 1 } where
  single := by simpa using hs.single
  own stream hsr := by
    obtain hold | hn := List.mem_append.mp hsr
    · exact hs.own stream hold
    have hlt := (List.getElem?_eq_some_iff.mp hma).1
    rw [hs.single] at hlt
    rw [(mem_opened hn).1, htu.manager_eq]
    omega
  pending := hs.pending.turn hc hma htu
  streams := hs.streams.turn hma htu
  alone := by
    refine hs.alone.set hc fun m hhe => ?_
    obtain ⟨hse, hm⟩ := selectHeld_eq_some.mp hhe
    rw [htu.manager_eq] at hm
    subst hm
    obtain hse | hfr := htu.holdsSelect hse
    · exact .inl (selectHeld_eq_some.mpr ⟨hse, rfl⟩)
    · exact .inr (free_select hfr)
  idle other ho next connected hph := by
    obtain ⟨j, hj⟩ := List.mem_iff_getElem?.mp ho
    exact hs.idle_turn hc hma htu hj hph
  sparing other ho m' hm' := hs.sparing_turn hc hma htu ho hm'

theorem of_update (hs : s.Pruning)
    (hma : s.managers[m]? = some manager)
    (hmn : s'.managers = s.managers.set m (manager.update lane g))
    (hca : s'.calls = s.calls) (how : ∀ stream ∈ s'.streams, stream.manager = 0)
    (hpe : ∀ l, (g l).pending ≤ l.pending) (hac : ∀ l, (g l).active ≤ l.active)
    (hp : s'.PendingTallied) (hst : s'.StreamsTallied) : s'.Pruning where
  single := by simpa [hmn] using hs.single
  own := how
  pending := hp
  streams := hst
  alone := hca ▸ hs.alone
  idle call hc next connected hph := by
    have hid := hs.idle call (hca ▸ hc) next connected hph
    rw [hmn]
    exact ⟨Nat.le_zero.mp ((counterAt_update_le hma hpe).trans hid.1.le),
      Nat.le_zero.mp ((counterAt_update_le hma hac).trans hid.2.le)⟩
  sparing call hc m' hm' := by
    rw [hmn] at hm'
    obtain ⟨hm, rfl⟩ | ⟨-, hm'⟩ := getElem?_set_cases hm'
    · exact hs.sparing call (hca ▸ hc) manager (hm ▸ hma)
    · exact hs.sparing call (hca ▸ hc) m' hm'

theorem own_set (hs : s.Pruning) (hsr : s.streams[i]? = some stream)
    (h : stream'.manager = stream.manager) : ∀ st ∈ s.streams.set i stream', st.manager = 0 := by
  intro st hst
  obtain hold | rfl := mem_or_eq_of_mem_set hst
  · exact hs.own st hold
  · exact h.trans (hs.own stream (mem_of_getElem? hsr))

theorem step (hs : s.Pruning) (hok : s.Undisturbed e) (h : s.step e = some s') : s'.Pruning := by
  have hp := hs.pending.step (keepsCalls_of_undisturbed hok) h
  have hst := hs.streams.step hs.recordsOwn h
  cases transition_of_step h with
  | tick => exact ⟨hs.single, hs.own, hp, hst, hs.alone, hs.idle, hs.sparing⟩
  | openStream =>
    refine ⟨hs.single, hs.own, hp, hst, hs.alone.concat rfl, fun call hc => ?_,
      fun call hc => ?_⟩
    · obtain hold | hn := mem_append.mp hc
      · exact hs.idle call hold
      · rw [mem_singleton.mp hn]
        nofun
    · obtain hold | hn := mem_append.mp hc
      · exact hs.sparing call hold
      · rw [mem_singleton.mp hn]
        exact fun _ _ => rfl
  | call hc hma htu => exact hs.turn hc hma htu
  | drop | replace => exact absurd hok id
  | transfer hsr hma | record hsr hma =>
    exact hs.of_update hma rfl rfl (hs.own_set hsr rfl) (fun _ => le_rfl) (fun _ => le_rfl) hp hst
  | unknownLane hsr =>
    exact ⟨hs.single, hs.own_set hsr rfl, hp, hst, hs.alone, hs.idle, hs.sparing⟩
  | recorded hsr hph hma =>
    exact hs.of_update hma rfl rfl (hs.own_set hsr rfl) (fun _ => le_rfl)
      (fun _ => Nat.sub_le _ _) hp hst

end Pruning

theorem pruning_new (pool : TunnelPoolConfig) : (new pool).Pruning where
  single := rfl
  own := nofun
  pending := pendingTallied_new pool
  streams := streamsTallied_new pool
  alone := exclusive_nil
  idle := nofun
  sparing := nofun

/-! ## What is seen of a call -/

/-- A call in `prune_idle_lanes` finds a lane connected, or clears its control. -/
inductive Seen where
  | counted (call lane : Nat)
  | cleared (call lane : Nat)
  deriving DecidableEq

def Seen.isCounted (i : Nat) : Seen → Bool
  | .counted call _ => call == i
  | .cleared .. => false

def Seen.isCleared (i : Nat) : Seen → Bool
  | .counted .. => false
  | .cleared call _ => call == i

def laneCount (s : TunnelService) (m : Nat) : Nat := (s.managers[m]?.map (·.lanes.length)).getD 0

/-- The lanes whose control is there before a step and not after it. -/
def clearedLanes (s s' : TunnelService) (m : Nat) : List Nat :=
  (range (s.laneCount m)).filter fun x => (s.control m x).isSome && (s'.control m x).isNone

/-- The call is in `prune_idle_lanes`. -/
def prunes (call : OpenCall) : Bool :=
  match call.phase with
  | .pruneLock | .counting .. | .checking .. | .pruning .. => true
  | _ => false

/-- The lane that the call counts, if it is connected. -/
def countedLane (s : TunnelService) (call : OpenCall) : List Nat :=
  match call.phase with
  | .counting next _ => if (s.control call.manager next).isSome then [next] else []
  | _ => []

/-- What a step of a call counts and clears, read off the states around it. -/
def seen (s : TunnelService) : ServiceEvent → List Seen
  | .call i input =>
    match s.calls[i]?, s.step (.call i input) with
    | some call, some s' =>
      if prunes call then
        (s.countedLane call).map (.counted i) ++ (s.clearedLanes s' call.manager).map (.cleared i)
      else []
    | _, _ => []
  | _ => []

/-- The connected lanes that a call has found so far. -/
def found (call : OpenCall) : Nat :=
  match call.phase with
  | .pruneLock => 0
  | .counting _ connected => connected
  | _ => call.counted

theorem le_found {call : OpenCall} (h : call.Sparing low) :
    call.cleared ≤ found call - low := by
  unfold OpenCall.Sparing at h
  unfold found
  cases hph : call.phase <;> simp only [hph] at h ⊢ <;> omega

section Seen

variable {i j m x : Nat} {input : OpenInput} {call call' : OpenCall}
    {manager manager' : TunnelManager}

theorem countNext_spec (next connected : Nat) :
    (call.countNext manager next connected).cleared = call.cleared ∧
      found (call.countNext manager next connected) = connected := by
  unfold OpenCall.countNext
  split
  · exact ⟨rfl, rfl⟩
  · unfold checkNext
    split <;> exact ⟨rfl, rfl⟩

theorem found_of_checkNext {next : Nat} (h : call.phase = manager.checkNext next connected) :
    found call = call.counted := by
  unfold checkNext at h
  split at h <;> simp [found, h]

theorem found_nextAttempt (lane attempt : Nat) :
    found (call.goto (manager.nextAttempt lane attempt)) = call.counted := by
  unfold nextAttempt
  split <;> rfl

theorem control_eq (h : s.managers[m]? = some manager) :
    s.control m x = manager.lanes[x]?.bind (·.control) := by
  simp [control, h]

theorem clearedLanes_eq_nil (h : ∀ x, s'.control m x = s.control m x) :
    s.clearedLanes s' m = [] := by
  refine filter_eq_nil_iff.mpr fun x _ => ?_
  rw [h]
  cases s.control m x <;> simp

theorem length_clearedLanes (hla : x < s.laneCount m) (hb : (s.control m x).isSome = true)
    (haf : s'.control m x = none) (h : ∀ y, y ≠ x → s'.control m y = s.control m y) :
    (s.clearedLanes s' m).length = 1 := by
  have hon : ∀ y ∈ range (s.laneCount m),
      ((s.control m y).isSome && (s'.control m y).isNone) = true ↔ (y == x) = true := by
    intro y _
    by_cases hy : y = x
    · simp [hy, hb, haf]
    · rw [h y hy]
      cases s.control m y <;> simp [hy]
  rw [clearedLanes, ← countP_eq_length_filter, countP_congr hon]
  exact count_eq_one_of_mem nodup_range (mem_range.mpr hla)

theorem index_of_mem_seen {x : Seen} (h : x ∈ s.seen (.call i input)) (hj : j ≠ i) :
    x.isCounted j = false ∧ x.isCleared j = false := by
  have hi : i ≠ j := Ne.symm hj
  have hx : (∃ lane, x = .counted i lane) ∨ ∃ lane, x = .cleared i lane := by
    simp only [seen] at h
    grind
  obtain ⟨lane, rfl⟩ | ⟨lane, rfl⟩ := hx <;> simp [Seen.isCounted, Seen.isCleared, hi]

theorem countP_seen (counted cleared : List Nat) :
    (counted.map (Seen.counted i) ++ cleared.map (Seen.cleared i)).countP (·.isCleared i) =
        cleared.length ∧
      (counted.map (Seen.counted i) ++ cleared.map (Seen.cleared i)).countP (·.isCounted i) =
        counted.length := by
  simp [countP_map, Function.comp_def, Seen.isCleared, Seen.isCounted]

/-- **What is seen of a call is what it has counted.** -/
theorem seen_turn (hc : s.calls[i]? = some call)
    (hma : s.managers[call.manager]? = some manager)
    (htu : call.Turn manager (s.surroundings call.manager) manager' call')
    (hsp : s.step (.call i input) = some s')
    (hmn : s'.managers = s.managers.set call.manager manager') :
    call'.cleared = call.cleared + (s.seen (.call i input)).countP (·.isCleared i) ∧
      found call' = found call + (s.seen (.call i input)).countP (·.isCounted i) := by
  have hlt := (List.getElem?_eq_some_iff.mp hma).1
  have haf (x : Nat) : s'.control call.manager x = manager'.lanes[x]?.bind (·.control) :=
    control_eq (by rw [hmn, List.getElem?_set_self hlt])
  have hsa (heq : manager' = manager) : s.clearedLanes s' call.manager = [] :=
    clearedLanes_eq_nil fun x => by rw [haf, heq, control_eq hma]
  have hno (hpr : prunes call = false) : s.seen (.call i input) = [] := by
    simp [seen, hc, hsp, hpr]
  have hcn (hpr : prunes call = true) :
      (s.seen (.call i input)).countP (·.isCleared i) =
          (s.clearedLanes s' call.manager).length ∧
        (s.seen (.call i input)).countP (·.isCounted i) = (s.countedLane call).length := by
    simp only [seen, hc, hsp, hpr, if_true]
    exact countP_seen _ _
  cases htu with
  | pruneLock hph =>
    obtain ⟨hcl, hf⟩ := @countNext_spec call manager 0 0
    obtain ⟨hg, ha⟩ := hcn (by simp [prunes, hph])
    rw [hcl, hf, hg, ha]
    simp [hph, hsa rfl, found, countedLane]
  | @counted next connected lane hph hla =>
    have hco : s.control call.manager next = lane.control := by
      rw [control_eq hma, hla, Option.bind_some]
    obtain ⟨hcl, hf⟩ := @countNext_spec call manager (next + 1)
      (if lane.control.isSome then connected + 1 else connected)
    obtain ⟨hg, ha⟩ := hcn (by simp [prunes, hph])
    rw [hcl, hf, hg, ha]
    simp only [hph, hco, hsa rfl, found, countedLane]
    split <;> simp
  | busy hph | unpruned hph =>
    obtain ⟨hg, ha⟩ := hcn (by simp [prunes, hph])
    rw [found_of_checkNext (OpenCall.goto_phase call _), hg, ha]
    simp [hph, hsa rfl, found, countedLane, OpenCall.goto]
  | idle hph =>
    obtain ⟨hg, ha⟩ := hcn (by simp [prunes, hph])
    rw [hg, ha]
    simp [hph, hsa rfl, found, countedLane, OpenCall.goto]
  | @pruned next connected lane hph hla hco =>
    have hon : (s.clearedLanes s' call.manager).length = 1 := by
      refine length_clearedLanes (x := next) ?_ ?_ ?_ fun y hy => ?_
      · simpa [laneCount, hma] using (List.getElem?_eq_some_iff.mp hla).1
      · simpa [control_eq hma, hla] using hco
      · simp [haf, setControl, update, hla]
      · simp [haf, control_eq hma, setControl, update, Ne.symm hy]
    obtain ⟨hg, ha⟩ := hcn (by simp [prunes, hph])
    rw [hg, ha, hon, found_of_checkNext rfl]
    simp [found, hph, countedLane]
  | lost hph | errorRecorded hph =>
    rw [hno (by simp [prunes, hph]), found_nextAttempt]
    simp [hph, found, OpenCall.goto]
  | found hph =>
    obtain hph | hph := hph <;> rw [hno (by simp [prunes, hph])] <;>
      simp [hph, found, OpenCall.goto]
  | _ hph =>
    rw [hno (by simp [prunes, hph])]
    simp [hph, found, OpenCall.goto]

/-- The counts of a call are those of what was seen of it. -/
def Witnessed (t : TunnelService × List Seen) : Prop :=
  ∀ i, t.2.countP (·.isCleared i) = (t.1.calls[i]?.map (·.cleared)).getD 0 ∧
    t.2.countP (·.isCounted i) = (t.1.calls[i]?.map found).getD 0

theorem Witnessed.step {t t' : TunnelService × List Seen} (ht : Witnessed t)
    (hok : t.1.Undisturbed e) (h : logged TunnelService.step seen t e = some t') :
      Witnessed t' := by
  obtain ⟨s, log⟩ := t
  obtain ⟨s', log'⟩ := t'
  obtain ⟨hsp, hlo⟩ := logged_eq_some.mp h
  dsimp only at hsp hlo
  subst hlo
  intro j
  have hj := ht j
  dsimp only at hj ⊢
  rw [countP_append, countP_append]
  cases transition_of_step hsp with
  | openStream =>
    simp only [seen, countP_nil, Nat.add_zero, hj, getElem?_append, getElem?_singleton]
    split
    · exact ⟨rfl, rfl⟩
    · rw [List.getElem?_eq_none (by omega)]
      split <;> exact ⟨rfl, rfl⟩
  | @call i input call manager manager' call' hc hma htu =>
    by_cases hij : j = i
    · subst hij
      obtain ⟨hcl, hf⟩ := seen_turn hc hma htu hsp rfl
      have hlt := (List.getElem?_eq_some_iff.mp hc).1
      rw [hc] at hj
      rw [hj.1, hj.2, List.getElem?_set_self hlt]
      exact ⟨hcl.symm, hf.symm⟩
    · have hcl : (s.seen (.call i input)).countP (·.isCleared j) = 0 :=
        countP_eq_zero.mpr fun x hx => by simp [(index_of_mem_seen hx hij).2]
      have hct : (s.seen (.call i input)).countP (·.isCounted j) = 0 :=
        countP_eq_zero.mpr fun x hx => by simp [(index_of_mem_seen hx hij).1]
      rw [hcl, hct, List.getElem?_set_ne (Ne.symm hij)]
      exact hj
  | drop | replace => exact absurd hok id
  | _ => exact hj

theorem pruning_of_cleared (h : .cleared i x ∈ s.seen e) :
    ∃ call connected, s.calls[i]? = some call ∧ call.phase = .pruning x connected := by
  cases e with
  | call k input =>
    simp only [seen] at h
    split at h
    · next call s' hc hsp =>
      split at h
      · next hpr =>
        simp only [mem_append, mem_map, reduceCtorEq, and_false, exists_false, false_or,
          Seen.cleared.injEq] at h
        obtain ⟨x, hx, rfl, rfl⟩ := h
        obtain ⟨-, hx⟩ := mem_filter.mp hx
        rw [Bool.and_eq_true, Option.isSome_iff_exists, Option.isNone_iff_eq_none] at hx
        obtain ⟨⟨c, hb⟩, haf⟩ := hx
        obtain ⟨l, l', hl, hl', hch, -⟩ := change_of_call hc hsp hb
        rw [haf] at hl'
        cases hch with
        | kept hke | connected _ hke => simp [hke, hl] at hl'
        | installed _ _ hin => simp [hin] at hl'
        | cleared hph =>
          obtain ⟨connected, hpg⟩ | ⟨c, hro⟩ := hph
          · exact ⟨call, connected, hc, hpg⟩
          · obtain ⟨attempt, hph | hph⟩ := phase_of_discards hro <;>
              simp [prunes, hph] at hpr
      · cases h
    · cases h
  | _ => cases h

end Seen

/-- **Idle pruning is safe** as long as the futures of `open_stream` run to completion:
a lane whose control `prune_idle_lanes` clears has neither a reserved nor an open stream
at that moment, and a call never clears more controls than it counted above
`min_connections`. -/
theorem prune_idle_lanes_safe {pool : TunnelPoolConfig} {t : TunnelService × List Seen}
    (h : Reach (logged step seen) (fun t e => t.1.Undisturbed e) (new pool, []) t) :
    (∀ e i lane, .cleared i lane ∈ t.1.seen e → ∃ call, t.1.calls[i]? = some call ∧
      t.1.reserved call.manager lane = 0 ∧
        total (TunnelStream.unrecorded call.manager lane) t.1.streams = 0) ∧
    ∀ (i : Nat) (call : OpenCall) (manager : TunnelManager), t.1.calls[i]? = some call →
      t.1.managers[call.manager]? = some manager →
        t.2.countP (·.isCleared i) ≤ t.2.countP (·.isCounted i) - manager.minConnections := by
  obtain ⟨hs, hw⟩ : t.1.Pruning ∧ Witnessed t :=
    h.invariant (I := fun t => t.1.Pruning ∧ Witnessed t)
      ⟨pruning_new pool, fun _ => ⟨rfl, rfl⟩⟩ fun _ _ _ ht hok hsp =>
        ⟨ht.1.step hok (logged_eq_some.mp hsp).1, ht.2.step hok hsp⟩
  refine ⟨fun e i lane hcl => ?_, fun i call manager hc hma => ?_⟩
  · obtain ⟨call, connected, hc, hph⟩ := pruning_of_cleared hcl
    obtain ⟨hpe, hac⟩ := hs.idle call (mem_of_getElem? hc) lane connected hph
    rw [hs.pending] at hpe
    rw [hs.streams.active] at hac
    exact ⟨call, hc, hpe, hac⟩
  · have hsn := hs.sparing call (mem_of_getElem? hc) manager hma
    rw [(hw i).1, (hw i).2, hc]
    exact le_found hsn

def twoLanes : TunnelPoolConfig :=
  { minConnections := 1, maxConnections := 2, interactiveLanes := 2, bulkLanes := 0 }

def shortStream (i lane : Nat) : List ServiceEvent :=
  .openStream .interactive :: inputs i ([.go, .go, .go, .choose lane, .go] ++ connectingCall ++
    [.go, .opened true, .go]) ++ [.record i, .recorded i]

def pruningCall : List ServiceEvent :=
  shortStream 0 0 ++ shortStream 1 1 ++ [.tick idleLanePruneAfter, .openStream .interactive] ++
    inputs 2 [.go, .go, .go, .go]

/-- A third call finds both lanes idle; it clears one and keeps the other. -/
theorem prune_idle_lanes_safe_pruningCall : ∃ t : TunnelService × List Seen,
    (t.2.countP (·.isCounted 2) = 2 ∧ t.2.countP (·.isCleared 2) = 0) ∧
    t.1.seen (.call 2 .go) = [.cleared 2 0] ∧
    (∃ call, t.1.calls[2]? = some call ∧ t.1.reserved call.manager 0 = 0 ∧
      total (TunnelStream.unrecorded call.manager 0) t.1.streams = 0) := by
  obtain ⟨t, hrc, hcs, hsee⟩ := exists_of_run (logged step seen)
    (fun t e => t.1.Undisturbed e) (new twoLanes, [])
    (fun t => (t.2.countP (·.isCounted 2) = 2 ∧ t.2.countP (·.isCleared 2) = 0) ∧
      t.1.seen (.call 2 .go) = [.cleared 2 0]) pruningCall (by decide +kernel)
  exact ⟨t, hcs, hsee, (prune_idle_lanes_safe hrc).1 (.call 2 .go) 2 0 (by simp [hsee])⟩

end TunnelService

end Espejismo.Client
