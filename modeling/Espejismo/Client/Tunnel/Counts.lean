import Espejismo.Client.Tunnel

/-!
# Client.Tunnel.Counts

What the counters of a lane count.  `pending_stream_opens` goes up when a call
reserves the lane and down when it records its success or gives up;
`active_streams` and the bytes in flight go up with a stream and down when it is
recorded.

A call that is dropped in between keeps its reservation for ever, and a stream that
is recorded after a reload is recorded on a lane of the new manager.
-/

namespace Espejismo.Client

open Machine Shares List

/-! ## Counters of lanes -/

def TunnelManager.counter (f : TunnelLane → Nat) (manager : TunnelManager) (lane : Nat) : Nat :=
  (manager.lanes[lane]?.map f).getD 0

def counterAt (f : TunnelLane → Nat) (managers : List TunnelManager) (m lane : Nat) : Nat :=
  (managers[m]?.map fun manager => manager.counter f lane).getD 0

namespace TunnelManager

variable {f : TunnelLane → Nat} {manager : TunnelManager} {lane x : Nat} {l : TunnelLane}

theorem counter_eq (h : manager.lanes[lane]? = some l) : manager.counter f lane = f l := by
  simp [counter, h]

theorem counter_update_of_keeps (h : ∀ l, f (g l) = f l) :
    (manager.update lane g).counter f x = manager.counter f x := by
  simp only [counter, update, getElem?_modify]
  cases manager.lanes[x]? with
  | none => rfl
  | some => by_cases hx : lane = x <;> simp [hx, h]

theorem counter_updateHealth_of_keeps {g : LaneHealth → LaneHealth}
    (h : ∀ (l : TunnelLane), f { l with health := g l.health } = f l) :
    (manager.updateHealth lane g).counter f x = manager.counter f x :=
  counter_update_of_keeps h

theorem counter_setControl {control : Option Connection}
    (h : ∀ (l : TunnelLane), f { l with control := control } = f l) :
    (manager.setControl lane control).counter f x = manager.counter f x :=
  counter_update_of_keeps h

theorem counter_update_of_ne (h : x ≠ lane) :
    (manager.update lane g).counter f x = manager.counter f x := by
  simp [counter, update, h.symm]

theorem counter_update_le (h : ∀ l, f (g l) ≤ f l) :
    (manager.update lane g).counter f x ≤ manager.counter f x := by
  simp only [counter, update, getElem?_modify]
  cases manager.lanes[x]? with
  | none => exact le_refl 0
  | some => by_cases hx : lane = x <;> simp [hx, h]

theorem counter_update (h : manager.lanes[lane]? = some l) :
    (manager.update lane g).counter f lane = f (g l) := by
  simp [counter, update, h]

theorem exists_of_counter_pos (h : 0 < manager.counter f lane) :
    ∃ l, manager.lanes[lane]? = some l ∧ manager.counter f lane = f l := by
  cases hl : manager.lanes[lane]? with
  | none => simp [counter, hl] at h
  | some l => exact ⟨l, rfl, counter_eq hl⟩

theorem counter_new (pool : TunnelPoolConfig) (h : ∀ kind, f { kind := kind } = 0) :
    (new pool).counter f lane = 0 := by
  simp only [counter, new, getElem?_map]
  cases (laneKinds pool)[lane]? with
  | none => rfl
  | some kind => exact h kind

end TunnelManager

section Managers

variable {f : TunnelLane → Nat} {managers : List TunnelManager} {m lane : Nat}
  {manager manager' : TunnelManager} {x : Nat}

theorem counterAt_eq (h : managers[m]? = some manager) :
    counterAt f managers m lane = manager.counter f lane := by
  simp [counterAt, h]

theorem counterAt_set (h : managers[m]? = some manager) :
    counterAt f (managers.set m manager') m lane = manager'.counter f lane := by
  have hlt := (List.getElem?_eq_some_iff.mp h).1
  simp [counterAt, List.getElem?_set_self hlt]

theorem counterAt_set_of_ne (h : m' ≠ m) :
    counterAt f (managers.set m manager') m' lane = counterAt f managers m' lane := by
  simp [counterAt, getElem?_set_ne h.symm]

theorem counterAt_set_of_keeps (h : managers[m]? = some manager)
    (hke : manager'.counter f lane = manager.counter f lane) :
    counterAt f (managers.set m manager') m' lane = counterAt f managers m' lane := by
  by_cases hm : m' = m
  · subst hm
    rw [counterAt_set h, hke, counterAt_eq h]
  · exact counterAt_set_of_ne hm

theorem counterAt_update (h : managers[m]? = some manager) (hl : manager.lanes[lane]? = some l) :
    counterAt f (managers.set m (manager.update lane g)) m' x =
      if m = m' ∧ lane = x then f (g l) else counterAt f managers m' x := by
  split
  · next he =>
    obtain ⟨rfl, rfl⟩ := he
    rw [counterAt_set h, TunnelManager.counter_update hl]
  · next hne =>
    by_cases hm : m = m'
    · subst hm
      have hx : x ≠ lane := fun hx => hne ⟨rfl, hx.symm⟩
      rw [counterAt_set h, TunnelManager.counter_update_of_ne hx, counterAt_eq h]
    · exact counterAt_set_of_ne (Ne.symm hm)

theorem counterAt_update_le (h : managers[m]? = some manager) (hg : ∀ l, f (g l) ≤ f l) :
    counterAt f (managers.set m (manager.update lane g)) m' x ≤ counterAt f managers m' x := by
  by_cases hm : m' = m
  · subst hm
    rw [counterAt_set h, counterAt_eq h]
    exact TunnelManager.counter_update_le hg
  · exact (counterAt_set_of_ne hm).le

theorem counterAt_replace (h : ∀ kind, f { kind := kind } = 0) :
    counterAt f (managers ++ [.new pool]) m lane = counterAt f managers m lane := by
  simp only [counterAt]
  rcases Nat.lt_trichotomy m managers.length with hlt | rfl | hgt
  · rw [getElem?_append_left hlt]
  · simp [TunnelManager.counter_new pool h]
  · rw [getElem?_eq_none (by simp; omega), getElem?_eq_none (by omega)]

theorem counterAt_new (pool : TunnelPoolConfig) (h : ∀ kind, f { kind := kind } = 0) :
    counterAt f (TunnelService.new pool).managers m lane = 0 := by
  have hrp : counterAt f ([] ++ [.new pool]) m lane = counterAt f [] m lane := counterAt_replace h
  simpa [counterAt, TunnelService.new] using hrp

theorem counter_transferOn
    (h : ∀ l up down, f { l with inflightClientToRemote := up, inflightRemoteToClient := down } =
      f l) :
    (TunnelService.transferOn manager stream up down).counter f lane = manager.counter f lane :=
  TunnelManager.counter_update_of_keeps fun l => h l _ _

theorem counter_landOn
    (h : ∀ l up down, f { l with inflightClientToRemote := up, inflightRemoteToClient := down } =
      f l) :
    (TunnelService.landOn manager stream).counter f lane = manager.counter f lane :=
  TunnelManager.counter_update_of_keeps fun l => h l _ _

theorem exists_of_counterAt_pos (h : 0 < counterAt f managers m lane) :
    ∃ manager l, managers[m]? = some manager ∧ manager.lanes[lane]? = some l ∧
      counterAt f managers m lane = f l := by
  cases hm : managers[m]? with
  | none => simp [counterAt, hm] at h
  | some manager =>
    rw [counterAt_eq hm] at h ⊢
    obtain ⟨l, hla, he⟩ := TunnelManager.exists_of_counter_pos h
    exact ⟨manager, l, rfl, hla, he⟩

end Managers

/-! ## Reservations -/

def TunnelLane.pending (lane : TunnelLane) : Nat := lane.health.pendingStreamOpens

def OpenCall.reserves (m lane : Nat) (call : OpenCall) : Nat :=
  if call.manager = m ∧ call.phase.reservation = some lane then 1 else 0

def TunnelService.reserved (s : TunnelService) (m lane : Nat) : Nat :=
  total (OpenCall.reserves m lane) s.calls

def TunnelService.PendingExact (s : TunnelService) : Prop :=
  ∀ m manager lane l, s.managers[m]? = some manager → manager.lanes[lane]? = some l →
    l.health.pendingStreamOpens = s.reserved m lane

def TunnelService.PendingTallied (s : TunnelService) : Prop :=
  ∀ m lane, counterAt TunnelLane.pending s.managers m lane = s.reserved m lane

namespace OpenCall

variable {manager manager' : TunnelManager} {around : Surroundings} {call call' : OpenCall}
  {x : Nat}

theorem reserves_congr (hma : call'.manager = call.manager)
    (hre : call'.phase.reservation = call.phase.reservation) :
    call'.reserves m x = call.reserves m x := by
  simp [reserves, hma, hre]

theorem reserves_self (call : OpenCall) (x : Nat) :
    call.reserves call.manager x = if call.phase.reservation = some x then 1 else 0 := by
  simp [reserves]

theorem Turn.manager_eq (ht : call.Turn manager around manager' call') :
    call'.manager = call.manager := by
  cases ht <;> simp

theorem pending_of_same (hma : call'.manager = call.manager)
    (hco : manager'.counter TunnelLane.pending x = manager.counter TunnelLane.pending x)
    (hre : call'.phase.reservation = call.phase.reservation) :
    manager'.counter TunnelLane.pending x + call.reserves call.manager x =
      manager.counter TunnelLane.pending x + call'.reserves call.manager x := by
  rw [hco, reserves_congr hma hre]

theorem Turn.pending (ht : call.Turn manager around manager' call') (x : Nat)
    (hpo : call.phase.reservation = some x → 0 < manager.counter TunnelLane.pending x) :
    manager'.counter TunnelLane.pending x + call.reserves call.manager x =
      manager.counter TunnelLane.pending x + call'.reserves call.manager x := by
  have hsa : manager'.counter TunnelLane.pending x = manager.counter TunnelLane.pending x →
      call'.phase.reservation = call.phase.reservation → _ := pending_of_same ht.manager_eq
  cases ht with
  | @reserved lane l hp hla =>
    rw [TunnelManager.updateHealth]
    by_cases hx : x = lane
    · subst hx
      rw [TunnelManager.counter_update hla, TunnelManager.counter_eq hla]
      simp [reserves, hp, OpenPhase.reservation, TunnelLane.pending, LaneHealth.reserve]
    · rw [TunnelManager.counter_update_of_ne hx]
      simp [reserves, hp, OpenPhase.reservation, Ne.symm hx]
  | @successRecorded lane _ hp | @released lane hp =>
    rw [TunnelManager.updateHealth]
    by_cases hx : x = lane
    · subst hx
      obtain ⟨l, hla, he⟩ := TunnelManager.exists_of_counter_pos (hpo (by rw [hp]; rfl))
      have hl : 0 < l.health.pendingStreamOpens := by
        have := hpo (by rw [hp]; rfl)
        rwa [he] at this
      rw [TunnelManager.counter_update hla, he]
      simp [reserves, hp, OpenPhase.reservation, TunnelLane.pending,
        LaneHealth.recordOpenSuccess, LaneHealth.releaseLaneReservation,
        LaneHealth.recordLaneActivity]
      omega
    · rw [TunnelManager.counter_update_of_ne hx]
      simp [reserves, hp, OpenPhase.reservation, Ne.symm hx]
  | noted hp | dialRecorded hp | connected hp | ponged hp =>
    exact hsa (TunnelManager.counter_updateHealth_of_keeps fun _ => rfl) (by rw [hp]; rfl)
  | errorRecorded hp =>
    refine hsa (TunnelManager.counter_updateHealth_of_keeps fun _ => rfl) ?_
    rw [hp, goto_phase, reservation_nextAttempt]
    rfl
  | pruned hp =>
    refine hsa (TunnelManager.counter_setControl fun _ => rfl) ?_
    rw [hp, reservation_checkNext]
    rfl
  | discarded hp | installed hp | thrownAway hp =>
    exact hsa (TunnelManager.counter_setControl fun _ => rfl) (by rw [hp]; rfl)
  | found hp => exact hsa rfl (by obtain hp | hp := hp <;> rw [hp] <;> rfl)
  | pruneLock hp | counted hp =>
    refine hsa rfl ?_
    rw [hp, reservation_countNext]
    rfl
  | busy hp | unpruned hp =>
    refine hsa rfl ?_
    rw [hp, goto_phase, reservation_checkNext]
    rfl
  | lost hp =>
    refine hsa rfl ?_
    rw [hp, goto_phase, reservation_nextAttempt]
    rfl
  | _ hp => exact hsa rfl (by rw [hp]; rfl)

end OpenCall

namespace TunnelService

variable {s s' : TunnelService} {e : ServiceEvent}

/-- No caller drops the future of a call that holds a reservation. -/
def KeepsCalls (s : TunnelService) : ServiceEvent → Prop
  | .drop i => ∀ call, s.calls[i]? = some call → call.phase.reservation = none
  | _ => True

instance (s : TunnelService) : ∀ e, Decidable (s.KeepsCalls e)
  | .drop i => inferInstanceAs (Decidable (∀ call, s.calls[i]? = some call → _))
  | .tick _ | .openStream _ | .call _ _ | .transfer _ _ _ | .record _ | .recorded _ | .replace _ =>
    .isTrue trivial

variable {i : Nat} {call : OpenCall} {m x : Nat}

theorem reserved_set (hca : s.calls[i]? = some call) (call' : OpenCall) :
    total (OpenCall.reserves m x) (s.calls.set i call') + call.reserves m x =
      s.reserved m x + call'.reserves m x :=
  total_set _ hca _

theorem reserves_eq_zero (h : call.manager ≠ m) : call.reserves m x = 0 := by
  simp [OpenCall.reserves, h]

theorem PendingTallied.turn (hs : s.PendingTallied) (hca : s.calls[i]? = some call)
    (hma : s.managers[call.manager]? = some manager)
    (htu : call.Turn manager around manager' call') (m x : Nat) :
    counterAt TunnelLane.pending (s.managers.set call.manager manager') m x =
      total (OpenCall.reserves m x) (s.calls.set i call') := by
  have hse := reserved_set (m := m) (x := x) hca call'
  have hsx := hs m x
  by_cases hm : call.manager = m
  · subst hm
    rw [counterAt_set hma]
    rw [counterAt_eq hma] at hsx
    have hpo : call.phase.reservation = some x → 0 < manager.counter TunnelLane.pending x := by
      intro hr
      have := held_le_total (OpenCall.reserves call.manager x) hca
      rw [OpenCall.reserves_self, if_pos hr] at this
      rw [hsx]
      exact this
    have := htu.pending x hpo
    omega
  · rw [counterAt_set_of_ne (Ne.symm hm)]
    rw [reserves_eq_zero hm, reserves_eq_zero (by rwa [htu.manager_eq])] at hse
    omega

theorem PendingTallied.step (hs : s.PendingTallied) (ho : s.KeepsCalls e)
    (h : s.step e = some s') : s'.PendingTallied := by
  intro m x
  have hsx := hs m x
  cases transition_of_step h with
  | tick | unknownLane => exact hsx
  | @openStream priority =>
    have hnw : OpenCall.reserves m x { manager := s.current, priority := priority } = 0 := by
      simp [OpenCall.reserves, OpenPhase.reservation]
    rw [reserved, total_concat, hnw]
    exact hsx
  | call hca hma htu => exact hs.turn hca hma htu m x
  | @drop i call hca =>
    have hse := reserved_set (m := m) (x := x) hca (call.goto .dropped)
    have hno := ho call hca
    have hbe : call.reserves m x = 0 := by simp [OpenCall.reserves, hno]
    have haf : (call.goto .dropped).reserves m x = 0 := by
      simp [OpenCall.reserves, OpenPhase.reservation]
    rw [hbe, haf] at hse
    exact hsx.trans hse.symm
  | transfer hst hma =>
    exact (counterAt_set_of_keeps hma (counter_transferOn fun _ _ _ => rfl)).trans hsx
  | record hst hma =>
    exact (counterAt_set_of_keeps hma (counter_landOn fun _ _ _ => rfl)).trans hsx
  | recorded hst hp hma =>
    exact (counterAt_set_of_keeps hma
      (TunnelManager.counter_updateHealth_of_keeps fun _ => rfl)).trans hsx
  | replace => exact (counterAt_replace fun _ => rfl).trans hsx

theorem pendingTallied_new (pool : TunnelPoolConfig) : (new pool).PendingTallied := by
  intro m x
  exact counterAt_new pool fun _ => rfl

theorem PendingTallied.exact (hs : s.PendingTallied) : s.PendingExact := by
  intro m manager x l hma hla
  have := hs m x
  rwa [counterAt_eq hma, TunnelManager.counter_eq hla] at this

theorem not_pendingExact_of_drop (hs : s.PendingTallied) (hba : ¬s.KeepsCalls (.drop i))
    (h : s.step (.drop i) = some s') : ¬s'.PendingExact := by
  intro hexact
  cases transition_of_step h with
  | @drop _ call hca =>
    obtain ⟨lane, hr⟩ : ∃ lane, call.phase.reservation = some lane := by
      cases hr : call.phase.reservation with
      | some lane => exact ⟨lane, rfl⟩
      | none =>
        refine absurd (fun c hc => ?_) hba
        rw [hca] at hc
        cases hc
        exact hr
    have hbe : call.reserves call.manager lane = 1 := by
      rw [OpenCall.reserves_self, if_pos hr]
    have hle := held_le_total (OpenCall.reserves call.manager lane) hca
    have hta := hs call.manager lane
    obtain ⟨manager, l, hma, hla, he⟩ :
        ∃ manager l, s.managers[call.manager]? = some manager ∧ manager.lanes[lane]? = some l ∧
          counterAt TunnelLane.pending s.managers call.manager lane = l.pending := by
      apply exists_of_counterAt_pos
      rw [hta, reserved]
      omega
    have haf : (call.goto .dropped).reserves call.manager lane = 0 := by
      simp [OpenCall.reserves, OpenPhase.reservation]
    have hse := reserved_set (m := call.manager) (x := lane) hca (call.goto .dropped)
    have hnow : l.pending = total (OpenCall.reserves call.manager lane)
        (s.calls.set i (call.goto .dropped)) := hexact _ manager lane l hma hla
    omega

/-- **Reservations**: as long as no caller drops a call that holds a reservation,
`pending_stream_opens` of each lane is the number of calls in progress on it; the
first call that is dropped with its reservation ends this. -/
theorem pending_exact_iff {pool : TunnelPoolConfig} (h : Reach step KeepsCalls (new pool) s) :
    s.PendingExact ∧ ∀ e s', s.step e = some s' → (s'.PendingExact ↔ s.KeepsCalls e) := by
  have hs : s.PendingTallied :=
    h.invariant (pendingTallied_new pool) fun _ _ _ hs ho hsp => hs.step ho hsp
  refine ⟨hs.exact, fun e s' hsp => ⟨fun hexact => ?_, fun ho => (hs.step ho hsp).exact⟩⟩
  cases e with
  | drop i =>
    by_cases ho : s.KeepsCalls (.drop i)
    · exact ho
    · exact absurd hexact (not_pendingExact_of_drop hs ho hsp)
  | _ => trivial

def oneLane : TunnelPoolConfig :=
  { minConnections := 1, maxConnections := 1, interactiveLanes := 1, bulkLanes := 0 }

def inputs (i : Nat) (awaits : List OpenInput) : List ServiceEvent := awaits.map (.call i)

def reservingCall (i : Nat) : List ServiceEvent :=
  .openStream .interactive :: inputs i [.go, .go, .choose 0, .go]

/-- A call that is dropped while it holds its reservation leaves it behind. -/
theorem reservation_leaks : ∃ s, Reach step Any (new oneLane) s ∧
    (∀ call ∈ s.calls, call.phase.isOver = true) ∧
    ∃ manager l, s.managers[0]? = some manager ∧ manager.lanes[0]? = some l ∧
      l.health.pendingStreamOpens = 1 := by
  obtain ⟨s, hrc, hov, hpe⟩ := exists_of_run step Any (new oneLane)
    (fun s => (∀ call ∈ s.calls, call.phase.isOver = true) ∧
      counterAt TunnelLane.pending s.managers 0 0 = 1)
    (reservingCall 0 ++ [.drop 0]) (by decide +kernel)
  obtain ⟨manager, l, hma, hla, he⟩ := exists_of_counterAt_pos (by rw [hpe]; decide)
  exact ⟨s, hrc, hov, manager, l, hma, hla, he.symm.trans hpe⟩

theorem pending_exact_iff_reservingCall : ∃ s, Reach step KeepsCalls (new oneLane) s ∧
    s.reserved 0 0 = 1 ∧ s.PendingExact := by
  obtain ⟨s, hrc, hrs⟩ := exists_of_run step KeepsCalls (new oneLane)
    (fun s => s.reserved 0 0 = 1) (reservingCall 0) (by decide +kernel)
  exact ⟨s, hrc, hrs, (pending_exact_iff hrc).1⟩

end TunnelService

end Espejismo.Client
