import Espejismo.Client.Tunnel.Counts

/-!
# Client.Tunnel.Streams

The streams of a lane across reloads.  `active_streams` and the bytes in flight of
a lane go up with its streams, which know their lane; they go down in
`record_stream_bytes`, which looks the lane up by its number in the manager that is
current by then.
-/

namespace Espejismo.Client

open Machine Shares List

/-! ## Streams -/

inductive Direction where
  | clientToRemote
  | remoteToClient
  deriving DecidableEq

namespace TunnelLane

def active (lane : TunnelLane) : Nat := lane.health.activeStreams

def inflight (d : Direction) (lane : TunnelLane) : Nat :=
  match d with
  | .clientToRemote => lane.inflightClientToRemote
  | .remoteToClient => lane.inflightRemoteToClient

end TunnelLane

namespace TunnelStream

def bytes (d : Direction) (stream : TunnelStream) : Nat :=
  match d with
  | .clientToRemote => stream.clientToRemote
  | .remoteToClient => stream.remoteToClient

def IsOn (m lane : Nat) (stream : TunnelStream) : Prop := stream.manager = m ∧ stream.lane = lane

instance (m lane : Nat) (stream : TunnelStream) : Decidable (stream.IsOn m lane) :=
  inferInstanceAs (Decidable (_ ∧ _))

def unrecorded (m lane : Nat) (stream : TunnelStream) : Nat :=
  if stream.IsOn m lane ∧ stream.phase ≠ .recorded then 1 else 0

def inflight (d : Direction) (m lane : Nat) (stream : TunnelStream) : Nat :=
  if stream.IsOn m lane ∧ stream.phase = .opened then stream.bytes d else 0

end TunnelStream

def TunnelService.StreamsExact (s : TunnelService) : Prop :=
  ∀ m manager lane l, s.managers[m]? = some manager → manager.lanes[lane]? = some l →
    l.health.activeStreams = total (TunnelStream.unrecorded m lane) s.streams ∧
    ∀ d, l.inflight d = total (TunnelStream.inflight d m lane) s.streams

namespace OpenCall

variable {manager manager' : TunnelManager} {around : Surroundings} {call call' : OpenCall}
  {x : Nat}

theorem Turn.counter_of_keeps (ht : call.Turn manager around manager' call')
    (hhe : ∀ l health, f { l with health := health } = f l)
    (hco : ∀ l control, f { l with control := control } = f l) :
    manager'.counter f x = manager.counter f x := by
  cases ht with
  | reserved | noted | dialRecorded | connected | ponged | successRecorded | errorRecorded
  | released => exact TunnelManager.counter_updateHealth_of_keeps fun l => hhe l _
  | pruned | discarded | installed | thrownAway =>
    exact TunnelManager.counter_setControl fun l => hco l _
  | _ => rfl

theorem opened_eq_nil (h : ∀ lane, call'.phase ≠ .returned (some lane)) :
    TunnelService.opened call' = [] := by
  unfold TunnelService.opened
  split
  · exact absurd ‹_› (h _)
  · rfl

theorem active_of_same (h : ∀ lane, call'.phase ≠ .returned (some lane))
    (hcn : manager'.counter TunnelLane.active x = manager.counter TunnelLane.active x) :
    manager'.counter TunnelLane.active x = manager.counter TunnelLane.active x +
      total (TunnelStream.unrecorded call.manager x) (TunnelService.opened call') := by
  rw [opened_eq_nil h, hcn]
  rfl

theorem Turn.active (ht : call.Turn manager around manager' call') (x : Nat) :
    manager'.counter TunnelLane.active x = manager.counter TunnelLane.active x +
      total (TunnelStream.unrecorded call.manager x) (TunnelService.opened call') := by
  cases ht with
  | @successRecorded lane l hp hla =>
    have hod : TunnelService.opened (call.goto (.returned (some lane))) =
        [{ manager := call.manager, lane := lane }] := rfl
    rw [hod, TunnelManager.updateHealth]
    by_cases hx : x = lane
    · subst hx
      rw [TunnelManager.counter_update hla, TunnelManager.counter_eq hla]
      simp [TunnelLane.active, LaneHealth.recordOpenSuccess, LaneHealth.recordLaneActivity, total,
        TunnelStream.unrecorded, TunnelStream.IsOn]
    · rw [TunnelManager.counter_update_of_ne hx]
      simp [total, TunnelStream.unrecorded, TunnelStream.IsOn, Ne.symm hx]
  | reserved | noted | dialRecorded | connected | ponged | released =>
    exact active_of_same (by simp) (TunnelManager.counter_updateHealth_of_keeps fun _ => rfl)
  | errorRecorded =>
    exact active_of_same (fun _ => nextAttempt_ne_returned _ _ _ _)
      (TunnelManager.counter_updateHealth_of_keeps fun _ => rfl)
  | pruned =>
    exact active_of_same (fun _ => checkNext_ne_returned _ _ _ _)
      (TunnelManager.counter_setControl fun _ => rfl)
  | discarded | installed | thrownAway =>
    exact active_of_same (by simp) (TunnelManager.counter_setControl fun _ => rfl)
  | pruneLock | counted => exact active_of_same (fun _ => countNext_ne_returned _ _ _ _ _) rfl
  | busy | unpruned => exact active_of_same (fun _ => checkNext_ne_returned _ _ _ _) rfl
  | lost => exact active_of_same (fun _ => nextAttempt_ne_returned _ _ _ _) rfl
  | _ => exact active_of_same (by simp) rfl

end OpenCall

namespace TunnelService

variable {s s' : TunnelService} {e : ServiceEvent}

/-- A stream is recorded while the manager it was opened on is the current one. -/
def RecordsOwn (s : TunnelService) : ServiceEvent → Prop
  | .record i => ∀ stream, s.streams[i]? = some stream → stream.manager = s.current
  | _ => True

instance (s : TunnelService) : ∀ e, Decidable (s.RecordsOwn e)
  | .record i => inferInstanceAs (Decidable (∀ stream, s.streams[i]? = some stream → _))
  | .tick _ | .openStream _ | .call _ _ | .transfer _ _ _ | .drop _ | .recorded _ | .replace _ =>
    .isTrue trivial

structure StreamsTallied (s : TunnelService) : Prop where
  active : ∀ m x, counterAt TunnelLane.active s.managers m x =
    total (TunnelStream.unrecorded m x) s.streams
  inflight : ∀ d m x, counterAt (TunnelLane.inflight d) s.managers m x =
    total (TunnelStream.inflight d m x) s.streams
  recording : ∀ stream ∈ s.streams, ∀ m, stream.phase = .recording m → m = stream.manager

namespace StreamsTallied

theorem exact (hs : s.StreamsTallied) : s.StreamsExact := by
  intro m manager x l hma hla
  have ha := hs.active m x
  have hi (d : Direction) := hs.inflight d m x
  simp only [counterAt_eq hma, TunnelManager.counter_eq hla] at ha hi
  exact ⟨ha, hi⟩

theorem exists_lane (hs : s.StreamsTallied) {i : Nat}
    (hsr : s.streams[i]? = some stream) (hp : stream.phase ≠ .recorded) :
    ∃ manager l, s.managers[stream.manager]? = some manager ∧
      manager.lanes[stream.lane]? = some l := by
  have hle := held_le_total (TunnelStream.unrecorded stream.manager stream.lane) hsr
  have hone : stream.unrecorded stream.manager stream.lane = 1 := by
    simp [TunnelStream.unrecorded, TunnelStream.IsOn, hp]
  rw [hone, ← hs.active] at hle
  obtain ⟨manager, l, hma, hla, -⟩ := exists_of_counterAt_pos hle
  exact ⟨manager, l, hma, hla⟩

end StreamsTallied

variable {i : Nat} {stream : TunnelStream} {streams : List TunnelStream}

theorem tally_update {held : Nat → Nat → TunnelStream → Nat} {managers : List TunnelManager}
    (hof : ∀ m x (stream : TunnelStream), ¬stream.IsOn m x → held m x stream = 0)
    (hta : ∀ m x, counterAt f managers m x = total (held m x) streams)
    (hsr : streams[i]? = some stream) (hma : managers[stream.manager]? = some manager)
    (hla : manager.lanes[stream.lane]? = some l) (hon : stream'.IsOn stream.manager stream.lane)
    (hsp : f (g l) + held stream.manager stream.lane stream =
      f l + held stream.manager stream.lane stream') (m x : Nat) :
    counterAt f (managers.set stream.manager (manager.update stream.lane g)) m x =
      total (held m x) (streams.set i stream') := by
  have hse := total_set (held m x) hsr stream'
  have hbe := hta m x
  rw [counterAt_update hma hla]
  split
  · next heq =>
    obtain ⟨rfl, rfl⟩ := heq
    rw [counterAt_eq hma, TunnelManager.counter_eq hla] at hbe
    omega
  · next hne =>
    rw [hof m x stream hne, hof m x stream' (by rw [TunnelStream.IsOn, hon.1, hon.2]; exact hne)]
      at hse
    omega

section Off

variable {m x : Nat} {stream : TunnelStream} {d : Direction}

theorem unrecorded_of_not_isOn (h : ¬stream.IsOn m x) : stream.unrecorded m x = 0 := by
  simp [TunnelStream.unrecorded, h]

theorem inflight_of_not_isOn (h : ¬stream.IsOn m x) : stream.inflight d m x = 0 := by
  simp [TunnelStream.inflight, h]

end Off

theorem recording_set
    (h : ∀ stream ∈ streams, ∀ m, stream.phase = .recording m → m = stream.manager)
    (hnw : ∀ m, stream'.phase = .recording m → m = stream'.manager) :
    ∀ stream ∈ streams.set i stream', ∀ m, stream.phase = .recording m → m = stream.manager := by
  intro stream hsr
  obtain hme | rfl := mem_or_eq_of_mem_set hsr
  · exact h stream hme
  · exact hnw

theorem mem_opened (h : stream ∈ opened call) :
    stream.manager = call.manager ∧ stream.phase = .opened ∧ ∀ d, stream.bytes d = 0 := by
  unfold opened at h
  split at h
  · obtain rfl := mem_singleton.mp h
    exact ⟨rfl, rfl, fun d => by cases d <;> rfl⟩
  · cases h

namespace StreamsTallied

variable {i : Nat} {stream : TunnelStream} {manager : TunnelManager}

theorem transfer (hs : s.StreamsTallied) (hsr : s.streams[i]? = some stream)
    (hma : s.managers[stream.manager]? = some manager) (ho : stream.phase = .opened) :
    StreamsTallied { s with
      managers := s.managers.set stream.manager (transferOn manager stream up down)
      streams := s.streams.set i { stream with
        clientToRemote := stream.clientToRemote + up
        remoteToClient := stream.remoteToClient + down } } := by
  obtain ⟨_, l, hm, hla⟩ := hs.exists_lane hsr (by rw [ho]; nofun)
  rw [hma] at hm
  cases hm
  refine ⟨?_, fun d => ?_, ?_⟩
  · exact tally_update (fun _ _ _ => unrecorded_of_not_isOn) hs.active hsr hma hla ⟨rfl, rfl⟩ rfl
  · refine tally_update (fun _ _ _ => inflight_of_not_isOn) (hs.inflight d) hsr hma hla
      ⟨rfl, rfl⟩ ?_
    cases d <;> simp [TunnelStream.inflight, TunnelStream.IsOn, ho, TunnelLane.inflight,
      TunnelStream.bytes] <;> omega
  · refine recording_set hs.recording fun m hm => ?_
    rw [ho] at hm
    cases hm

theorem record (hs : s.StreamsTallied) {l : TunnelLane} (hsr : s.streams[i]? = some stream)
    (how : stream.manager = s.current) (hma : s.managers[s.current]? = some manager)
    (ho : stream.phase = .opened) (hla : manager.lanes[stream.lane]? = some l) :
    StreamsTallied { s with
      managers := s.managers.set s.current (landOn manager stream)
      streams := s.streams.set i { stream with phase := .recording s.current } } := by
  rw [← how] at hma ⊢
  refine ⟨?_, fun d => ?_, ?_⟩
  · refine tally_update (fun _ _ _ => unrecorded_of_not_isOn) hs.active hsr hma hla ⟨rfl, rfl⟩ ?_
    simp [TunnelStream.unrecorded, TunnelStream.IsOn, ho, TunnelLane.active]
  · refine tally_update (fun _ _ _ => inflight_of_not_isOn) (hs.inflight d) hsr hma hla
      ⟨rfl, rfl⟩ ?_
    have hle := held_le_total (TunnelStream.inflight d stream.manager stream.lane) hsr
    rw [← hs.inflight, counterAt_eq hma, TunnelManager.counter_eq hla] at hle
    cases d <;> simp [TunnelStream.inflight, TunnelStream.IsOn, ho, TunnelLane.inflight,
      TunnelStream.bytes] at hle ⊢ <;> omega
  · refine recording_set hs.recording fun m hm => ?_
    cases hm
    rfl

theorem recorded (hs : s.StreamsTallied) (hsr : s.streams[i]? = some stream)
    (hp : stream.phase = .recording stream.manager)
    (hma : s.managers[stream.manager]? = some manager) :
    StreamsTallied { s with
      managers := s.managers.set stream.manager (manager.updateHealth stream.lane
        (·.recordStreamBytes stream.clientToRemote stream.remoteToClient s.now))
      streams := s.streams.set i { stream with phase := .recorded } } := by
  obtain ⟨_, l, hm, hla⟩ := hs.exists_lane hsr (by simp [hp])
  rw [hma] at hm
  cases hm
  refine ⟨?_, fun d => ?_, ?_⟩
  · refine tally_update (fun _ _ _ => unrecorded_of_not_isOn) hs.active hsr hma hla ⟨rfl, rfl⟩ ?_
    have hle := held_le_total (TunnelStream.unrecorded stream.manager stream.lane) hsr
    rw [← hs.active, counterAt_eq hma, TunnelManager.counter_eq hla] at hle
    simp [TunnelStream.unrecorded, TunnelStream.IsOn, hp, TunnelLane.active,
      LaneHealth.recordStreamBytes, LaneHealth.recordLaneActivity] at hle ⊢
    omega
  · refine tally_update (fun _ _ _ => inflight_of_not_isOn) (hs.inflight d) hsr hma hla
      ⟨rfl, rfl⟩ ?_
    cases d <;> simp [TunnelStream.inflight, hp, TunnelLane.inflight]
  · exact recording_set hs.recording (by simp)

theorem turn (hs : s.StreamsTallied) {call : OpenCall}
    (hma : s.managers[call.manager]? = some manager)
    (htu : call.Turn manager around manager' call') :
    StreamsTallied { s with
      managers := s.managers.set call.manager manager'
      calls := s.calls.set i call'
      streams := s.streams ++ opened call'
      fresh := s.fresh + 1 } := by
  refine ⟨fun m x => ?_, fun d m x => ?_, fun stream hsr m hp => ?_⟩
  · rw [total_append, ← hs.active]
    by_cases hm : m = call.manager
    · subst hm
      rw [counterAt_set hma, counterAt_eq hma, htu.active]
    have hno : total (TunnelStream.unrecorded m x) (opened call') = 0 := by
      refine total_eq_zero fun stream hsr => unrecorded_of_not_isOn fun hon => hm ?_
      rw [← hon.1, (mem_opened hsr).1, htu.manager_eq]
    rw [counterAt_set_of_ne hm, hno, Nat.add_zero]
  · have hno : total (TunnelStream.inflight d m x) (opened call') = 0 := by
      refine total_eq_zero fun stream hsr => ?_
      obtain ⟨-, -, hby⟩ := mem_opened hsr
      simp [TunnelStream.inflight, hby]
    have hke : manager'.counter (TunnelLane.inflight d) x =
        manager.counter (TunnelLane.inflight d) x :=
      htu.counter_of_keeps (fun _ _ => rfl) fun _ _ => rfl
    rw [total_append, hno, ← hs.inflight, counterAt_set_of_keeps hma hke, Nat.add_zero]
  · rw [mem_append] at hsr
    obtain hold | hnw := hsr
    · exact hs.recording stream hold m hp
    · rw [(mem_opened hnw).2.1] at hp
      cases hp

theorem step (hs : s.StreamsTallied) (hok : s.RecordsOwn e) (h : s.step e = some s') :
    s'.StreamsTallied := by
  cases transition_of_step h with
  | tick | openStream | drop => exact ⟨hs.active, hs.inflight, hs.recording⟩
  | call hcal hma htu => exact hs.turn hma htu
  | transfer hsr hma ho => exact hs.transfer hsr hma ho
  | record hsr hma ho hla =>
    exact hs.record hsr (hok _ hsr) hma ho hla
  | @unknownLane i stream manager hsr hma ho hla =>
    -- the lane of the stream exists, and it is a lane of the current manager
    obtain ⟨_, l, hm, hl⟩ := hs.exists_lane hsr (by rw [ho]; nofun)
    rw [hok _ hsr, hma] at hm
    cases hm
    rw [hla] at hl
    cases hl
  | @recorded i stream m manager hsr hp hma =>
    obtain rfl := hs.recording stream (mem_of_getElem? hsr) m hp
    exact hs.recorded hsr hp hma
  | replace =>
    refine ⟨fun m x => ?_, fun d m x => ?_, hs.recording⟩
    · exact (counterAt_replace fun _ => rfl).trans (hs.active m x)
    · refine (counterAt_replace fun _ => ?_).trans (hs.inflight d m x)
      cases d <;> rfl

end StreamsTallied

theorem streamsTallied_new (pool : TunnelPoolConfig) : (new pool).StreamsTallied := by
  refine ⟨fun m x => ?_, fun d m x => ?_, nofun⟩
  · exact counterAt_new pool fun _ => rfl
  · refine counterAt_new pool fun _ => ?_
    cases d <;> rfl

def recordStreamBytes (s : TunnelService) (i : Nat) : Option TunnelService :=
  (s.step (.record i)).bind fun s' =>
    match s'.streams[i]? with
    | some { phase := .recording _, .. } => s'.step (.recorded i)
    | _ => some s'

theorem of_recordStreamBytes (hsr : s.streams[i]? = some stream)
    (h : s.recordStreamBytes i = some s') :
    stream.phase = .opened ∧ s'.streams = s.streams.set i { stream with phase := .recorded } ∧
      ∀ m, m ≠ s.current → s'.managers[m]? = s.managers[m]? := by
  have hlt := (List.getElem?_eq_some_iff.mp hsr).1
  rw [recordStreamBytes, Option.bind_eq_some_iff] at h
  obtain ⟨t, hr, h⟩ := h
  have ht := transition_of_step hr
  cases ht with
  | @record _ st manager _ hst hma ho =>
    rw [hsr] at hst
    cases hst
    simp only [List.getElem?_set_self hlt] at h
    cases transition_of_step h with
    | @recorded _ st _ _ hst hp =>
      simp only [List.getElem?_set_self hlt, Option.some.injEq] at hst
      subst hst
      cases hp
      refine ⟨ho, by simp, fun m hm => ?_⟩
      simp [List.getElem?_set_ne (Ne.symm hm)]
  | unknownLane hst hma ho =>
    rw [hsr] at hst
    cases hst
    simp only [List.getElem?_set_self hlt] at h
    cases h
    exact ⟨ho, rfl, fun _ _ => rfl⟩

theorem not_streamsExact_of_foreign (hs : s.StreamsTallied) (hsr : s.streams[i]? = some stream)
    (hfo : stream.manager ≠ s.current) (h : s.recordStreamBytes i = some s') :
    ¬s'.StreamsExact := by
  intro hexact
  obtain ⟨ho, hsm, hmn⟩ := of_recordStreamBytes hsr h
  obtain ⟨manager, l, hma, hla⟩ := hs.exists_lane hsr (by rw [ho]; nofun)
  have hbe := (hs.exact _ manager _ l hma hla).1
  have haf := (hexact _ manager _ l ((hmn _ hfo).trans hma) hla).1
  have hse := total_set (TunnelStream.unrecorded stream.manager stream.lane) hsr
    { stream with phase := .recorded }
  rw [hsm] at haf
  simp only [TunnelStream.unrecorded, TunnelStream.IsOn, ho] at hbe haf hse
  simp at hse
  omega

theorem streamsTallied_recordStreamBytes (hs : s.StreamsTallied)
    (hsr : s.streams[i]? = some stream) (how : stream.manager = s.current)
    (h : s.recordStreamBytes i = some s') : s'.StreamsTallied := by
  rw [recordStreamBytes, Option.bind_eq_some_iff] at h
  obtain ⟨t, hr, h⟩ := h
  have hok : s.RecordsOwn (.record i) := by
    intro st hst
    rw [hsr] at hst
    cases hst
    exact how
  have ht := hs.step hok hr
  split at h
  · exact ht.step (e := .recorded i) trivial h
  · cases h
    exact ht

/-- **Streams across reloads**: as long as every stream is recorded while the manager
it was opened on is the current one, each lane counts exactly its own streams and
their bytes; a stream recorded after a reload stays in the count of its lane. -/
theorem streams_exact_iff {pool : TunnelPoolConfig} (h : Reach step RecordsOwn (new pool) s) :
    s.StreamsExact ∧ ∀ i stream s', s.streams[i]? = some stream →
      s.recordStreamBytes i = some s' → (s'.StreamsExact ↔ stream.manager = s.current) := by
  have hs : s.StreamsTallied :=
    h.invariant (streamsTallied_new pool) fun _ _ _ hs hok hsp => hs.step hok hsp
  refine ⟨hs.exact, fun i stream s' hsr hr => ⟨fun hexact => ?_, fun how => ?_⟩⟩
  · by_cases how : stream.manager = s.current
    · exact how
    · exact absurd hexact (not_streamsExact_of_foreign hs hsr how hr)
  · exact (streamsTallied_recordStreamBytes hs hsr how hr).exact

def connectingCall : List OpenInput :=
  [.go, .go, .go, .go, .go, .dialed true, .go, .pinged false, .go]

def openingCall (i : Nat) : List ServiceEvent :=
  reservingCall i ++ inputs i (connectingCall ++ [.go, .opened true, .go])

/-- After a reload the stream of the old manager is recorded on the new one, and its
own lane counts it for ever. -/
theorem reload_loses_stream : ∃ s, Reach step Any (new oneLane) s ∧
    (∀ stream ∈ s.streams, stream.phase = .recorded) ∧
    ∃ manager l, s.managers[0]? = some manager ∧ manager.lanes[0]? = some l ∧
      l.health.activeStreams = 1 ∧ l.inflightClientToRemote = 7 := by
  obtain ⟨s, hrc, hrr, ha, hi⟩ := exists_of_run step Any (new oneLane)
    (fun s => (∀ stream ∈ s.streams, stream.phase = .recorded) ∧
      counterAt TunnelLane.active s.managers 0 0 = 1 ∧
      counterAt (TunnelLane.inflight .clientToRemote) s.managers 0 0 = 7)
    (openingCall 0 ++ [.transfer 0 7 0, .replace oneLane, .record 0, .recorded 0])
    (by decide +kernel)
  obtain ⟨manager, l, hma, hla, heq⟩ := exists_of_counterAt_pos (by rw [ha]; decide)
  refine ⟨s, hrc, hrr, manager, l, hma, hla, heq.symm.trans ha, ?_⟩
  rw [counterAt_eq hma, TunnelManager.counter_eq hla] at hi
  exact hi

/-- A stream is recorded on its manager, the pool is replaced, and a stream is opened on the
new one. -/
theorem streams_exact_iff_replaced : ∃ s, Reach step RecordsOwn (new oneLane) s ∧
    s.streams.map (·.manager) = [0, 1] ∧ s.StreamsExact := by
  obtain ⟨s, hrc, hmn⟩ := exists_of_run step RecordsOwn (new oneLane)
    (fun s => s.streams.map (·.manager) = [0, 1])
    (openingCall 0 ++ [.transfer 0 7 0, .record 0, .recorded 0, .replace oneLane] ++
      openingCall 1 ++
      [.transfer 1 7 0])
    (by decide +kernel)
  exact ⟨s, hrc, hmn, (streams_exact_iff hrc).1⟩

end TunnelService

end Espejismo.Client
