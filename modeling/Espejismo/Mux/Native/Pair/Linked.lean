import Mathlib.Tactic.MkIffOfInductiveProp
import Espejismo.Mux.Native.Pair

/-!
# Mux.Native.Pair.Linked

Ids in a pair of sessions.  Each side opens streams of its own parity only, and
the first frame of a stream is its OPEN; so an id is new to a side when that
side sends or handles the OPEN, in every run (`Linked`).  With this the facts
about single streams apply to both ends of every stream.
-/

namespace Espejismo.Mux

open Binary Relation List

/-! ## OPEN frames that go out -/

/-- A frame that `handle_frame` does not reject. -/
def Frame.Proper (f : Frame) : Prop :=
  match f.kind with
  | .open => ∃ priority, Session.openPriority f.payload = .ok priority
  | .windowUpdate => f.payload.length = 4
  | .ping => f.payload.length = 8
  | .unknown _ _ => False
  | _ => True

namespace Session

variable {S : Session} {e : Session.Event} {parity : Nat}

structure Opens (parity : Nat) (S : Session) : Prop where
  next_pos : 0 < S.nextStreamId
  next_parity : S.nextStreamId % 2 = parity
  own : ∀ f ∈ S.outgoing, f.kind = .open → f.streamId ≠ 0 ∧ f.streamId.toNat % 2 = parity

theorem outgoing_step (hs : S.Sane) (h : Step S e S') :
    S'.outgoing = S.outgoing ∨
      ∃ f, S'.outgoing = S.outgoing ++ [f] ∧ f.Proper ∧
        (f.kind = .open → f.streamId.toNat = S.nextStreamId) := by
  cases h with
  | popped _ hp hpe | entered _ hp hpe => exact .inl (by simp [outgoing, hp, hpe])
  | stopped _ hp hpe => exact .inl (by simp [outgoing, leave, stop, hp, hpe])
  | written =>
    rename_i queuedStream _
    cases queuedStream <;> exact .inl rfl
  | idled hph _ _ hpe
      | dataSent hph _ _ hpe | resetSent hph _ hpe | refused hph _ _ hpe =>
    exact .inr ⟨_, outgoing_queue (hs.pending_nil (by simp [hph])) hpe rfl, trivial, by simp⟩
  | @opened _ priority _ _ _ hph _ _ hi _ hpe =>
    exact .inr ⟨_, outgoing_queue (hs.pending_nil (by simp [hph])) hpe rfl,
      ⟨priority, by simp [openPriority]⟩, fun _ => hi⟩
  | @controlSent _ c _ _ _ _ _ hph _ hf hpe =>
    refine .inr ⟨_, outgoing_queue (hs.pending_nil (by simp [hph])) hpe rfl, ?_⟩
    cases c <;> cases hf <;> simp [Frame.Proper]
  | pinged hph _ _ hln hpe =>
    exact .inr ⟨_, outgoing_queue (hs.pending_nil (by simp [hph])) hpe rfl, hln, by simp⟩
  | _ => exact .inl rfl

theorem nextStreamId_step (h : Step S e S') :
    S'.nextStreamId = S.nextStreamId ∨ S'.nextStreamId = S.nextStreamId + 2 := by
  cases h with
  | openFailed _ _ hnx => exact hnx.imp_right And.left
  | opened => exact .inr rfl
  | written =>
    rename_i queuedStream _
    cases queuedStream <;> exact .inl rfl
  | _ => exact .inl rfl

theorem Opens.step (ho : S.Opens parity) (hs : S.Sane) (h : Step S e S') : S'.Opens parity := by
  have hpo := ho.next_pos
  have hpar := ho.next_parity
  refine ⟨?_, ?_, ?_⟩
  · rcases nextStreamId_step h with hn | hn <;> omega
  · rcases nextStreamId_step h with hn | hn <;> omega
  · rcases outgoing_step hs h with hou | ⟨f, hou, -, hi⟩
    · rw [hou]
      exact ho.own
    rw [hou]
    intro g hg hon
    rw [mem_append, mem_singleton] at hg
    rcases hg with hg | rfl
    · exact ho.own g hg hon
    have hna := hi hon
    refine ⟨?_, by rw [hna, hpar]⟩
    intro hze
    simp [hze] at hna
    omega

end Session

/-! ## Both ends of a stream -/

namespace Endpoint

variable {s : UInt32} {v v' : Endpoint} {tx : Channel Command} {op : NativeStream.Op}

theorem sent_called (h : Called s tx op v v') : v'.sent = v.sent := by
  cases h
  rfl

theorem stream_called (h : Called s tx op v v') : v'.stream ≠ none := by
  cases h
  simp

theorem sent_isPrefix (h : Move may config s v v') : v.sent <+: v'.sent := by
  cases h with
  | opened | dataSent | controlSent | announced | resetSent | refused => exact prefix_append ..
  | dropped h => exact (sent_called h).symm ▸ prefix_refl _
  | _ => exact prefix_refl _

@[mk_iff openFirst_iff]
structure OpenFirst (frames : List Frame) : Prop where
  head : ∀ f ∈ frames.head?, f.kind = .open
  tail : ∀ f ∈ frames.tail, f.kind ≠ .open

theorem OpenFirst.concat {f : Frame} (h : OpenFirst fs) (hne : fs ≠ [])
    (hf : f.kind ≠ .open) : OpenFirst (fs ++ [f]) := by
  cases fs with
  | nil => exact absurd rfl hne
  | cons =>
    refine ⟨h.head, fun k hk => ?_⟩
    simp only [cons_append, tail_cons, mem_append, mem_singleton] at hk
    rcases hk with hk | rfl
    · exact h.tail k hk
    · exact hf

theorem OpenFirst.eq_nil {f : Frame} (h : OpenFirst gs) (hp : fs ++ [f] <+: gs)
    (hf : f.kind = .open) : fs = [] := by
  cases fs with
  | nil => rfl
  | cons =>
    obtain ⟨rest, rfl⟩ := hp
    exact absurd hf (h.tail f (by simp))

structure Opener (v : Endpoint) : Prop where
  unused : v.stream = none → v.Pristine
  used : v.stream ≠ none → v.sent ≠ []
  openFirst : OpenFirst v.sent

/-- The end that the stream is opened to: nothing happens before a frame of the
stream comes in. -/
def Acceptor (v : Endpoint) : Prop := v.handled = [] → v.Pristine

theorem Pristine.move (hp : Pristine v) (hs : s ≠ 0) (h : Move Fresh config s v v')
    (hh : v'.handled = []) :
    v'.Pristine ∨ ∃ priority : StreamPriority,
      v'.stream ≠ none ∧ v'.sent = [⟨.open, s, [priority.toByte]⟩] := by
  have hsr := hp.stream
  have hco := hp.commands
  cases h with
  | dropped h =>
    cases h with
    | mk hst => simp [hsr] at hst
  | given hst | delivered hst | deliveryFailed hst => simp [hsr] at hst
  | opened priority => exact .inr ⟨priority, by simp, by simp [hp.sent]⟩
  | dataSent hc | dataDiscarded hc | controlSent hc | resetSent hc => simp [hco] at hc
  | announced hze => exact absurd hze hs
  | refused | admitted | dataTaken | granted | closed | noted => simp at hh
  | released =>
    exact .inl ⟨by simp [touch, hsr], hp.attached, hco, hp.sent, hp.handled, hp.arriving⟩
  | ended =>
    exact .inl ⟨by simp [touch, hsr], rfl, rfl, hp.sent, hp.handled, rfl⟩
  | aborted => exact .inl ⟨hsr, rfl, rfl, hp.sent, hp.handled, rfl⟩

theorem stream_ne_none (h : Move may config s v v') (hst : v.stream ≠ none) : v'.stream ≠ none := by
  have hto : ∀ g, v.touch g ≠ none := fun g hno => hst (touch_eq_none hno)
  cases h with
  | dropped h => exact stream_called h
  | released | granted | closed | ended => exact hto _
  | given | opened | admitted | delivered => simp
  | _ => exact hst

theorem sent_step (h : Move Fresh config s v v') (hst : v.stream ≠ none) :
    v'.sent = v.sent ∨ ∃ f, v'.sent = v.sent ++ [f] ∧ f.kind ≠ .open := by
  cases h with
  | opened _ hm => exact absurd (hm rfl).stream hst
  | dataSent | resetSent | refused => exact .inr ⟨_, rfl, by simp⟩
  | @controlSent c _ _ _ _ hf =>
    cases c <;> cases hf <;> simp
  | announced _ hki => exact .inr ⟨_, rfl, by rcases hki with h | h <;> simp [h]⟩
  | dropped h => exact .inl (sent_called h)
  | _ => exact .inl rfl

namespace Opener

theorem called (hv : Opener v) (h : Called s tx op v v') : Opener v' := by
  cases h with
  | mk hst => exact ⟨by simp, fun _ => hv.used (by simp [hst]), hv.openFirst⟩

theorem move (hv : Opener v) (hs : s ≠ 0) (hfr : v'.handled ≠ [] → v.sent ≠ [])
    (h : Move Fresh config s v v') : Opener v' := by
  by_cases hst : v.stream = none
  · have hp := hv.unused hst
    have hh : v'.handled = [] := by
      by_contra hne
      exact hfr hne hp.sent
    rcases hp.move hs h hh with hp' | ⟨priority, hst', hsn⟩
    · exact ⟨fun _ => hp', fun hne => absurd hp'.stream hne, by simp [openFirst_iff, hp'.sent]⟩
    · exact ⟨fun hno => absurd hno hst', fun _ => by simp [hsn], by simp [openFirst_iff, hsn]⟩
  · have hst' := stream_ne_none h hst
    refine ⟨fun hno => absurd hno hst', fun _ => ?_, ?_⟩
    · obtain ⟨rest, hre⟩ := sent_isPrefix h
      rw [← hre]
      simp [hv.used hst]
    · rcases sent_step h hst with hsn | ⟨f, hsn, hki⟩
      · rw [hsn]
        exact hv.openFirst
      · rw [hsn]
        exact hv.openFirst.concat (hv.used hst) hki

end Opener

namespace Acceptor

theorem called (hv : Acceptor v) (h : Called s tx op v v') : Acceptor v' := by
  cases h with
  | mk hst =>
    intro hni
    simp [(hv hni).stream] at hst

theorem move (hv : Acceptor v) (hs : s ≠ 0) (hsn : ∀ f ∈ v'.sent, f.kind ≠ .open)
    (h : Move Fresh config s v v') : Acceptor v' := by
  intro hni
  have hp : Pristine v := hv (prefix_nil.mp (hni ▸ Session.handled_isPrefix h))
  rcases hp.move hs h hni with hp' | ⟨priority, -, hon⟩
  · exact hp'
  · exact absurd rfl (hsn ⟨.open, s, [priority.toByte]⟩ (by simp [hon]))

end Acceptor

end Endpoint

/-! ## Every run of a pair -/

namespace Pair

variable {P P' : Pair} {e : Pair.Event} {x : Side} {s : UInt32}

/-- What holds of two sessions and their pipe without any account of ids. -/
structure Joined (P : Pair) : Prop where
  sane : ∀ x, (P.session x).Sane
  opens : ∀ x, (P.session x).Opens x.parity
  fifo : ∀ x, Fifo (P.session x) (P.wire x) (P.session x.peer)

def Takes (e : Event) (x : Side) (se : Session.Event) : Prop :=
  (e = .act x se ∧ se.isLocal = true) ∨ ∃ result, e = .receive x ∧ se = .arrive result

theorem session_step (h : Step P e P') (x : Side) :
    P'.session x = P.session x ∨
      ∃ se, Takes e x se ∧ (P.session x).step se = some (P'.session x) ∧
        P'.session x.peer = P.session x.peer := by
  cases h with
  | @acted y _ _ hlo h =>
    by_cases hx : x = y
    · subst hx
      exact .inr ⟨_, .inl ⟨rfl, hlo⟩, by simpa using h, by simp⟩
    · exact .inl (by simp [hx])
  | @received y _ _ _ hrd h =>
    by_cases hx : x = y
    · subst hx
      exact .inr ⟨_, .inr ⟨_, rfl, rfl⟩, by simpa using h, by simp⟩
    · exact .inl (by simp [hx])
  | closed => exact .inl rfl

theorem Joined.keeps {I : Session → Prop} (hP : P.Joined) (h : P.step e = some P') (x : Side)
    (hI : I (P.session x)) (hsp : ∀ se, Session.Step (P.session x) se (P'.session x) →
      P'.session x.peer = P.session x.peer → I (P'.session x)) : I (P'.session x) := by
  rcases session_step (step_cases h) x with hsa | ⟨se, -, hse, hpee⟩
  · rwa [hsa]
  · exact hsp se (Session.step_cases (hP.sane x) hse) hpee

theorem connect_session (config : Side → NativeMuxConfig) (x : Side) :
    ∃ first : UInt32, (connect config).session x = Session.start first (config x) ∧
      0 < first.toNat ∧ first.toNat % 2 = x.parity := by
  cases x with
  | client => exact ⟨1, rfl, by decide, rfl⟩
  | server => exact ⟨2, rfl, by decide, rfl⟩

theorem joined_connect (config : Side → NativeMuxConfig) : (connect config).Joined where
  sane := by
    intro x
    obtain ⟨first, h, -, -⟩ := connect_session config x
    rw [h]
    exact Session.sane_start ..
  opens := by
    intro x
    obtain ⟨first, h, hpo, hpa⟩ := connect_session config x
    rw [h]
    exact ⟨hpo, hpa, by simp [Session.outgoing, Session.start]⟩
  fifo := by
    intro x
    obtain ⟨first, h, -, -⟩ := connect_session config x
    obtain ⟨first', h', -, -⟩ := connect_session config x.peer
    rw [h, h']
    constructor <;> simp [connect, Session.arrived, Session.framesIn, Session.writing,
      Session.start]

theorem Joined.step (hP : P.Joined) (h : Step P e P') : P'.Joined := by
  -- the two directions of the side that moves
  have hbo : ∀ y, (∀ z, z ≠ y → P'.session z = P.session z) → (P'.session y).Sane →
      (P'.session y).Opens y.parity → Fifo (P'.session y) (P'.wire y) (P.session y.peer) →
        Fifo (P.session y.peer) (P'.wire y.peer) (P'.session y) → P'.Joined := by
    intro y hoh hsan hos hou hin
    have hpee := hoh y.peer (by simp)
    refine ⟨?_, ?_, ?_⟩
    · intro z
      rcases Side.eq_or_eq_peer y z with rfl | rfl
      · exact hsan
      · rw [hpee]
        exact hP.sane _
    · intro z
      rcases Side.eq_or_eq_peer y z with rfl | rfl
      · exact hos
      · rw [hpee]
        exact hP.opens _
    · intro z
      rcases Side.eq_or_eq_peer y z with rfl | rfl
      · rw [hpee]
        exact hou
      · rw [hpee, Side.peer_peer]
        exact hin
  cases h with
  | @acted y se S hlo h =>
    have hca := Session.step_cases (hP.sane y) h
    have hin := hP.fifo y.peer
    rw [Side.peer_peer] at hin
    refine hbo y (fun z hz => by simp [hz]) ?_ ?_ ?_ ?_
    · simpa using (hP.sane y).step h
    · simpa using (hP.opens y).step (hP.sane y) hca
    · simpa using (hP.fifo y).write (hP.sane y) hca
    · simpa using hin.read_nothing hlo hca
  | @received y result rest S hrd h =>
    have hca := Session.step_cases (hP.sane y) h
    have hin := hP.fifo y.peer
    rw [Side.peer_peer] at hin
    have hpu : (P.wire y).put ((P.session y).flowing (.arrive result)) = P.wire y := by
      simp [Session.flowing, Wire.put]
    refine hbo y (fun z hz => by simp [hz]) ?_ ?_ ?_ ?_
    · simpa using (hP.sane y).step h
    · simpa using (hP.opens y).step (hP.sane y) hca
    · simpa [hpu] using (hP.fifo y).write (hP.sane y) hca
    · simpa using hin.read hrd h
  | @closed y _ w hby hcs =>
    refine ⟨hP.sane, hP.opens, ?_⟩
    intro z
    by_cases hz : z = y
    · subst hz
      simpa using (hP.fifo z).close hby hcs
    · simpa [hz] using hP.fifo z

theorem Joined.arrived_isPrefix (hP : P.Joined) (x : Side) :
    (P.session x.peer).arrived <+: (P.session x).outgoing :=
  (hP.fifo x).arrived_isPrefix.trans (prefix_append ..)

theorem Joined.handled_isPrefix (hP : P.Joined) (x : Side) (s : UInt32) :
    ((P.session x.peer).endpoint s).handled <+: ((P.session x).endpoint s).sent := by
  have ha : (P.session x.peer).handled <+: (P.session x.peer).arrived := prefix_append ..
  exact List.IsPrefix.filter _ (ha.trans (hP.arrived_isPrefix x))

theorem Joined.handled_isPrefix_peer (hP : P.Joined) (x : Side) (s : UInt32) :
    ((P.session x).endpoint s).handled <+: ((P.session x.peer).endpoint s).sent := by
  simpa using hP.handled_isPrefix x.peer s

/-- The frames of a stream that a side has queued to be written and that its peer
has not handled. -/
def underway (P : Pair) (x : Side) (s : UInt32) : List Frame :=
  framesOf s ((P.session x).outgoing.drop (P.session x.peer).handled.length)

theorem sent_eq (hP : P.Joined) (x : Side) (s : UInt32) :
    ((P.session x).endpoint s).sent =
      ((P.session x.peer).endpoint s).handled ++ P.underway x s := by
  have ha : (P.session x.peer).handled <+: (P.session x.peer).arrived := prefix_append ..
  obtain ⟨rest, hre⟩ := ha.trans (hP.arrived_isPrefix x)
  have hun : P.underway x s = framesOf s rest := by
    rw [underway, ← hre, drop_left]
  rw [hun]
  change framesOf s _ = framesOf s _ ++ _
  rw [← Session.framesOf_append, hre]

structure Linked (P : Pair) : Prop where
  joined : P.Joined
  distinct : ∀ x, (P.session x).Distinct
  zero : ∀ x, ((P.session x).endpoint 0).stream = none
  opener : ∀ x s, s ≠ 0 → s.toNat % 2 = x.parity → ((P.session x).endpoint s).Opener
  acceptor : ∀ x s, s ≠ 0 → s.toNat % 2 = x.peer.parity → ((P.session x).endpoint s).Acceptor

namespace Linked

theorem open_arrived (hP : P.Linked)
    (hfr : (P.session x).frames.items = .ok (some f) :: items) (hon : f.kind = .open) :
    f.streamId ≠ 0 ∧ f.streamId.toNat % 2 = x.peer.parity ∧
      ((P.session x).endpoint f.streamId).Pristine := by
  have ha := hP.joined.arrived_isPrefix x.peer
  rw [Side.peer_peer] at ha
  have hnx : (P.session x).handled ++ [f] <+: (P.session x.peer).outgoing := by
    refine List.IsPrefix.trans ⟨Session.framesIn items, ?_⟩ ha
    rw [Session.arrived, hfr, append_assoc]
    rfl
  obtain ⟨hze, hpa⟩ := (hP.joined.opens x.peer).own f (hnx.subset (by simp)) hon
  refine ⟨hze, hpa, hP.acceptor x _ hze hpa ?_⟩
  have hsn := hnx.filter fun g => g.streamId = f.streamId
  have how : framesOf f.streamId ((P.session x).handled ++ [f]) =
      framesOf f.streamId (P.session x).handled ++ [f] := Session.framesOf_own rfl _
  change framesOf _ _ <+: framesOf _ _ at hsn
  rw [how] at hsn
  exact (hP.opener x.peer _ hze hpa).openFirst.eq_nil hsn hon

theorem parity_ne (x : Side) : x.peer.parity ≠ x.parity := by
  cases x <;> simp [Side.peer, Side.parity]

theorem acceptsFresh (hP : P.Linked) (x : Side) (se : Session.Event) :
    (P.session x).AcceptsFresh se := by
  intro since f items _ _ hfr hon _ _
  obtain ⟨-, hpa, hpr⟩ := hP.open_arrived hfr hon
  refine ⟨?_, hpr.stream⟩
  rw [hpa, (hP.joined.opens x).next_parity]
  exact parity_ne x

variable {se : Session.Event}

theorem pristine_of_open (hP : P.Linked) (h : (P.session x).Handling se .open s) :
    s ≠ 0 ∧ ((P.session x).endpoint s).Pristine := by
  obtain ⟨-, ⟨-, since, priority, items, -, -, hi⟩ | ⟨since, f, items, -, hfr, hon, rfl⟩⟩ := h
  · have hpo := (hP.joined.opens x).next_pos
    have hpa := (hP.joined.opens x).next_parity
    have hze : s ≠ 0 := by
      rintro rfl
      simp at hi
      omega
    refine ⟨hze, (hP.opener x s hze (by rw [hi, hpa])).unused ?_⟩
    exact (hP.distinct x).streamOf_next hi
  · obtain ⟨hze, -, hpr⟩ := hP.open_arrived hfr hon
    exact ⟨hze, hpr⟩

theorem seen_of (may : FrameKind → Endpoint → Prop) (hP : P.Linked)
    (hm : ∀ kind, (P.session x).Handling se kind s → may kind ((P.session x).endpoint s))
    (h : Session.Step (P.session x) se S') :
    (P.session x).Seen (fun kind v => Endpoint.Fresh kind v ∧ may kind v) se s (S'.endpoint s) := by
  refine Session.endpoint_step (hP.joined.sane x) (hP.distinct x) (hP.acceptsFresh x se) ?_ h
  intro kind hhn
  refine ⟨?_, hm kind hhn⟩
  rintro rfl
  exact (hP.pristine_of_open hhn).2

theorem seen (hP : P.Linked) (h : Session.Step (P.session x) se S') (s : UInt32) :
    (P.session x).Seen Endpoint.Fresh se s (S'.endpoint s) := by
  refine (hP.seen_of (fun _ _ => True) (fun _ _ => trivial) h).imp_right ?_
  exact ReflTransGen.mono (fun _ _ => .mono fun _ hm => hm.1) _ _

theorem opener_step (hP : P.Linked) (hP' : P'.Joined)
    (h : Session.Step (P.session x) se (P'.session x))
    (hpee : P'.session x.peer = P.session x.peer) (hze : s ≠ 0)
    (hpa : s.toNat % 2 = x.parity) : ((P'.session x).endpoint s).Opener := by
  -- frames come in only after this side has sent some
  have hfr : ((P'.session x).endpoint s).handled ≠ [] → ((P.session x).endpoint s).sent ≠ [] := by
    intro hh hsn
    have hin := hP.joined.handled_isPrefix x s
    rw [hsn, prefix_nil] at hin
    have hpr := hP.acceptor x.peer s hze (by simpa using hpa) hin
    have hba := hP'.handled_isPrefix_peer x s
    rw [hpee, hpr.sent, prefix_nil] at hba
    exact hh hba
  have hke := (hP.seen h s).keeps_of
    (I := fun v => v.Opener ∧ ((P.session x).endpoint s).sent <+: v.sent)
    (Q := fun fs => fs ≠ [] → ((P.session x).endpoint s).sent ≠ [])
    (fun fs gs hle hgs hfs => hgs fun hni => hfs (prefix_nil.mp (hni ▸ hle))) ?_ ?_
    ⟨hP.opener x s hze hpa, prefix_refl _⟩ hfr
  · exact hke.1
  · intro r op st _ _ _ hcl
    refine ⟨(hP.opener x s hze hpa).called hcl, ?_⟩
    exact (Endpoint.sent_called hcl).symm ▸ prefix_refl _
  · intro v v' hv hQ hmo
    refine ⟨hv.1.move hze (fun hne hni => hQ hne ?_) hmo, hv.2.trans (Endpoint.sent_isPrefix hmo)⟩
    exact prefix_nil.mp (hni ▸ hv.2)

theorem acceptor_step (hP : P.Linked) (hP' : P'.Joined)
    (h : Session.Step (P.session x) se (P'.session x)) (hze : s ≠ 0)
    (hpa : s.toNat % 2 = x.peer.parity) : ((P'.session x).endpoint s).Acceptor := by
  have hke := (hP.seen h s).keeps
    (I := fun v => (∀ f ∈ v.sent, f.kind ≠ .open) → v.Acceptor) ?_ ?_
    (fun _ => hP.acceptor x s hze hpa)
  · refine hke fun f hf hon => ?_
    obtain ⟨hme, hi⟩ := mem_filter.mp hf
    obtain ⟨-, how⟩ := (hP'.opens x).own f hme hon
    rw [decide_eq_true_eq] at hi
    rw [hi, hpa] at how
    exact parity_ne x how
  · intro tx op v v' hv hcl hsn
    exact (hv (Endpoint.sent_called hcl ▸ hsn)).called hcl
  · intro v v' hv hmo hsn
    exact (hv fun f hf => hsn f ((Endpoint.sent_isPrefix hmo).subset hf)).move hze hsn hmo

theorem zero_step (hP : P.Linked) (h : Session.Step (P.session x) se (P'.session x)) :
    ((P'.session x).endpoint 0).stream = none := by
  have hsee : (P.session x).Seen (fun kind _ => kind ≠ .open) se 0 ((P'.session x).endpoint 0) := by
    refine Session.endpoint_step (hP.joined.sane x) (hP.distinct x) (hP.acceptsFresh x se) ?_ h
    rintro _ hon rfl
    exact (hP.pristine_of_open hon).1 rfl
  refine hsee.keeps (I := fun v => v.stream = none) ?_ ?_ (hP.zero x)
  · intro tx op v v' hv hcl
    cases hcl with
    | mk hst => simp [hv] at hst
  · intro v v' hv hmo
    have hto : ∀ g, v.touch g = none := by simp [Endpoint.touch, hv]
    cases hmo with
    | dropped hcl =>
      cases hcl with
      | mk hst => simp [hv] at hst
    | given hst | delivered hst => simp [hv] at hst
    | opened _ hm | admitted _ _ _ hm => exact absurd rfl hm
    | released | granted | closed | ended => exact hto _
    | _ => exact hv

theorem step (hP : P.Linked) (h : P.step e = some P') : P'.Linked := by
  have hP' := hP.joined.step (Pair.step_cases h)
  refine ⟨hP', fun x => ?_, fun x => ?_, fun x s hze hpa => ?_, fun x s hze hpa => ?_⟩
  · exact hP.joined.keeps h x (hP.distinct x) fun se hsp _ =>
      (hP.distinct x).step (hP.acceptsFresh x se) hsp
  · exact hP.joined.keeps (I := fun S => (S.endpoint 0).stream = none) h x (hP.zero x)
      fun _ hsp _ => hP.zero_step hsp
  · exact hP.joined.keeps (I := fun S => (S.endpoint s).Opener) h x (hP.opener x s hze hpa)
      fun _ hsp hpee => hP.opener_step hP' hsp hpee hze hpa
  · exact hP.joined.keeps (I := fun S => (S.endpoint s).Acceptor) h x (hP.acceptor x s hze hpa)
      fun _ hsp _ => hP.acceptor_step hP' hsp hze hpa

end Linked

theorem endpoint_start (first : UInt32) (config : NativeMuxConfig) (s : UInt32) :
    ((Session.start first config).endpoint s).Pristine where
  stream := rfl
  attached := by simp [Session.endpoint, Session.start]
  commands := rfl
  sent := rfl
  handled := rfl
  arriving := rfl

theorem endpoint_connect (config : Side → NativeMuxConfig) (x : Side) (s : UInt32) :
    (((connect config).session x).endpoint s).Pristine := by
  obtain ⟨first, h, -, -⟩ := connect_session config x
  rw [h]
  exact endpoint_start first (config x) s

theorem linked_connect (config : Side → NativeMuxConfig) : (connect config).Linked where
  joined := joined_connect config
  distinct := by
    intro x
    obtain ⟨first, h, -, -⟩ := connect_session config x
    rw [h]
    exact Session.distinct_start first (config x)
  zero := fun x => (endpoint_connect config x 0).stream
  opener := by
    intro x s _ _
    have hp := endpoint_connect config x s
    exact ⟨fun _ => hp, fun hne => absurd hp.stream hne, by simp [Endpoint.openFirst_iff, hp.sent]⟩
  acceptor := fun x s _ _ _ => endpoint_connect config x s

variable {ok : Pair → Event → Prop}

theorem config_of_reach (h : Machine.Reach step ok (connect config) P) (x : Side) :
    (P.session x).config = sanitizeConfig (config x) := by
  refine h.invariant_of (J := Joined) (I := fun P => (P.session x).config = _) ?_ ?_ ?_
  · exact fun P hr => hr.invariant (joined_connect config) fun _ _ _ hP _ hsp =>
      hP.step (Pair.step_cases hsp)
  · obtain ⟨first, hsta, -, -⟩ := connect_session config x
    rw [hsta]
    rfl
  · intro P e P' hP hcn _ hsp
    exact hP.keeps (I := fun S => S.config = _) hsp x hcn fun _ hca _ =>
      (Session.config_step hca).trans hcn

theorem linked_of_reach (h : Machine.Reach step ok (connect config) P) : P.Linked :=
  h.invariant (linked_connect config) fun _ _ _ hP _ hsp => hP.step hsp

theorem proper_of_reach (h : Machine.Reach step ok (connect config) P) (x : Side) :
    ∀ f ∈ (P.session x).outgoing, f.Proper := by
  refine h.invariant_of (J := Joined) (I := fun P => ∀ f ∈ (P.session x).outgoing,
    f.Proper) ?_ ?_ ?_
  · exact fun P hr => (linked_of_reach hr).joined
  · obtain ⟨first, hsta, -, -⟩ := connect_session config x
    rw [hsta]
    simp [Session.outgoing, Session.start]
  · intro P e P' hP hpp _ hsp
    refine hP.keeps (I := fun S => ∀ f ∈ S.outgoing, f.Proper) hsp x hpp fun _ hca _ => ?_
    rcases Session.outgoing_step (hP.sane x) hca with hou | ⟨f, hou, hf, -⟩
    · rwa [hou]
    rw [hou]
    intro g hg
    rw [mem_append, mem_singleton] at hg
    rcases hg with hg | rfl
    · exact hpp g hg
    · exact hf

end Pair

end Espejismo.Mux
