import Espejismo.Mux.Native.Pair.Linked

/-!
# Mux.Native.Pair.Delivery

What a reader gets of what its peer wrote.  In every run of two sessions, with
any network, the bytes a reader has been given are the first bytes its peer had
accepted on the same stream, and neither side sends DATA of a stream after the
stream's FIN or RST.
-/

namespace Espejismo.Mux

open Binary Relation List Option

namespace Pair

variable {P P' : Pair} {e : Pair.Event} {x : Side} {s : UInt32} {config : Side → NativeMuxConfig}
  {ok : Pair → Pair.Event → Prop}

structure Sound (P : Pair) : Prop where
  linked : P.Linked
  ends : ∀ x s, ((P.session x).endpoint s).Sound s

theorem sound_connect (config : Side → NativeMuxConfig) : (connect config).Sound where
  linked := linked_connect config
  ends := fun x s => .pristine (endpoint_connect config x s)

namespace Sound

theorem tidy (hP : P.Sound) (h : ((P.session x).endpoint s).stream = some st) : st.Tidy := by
  obtain ⟨r, hg, -⟩ := Session.exists_ref h
  exact (hP.linked.joined.sane x).tidy r st hg

theorem quiet_handled (hP : P.Sound) (hP' : P'.Joined)
    (hp : P'.session x.peer = P.session x.peer) : Quiet ((P'.session x).endpoint s).handled := by
  have hf := hP'.handled_isPrefix_peer x s
  rw [hp] at hf
  exact .of_isPrefix hf (hP.ends x.peer s).sending.quiet

def CallsKeep (I : Endpoint → Prop) (x : Side) (s : UInt32) (P : Pair) (e : Event) (P' : Pair) :
    Prop :=
  ∀ se r op st, Takes e x se → se.call? = some (r, op) → (P.session x).handles[r]? = some st →
    st.id = s → Endpoint.Called s (P.session x).commands op ((P.session x).endpoint s)
      ((P'.session x).endpoint s) → I ((P'.session x).endpoint s)

variable {I : Endpoint → Prop}

/-- **Pair rule**: what calls and moves keep of one end of a stream, a step of the
pair keeps.  `Q` is what is known of the frames handled after the step; it holds of
fewer frames as well.  `may` is what is known where a frame is handled. -/
theorem keeps_sound (may : FrameKind → Endpoint → Prop) {Q : List Frame → Prop}
    (hQ : ∀ fs gs, fs <+: gs → Q gs → Q fs) (hP : P.Sound) (h : P.step e = some P')
    (hma : ∀ se kind, Takes e x se → (P.session x).Handling se kind s →
      may kind ((P.session x).endpoint s)) (hca : CallsKeep I x s P e P')
    (hmo : ∀ v v', v.Sound s → I v → Q v'.handled →
      Endpoint.Move (fun kind v => Endpoint.Fresh kind v ∧ may kind v) (P.session x).config s v v' →
        I v') (hI : I ((P.session x).endpoint s)) (hev : Q ((P'.session x).endpoint s).handled) :
    I ((P'.session x).endpoint s) ∧ ((P'.session x).endpoint s).Sound s := by
  have hcs := Pair.step_cases h
  rcases session_step hcs x with hsa | ⟨se, hta, hsp, hp⟩
  · rw [hsa]
    exact ⟨hI, hP.ends x s⟩
  have hsee := hP.linked.seen_of may (fun kind => hma se kind hta)
    (Session.step_cases (hP.linked.joined.sane x) hsp)
  have hqu := hP.quiet_handled (s := s) (hP.linked.joined.step hcs) hp
  refine hsee.keeps_of (I := fun v => I v ∧ v.Sound s) (Q := fun fs => Quiet fs ∧ Q fs)
    (fun fs gs hle hgs => ⟨.of_isPrefix hle hgs.1, hQ fs gs hle hgs.2⟩) ?_ ?_ ⟨hI, hP.ends x s⟩
    ⟨hqu, hev⟩
  · intro r op st he hg hi hcal
    exact ⟨hca se r op st hta he hg hi hcal,
      (hP.ends x s).called (fun _ _ hs => hP.tidy hs) hcal⟩
  · intro v v' hv hq hm
    exact ⟨hmo v v' hv.2 hv.1 hq.2 hm, hv.2.move hq.1 (hm.mono fun _ hma => hma.1)⟩

theorem keeps_of {Q : List Frame → Prop} (hQ : ∀ fs gs, fs <+: gs → Q gs → Q fs) (hP : P.Sound)
    (h : P.step e = some P') (hca : CallsKeep I x s P e P')
    (hmo : ∀ v v', v.Sound s → I v → Q v'.handled →
      Endpoint.Move Endpoint.Fresh (P.session x).config s v v' → I v')
    (hI : I ((P.session x).endpoint s)) (hev : Q ((P'.session x).endpoint s).handled) :
    I ((P'.session x).endpoint s) :=
  (hP.keeps_sound (fun _ _ => True) hQ h (fun _ _ _ _ => trivial) hca
    (fun v v' hv hI hq hm => hmo v v' hv hI hq (hm.mono fun _ hma => hma.1)) hI hev).1

theorem keeps (hP : P.Sound) (h : P.step e = some P') (hca : CallsKeep I x s P e P')
    (hmo : ∀ v v', v.Sound s → I v → Endpoint.Move Endpoint.Fresh (P.session x).config s v v' →
      I v') (hI : I ((P.session x).endpoint s)) : I ((P'.session x).endpoint s) :=
  hP.keeps_of (Q := fun _ => True) (fun _ _ _ _ => trivial) h hca
    (fun v v' hv hI _ hm => hmo v v' hv hI hm) hI trivial

theorem step (hP : P.Sound) (h : P.step e = some P') : P'.Sound where
  linked := hP.linked.step h
  ends := fun _ _ => (hP.keeps_sound (I := fun _ => True) (Q := fun _ => True) (fun _ _ => True)
    (fun _ _ _ _ => trivial) h (fun _ _ _ _ => trivial) (fun _ _ _ _ _ _ _ _ _ => trivial)
    (fun _ _ _ _ _ _ => trivial) trivial trivial).2

end Sound

theorem sound_of_reach (h : Machine.Reach step ok (connect config) P) : P.Sound :=
  h.invariant (sound_connect config) fun _ _ _ hP _ hsp => hP.step hsp

/-! ## Integrity -/

variable {st : NativeStream}

theorem stream_of_handle (hP : P.Linked) {r : Ref} (hg : (P.session x).handles[r]? = some st) :
    ((P.session x).endpoint st.id).stream = some st := (hP.distinct x).streamOf_eq hg

theorem Sound.dataOf_handled_isPrefix (hP : P.Sound) (x : Side) (s : UInt32) :
    dataOf ((P.session x).endpoint s).handled <+: ((P.session x.peer).endpoint s).written := by
  exact (dataOf_isPrefix (hP.linked.joined.handled_isPrefix_peer x s)).trans
    (hP.ends x.peer s).sending.isPrefix

theorem Sound.obtained_isPrefix (hP : P.Sound) (hs : ((P.session x).endpoint s).stream = some st) :
    st.obtained <+: ((P.session x.peer).endpoint s).written.flatten := by
  have hre := (hP.ends x s).receiving.isPrefix
  rw [Endpoint.received_some hs, append_assoc] at hre
  have hha := flatten_isPrefix (hP.dataOf_handled_isPrefix x s)
  exact ((prefix_append ..).trans hre).trans hha

/-- **Stream integrity**: in every run of two sessions, ids name streams at each
side; what a reader was given is the beginning of what the peer's handle of the
stream had accepted, and nothing when there is no such handle; and no DATA of a
stream follows its FIN or RST on the wire. -/
theorem obtained_isPrefix_written (h : Machine.Reach step Machine.Any (connect config) P)
    (x : Side) :
    (∀ (r r' : Ref) (st st' : NativeStream), (P.session x).handles[r]? = some st →
      (P.session x).handles[r']? = some st' → st.id = st'.id → r = r') ∧
    (∀ (r : Ref) (st : NativeStream), (P.session x).handles[r]? = some st →
      (∀ (r' : Ref) (st' : NativeStream), (P.session x.peer).handles[r']? = some st' →
        st'.id = st.id → st.obtained <+: st'.written.flatten) ∧
      (st.obtained ≠ [] → ∃ (r' : Ref) (st' : NativeStream),
        (P.session x.peer).handles[r']? = some st' ∧ st'.id = st.id)) ∧
    (P.session x).transmitted.Pairwise fun f g =>
      f.streamId = g.streamId → f.Closes → g.kind ≠ .data := by
  have hP := sound_of_reach h
  refine ⟨?_, ?_, ?_⟩
  · intro r r' st st' hg hg' hi
    exact (hP.linked.distinct x).unique r r' st st' hg hg' hi
  · intro r st hg
    have hpr := hP.obtained_isPrefix (stream_of_handle hP.linked hg)
    refine ⟨?_, ?_⟩
    · intro r' st' hg' hi
      have hs' := stream_of_handle hP.linked hg'
      rw [hi] at hs'
      simpa [Endpoint.written, hs'] using hpr
    · intro hne
      cases hp : (P.session x.peer).streamOf st.id with
      | none =>
        have hno : ((P.session x.peer).endpoint st.id).stream = none := hp
        simp only [Endpoint.written, hno, map_none, getD_none, flatten_nil, prefix_nil] at hpr
        exact absurd hpr hne
      | some st' =>
        obtain ⟨r', hg', hi⟩ := Session.exists_ref hp
        exact ⟨r', st', hg', hi⟩
  · have hqu : ∀ s, Quiet (framesOf s (P.session x).transmitted) := by
      intro s
      have hpr : (P.session x).transmitted <+: (P.session x).outgoing := prefix_append ..
      exact .of_isPrefix (hpr.filter _) (hP.ends x s).sending.quiet
    rw [pairwise_iff_forall_sublist]
    intro f g hsu hi hclo
    have hfl := hsu.filter fun f' => f'.streamId = f.streamId
    simp only [filter_cons, ← hi] at hfl
    exact (pairwise_iff_forall_sublist.mp (hqu f.streamId)) hfl hclo

def opening : List Event :=
  [.act .client (.openStream .bulk), .act .client .flush, .act .client .select, .act .client .flush,
    .act .client (.transmit 10), .act .client .flush, .act .client .flush, .receive .server,
    .act .server .flush, .act .server .select, .act .server .select, .act .server .resume,
    .act .server .accept, .act .server .flush]

/-- The client opens another stream. -/
def openingAgain : List Event :=
  [.act .client (.openStream .bulk), .act .client .select, .act .client .flush,
    .act .client (.transmit 10), .act .client .flush, .act .client .flush, .receive .server,
    .act .server .select, .act .server .select, .act .server .resume, .act .server .accept,
    .act .server .flush]

/-- The client sends bytes on its stream and the server puts them into the
channel. -/
def sending (bytes : List UInt8) : List Event :=
  [.act .client (.write 0 bytes), .act .client .select, .act .client .flush,
    .act .client (.transmit (9 + bytes.length)), .act .client .flush, .act .client .flush,
    .receive .server, .act .server .select, .act .server .select, .act .server .resume,
    .act .server .flush]

theorem obtained_isPrefix_written_two_bytes :
    ∃ (P : Pair) (st st' : NativeStream), (P.session .server).handles[0]? = some st ∧
      (P.session .client).handles[0]? = some st' ∧ st.obtained = [7, 8] ∧
        st.obtained <+: st'.written.flatten := by
  obtain ⟨P, hrc, hsr, hcn⟩ := Machine.exists_of_run step Machine.Any
    (connect fun _ => {})
    (fun P => (P.session .server).handles[0]?.map (fun st => (st.id, st.obtained)) =
      some (1, [7, 8]) ∧
      (P.session .client).handles[0]?.map (fun st => st.id) = some 1)
    (opening ++ sending [7, 8, 9] ++ [.act .server (.read 0 2)]) (by decide +kernel)
  obtain ⟨st, hg, hs⟩ := map_eq_some_iff.mp hsr
  obtain ⟨st', hg', hi⟩ := map_eq_some_iff.mp hcn
  rw [Prod.mk.injEq] at hs
  have hpr := ((obtained_isPrefix_written hrc .server).2.1 0 st hg).1 0 st' hg'
  exact ⟨P, st, st', hg, hg', hs.2, hpr (hi.trans hs.1.symm)⟩

/-! ## End of stream -/

theorem Sound.at_eof (hP : P.Sound) (hg : (P.session x).handles[r]? = some st)
    (hl : st.rx.live = true) (hcp : 0 < capacity)
    (heo : (P.session x).pollRead r capacity = some (.ready (.ok []), S')) :
    ((P.session x).endpoint st.id).attached = false ∧
      ((P.session x).endpoint st.id).received = st.obtained := by
  have hs := stream_of_handle hP.linked hg
  obtain ⟨st', hg', hrs⟩ := Session.onHandle_eq_some heo
  rw [hg, Option.some.injEq] at hg'
  subst hg'
  obtain ⟨hun, hen⟩ := NativeStream.readLoop_eof hcp hrs.symm
  have hbo : ((P.session x).endpoint st.id).attached = false ∧ ∀ p ∈ st.rx.items, p = [] := by
    rcases hen with hc | ⟨hse, him⟩
    · obtain ⟨hou, hni⟩ := (hP.ends x st.id).atEnd st.rx.items (by simp [Endpoint.tail, hs, hc])
      exact ⟨hou, by simp [hni]⟩
    · refine ⟨?_, him⟩
      simpa [Session.endpoint, Session.senders, (hP.linked.distinct x).lookup_eq_iff hg] using hse
  have har : ((P.session x).endpoint st.id).arriving = none := by
    by_contra hne
    have hin := (hP.ends x st.id).receiving.busy ((Endpoint.alive_some hs).trans hl) hne
    simp [hbo.1] at hin
  refine ⟨hbo.1, ?_⟩
  rw [Endpoint.received_some hs, har, NativeStream.held, hun, flatten_eq_nil_iff.mpr hbo.2]
  simp

/-- **End of stream**: a reader is told that its stream has ended only when its
session has ended, or a FIN or RST of the stream came in and everything that the peer
has sent on it was read.  Without a RST the peer's handle was shut down; and if the
peer's session had not handled a FIN or RST of the stream itself, everything the
peer's handle had accepted was read.  A read never fails. -/
theorem eof_truthful (h : Machine.Reach step Machine.Any (connect config) P) {r : Ref}
    {st : NativeStream} (hg : (P.session x).handles[r]? = some st) (hl : st.rx.live = true)
    {capacity : Nat} (hcp : 0 < capacity) {result : Poll (Except Error (List UInt8))}
    {S' : Session} (hr : (P.session x).pollRead r capacity = some (result, S')) :
    (∀ err, result ≠ .ready (.error err)) ∧
    (result = .ready (.ok []) → (P.session x).Running →
      Closed (framesOf st.id (P.session x).handled) ∧
      st.obtained = (dataOf (framesOf st.id (P.session x.peer).outgoing)).flatten ∧
      (Has .rst (framesOf st.id (P.session x).handled) ∨
        ∃ (r' : Ref) (st' : NativeStream), (P.session x.peer).handles[r']? = some st' ∧
          st'.id = st.id ∧ st'.shutDown = true ∧
            (¬ Closed (framesOf st.id (P.session x.peer).handled) →
              st.obtained = st'.written.flatten))) := by
  have hP := sound_of_reach h
  refine ⟨?_, ?_⟩
  · intro err herr
    obtain ⟨st', -, hrs⟩ := Session.onHandle_eq_some hr
    exact NativeStream.readLoop_ne_error err (hrs.symm.trans herr)
  rintro rfl hru
  have hs := stream_of_handle hP.linked hg
  have hen := hP.ends x st.id
  have hp := hP.ends x.peer st.id
  obtain ⟨hou, hre⟩ := hP.at_eof hg hl hcp hr
  have hss : ((P.session x).endpoint st.id).status = .running := Session.status_eq_running hru
  -- the entry went because of a FIN or RST
  have hc : Closed ((P.session x).endpoint st.id).handled := by
    rcases hen.kept.entry (by simp [hss]) st hs hl with hin | hfw
    · simp [hou] at hin
    · have hfw' := hen.receiving.flow ((Endpoint.flowClosed_some hs).trans hfw)
      exact hfw'.resolve_right (absurd hss)
  have hf := hP.linked.joined.handled_isPrefix_peer x st.id
  have hsn : st.obtained = (dataOf ((P.session x.peer).endpoint st.id).sent).flatten := by
    rw [← dataOf_eq_of_closed hf hc hp.sending.quiet, ← hre]
    exact hen.receiving.whole ((Endpoint.alive_some hs).trans hl) (.inr hc)
  refine ⟨hc, hsn, ?_⟩
  rcases closed_iff.mp hc with hfn | hrt
  · right
    have hfn' := hfn.of_isPrefix hf
    have hdo := hp.ending.fin (.inr hfn')
    obtain ⟨st', hs', hsh⟩ := (any_eq_true _ _).mp hdo
    obtain ⟨r', hg', hi⟩ := Session.exists_ref hs'
    refine ⟨r', st', hg', hi, hsh, ?_⟩
    intro hon
    rw [hsn, hp.ending.flushed hfn' hon]
    simp [Endpoint.written, hs']
  · exact .inl hrt

/-- The client sends what its handle has asked for last, a frame without payload,
and the server handles it. -/
def closing : List Event :=
  [.act .client .select, .act .client .flush, .act .client (.transmit 9), .act .client .flush,
    .act .client .flush, .receive .server, .act .server .select, .act .server .select]

/-- The client drops its handle; the reader is told that the stream has ended,
although it was not shut down and both sessions run. -/
theorem eof_after_drop :
    ∃ P, Machine.Reach step Machine.Any (connect fun _ => {}) P ∧
      (P.session .client).Running ∧ (P.session .server).Running ∧
      (P.session .client).handles[0]?.map (fun st => (st.id, st.shutDown)) = some (1, false) ∧
      (P.session .server).handles[0]?.map (fun st => (st.id, st.obtained)) = some (1, [7]) ∧
      ((P.session .server).pollRead 0 1).map Prod.fst = some (.ready (.ok [])) :=
  Machine.exists_of_run _ _ _ _
    (opening ++ sending [7] ++ [.act .client (.drop 0)] ++ closing ++ [.act .server (.read 0 1)])
    (by decide +kernel)

theorem eof_truthful_after_shutdown :
    ∃ (P : Pair) (st : NativeStream), (P.session .server).handles[0]? = some st ∧
      st.obtained = [7] ∧ (Has .rst (framesOf st.id (P.session .server).handled) ∨
        ∃ (r' : Ref) (st' : NativeStream), (P.session .client).handles[r']? = some st' ∧
          st'.id = st.id ∧ st'.shutDown = true) := by
  obtain ⟨P, hrc, hru, hs, hr⟩ := Machine.exists_of_run step Machine.Any
    (connect fun _ => {})
    (fun P => (P.session .server).Running ∧
      (P.session .server).handles[0]?.map (fun st => (st.obtained, st.rx.live)) = some ([7], true) ∧
      ((P.session .server).pollRead 0 1).map Prod.fst = some (.ready (.ok [])))
    (opening ++ sending [7] ++ [.act .client (.shutdown 0)] ++ closing ++
      [.act .server (.read 0 1)])
    (by decide +kernel)
  obtain ⟨st, hg, hs⟩ := map_eq_some_iff.mp hs
  obtain ⟨⟨_, S'⟩, hr, rfl⟩ := map_eq_some_iff.mp hr
  rw [Prod.mk.injEq] at hs
  obtain ⟨-, -, hp⟩ := (eof_truthful hrc hg hs.2 (by decide) hr).2 rfl hru
  refine ⟨P, st, hg, hs.1, hp.imp_right ?_⟩
  rintro ⟨r', st', hg', hi, hdo, -⟩
  exact ⟨r', st', hg', hi, hdo⟩

end Pair

end Espejismo.Mux
