import Espejismo.Mux.Native.Pair.Delivery

/-!
# Mux.Native.Pair.HalfClose

Writing on after the peer's FIN.  A session that handles a FIN closes the whole
stream: later writes are refused and queued chunks discarded.  Nothing of this is
seen when the FIN is handled after the local handle was closed and all its data was
taken from the command channel (`FinLate`): then no write fails, and every byte
accepted is with the reader or on its way to it.
-/

namespace Espejismo.Mux

open Binary Relation List

namespace Endpoint

variable {s : UInt32} {v : Endpoint} {config : NativeMuxConfig}

/-! ## The end that goes on writing -/

def Finished (v : Endpoint) : Prop := (v.stream ≠ none → v.shut = true) ∧ queuedData v.commands = []

def Late (kind : FrameKind) (v : Endpoint) : Prop := kind = .fin → v.Finished

structure Writing (v : Endpoint) : Prop where
  fin : Has .fin v.handled → v.stream ≠ none → v.shut = true
  detached : v.status = .running → ¬ Has .rst v.handled → v.stream ≠ none → v.attached = false →
    v.shut = true ∧ queuedData v.commands = [] ∧ dataOf v.sent = v.written

namespace Writing

theorem whole (hv : Writing v) (hs : Sending v) (hru : v.status = .running)
    (hrs : ¬ Has .rst v.handled) (hst : v.stream ≠ none) :
    dataOf v.sent ++ queuedData v.commands = v.written := by
  cases ha : v.attached with
  | true => exact hs.whole ha
  | false =>
    obtain ⟨-, hqu, hsn⟩ := hv.detached hru hrs hst ha
    rw [hqu, hsn, append_nil]

theorem called (hv : Writing v) (h : Called s tx op v v') : Writing v' := by
  obtain ⟨st, st', added, hst, rfl, hsd⟩ := h.sends
  have hne : v.stream ≠ none := by simp [hst]
  have hsh : v.shut = st.localClosed := by simp [shut, hst]
  have hsy : st.localClosed = true → st'.localClosed = true := by
    intro hl
    cases hsd with
    | data ho => simp [hl] at ho
    | credit _ heq => rw [heq, hl]
    | shut _ _ hl' | drop _ hl' => exact hl'
  constructor
  · intro hfi _
    exact hsy (hsh ▸ hv.fin hfi hne)
  · intro hru hrs _ ha
    obtain ⟨hcl, hqu, hsn⟩ := hv.detached hru hrs hne ha
    rw [hsh] at hcl
    refine ⟨hsy hcl, ?_, ?_⟩
    · rw [queuedData_append, hqu]
      refine queuedData_eq_nil fun c hc => ?_
      cases hsd with
      | data ho | shut ho => simp [hcl] at ho
      | credit had => rcases had with rfl | ⟨_, rfl⟩ <;> simp_all [Command.IsData]
      | drop had => rcases had with ⟨-, rfl⟩ | ⟨ho, -⟩ <;> simp_all
    · simpa [written, hst, hsd.written_eq hcl] using hsn

theorem of_eq (hv : Writing v) (hsta : v'.handleState = v.handleState)
    (ha : v'.attached = v.attached) (hss : v'.status = .running → v.status = .running)
    (hqu : queuedData v'.commands = queuedData v.commands)
    (hsn : dataOf v'.sent = dataOf v.sent) (hfi : Has .fin v'.handled → Has .fin v.handled)
    (hrs : Has .rst v.handled → Has .rst v'.handled) : Writing v' := by
  constructor
  · intro h hst
    rw [Ne, stream_eq_none_iff hsta] at hst
    rw [shut_eq hsta]
    exact hv.fin (hfi h) hst
  · intro hru hre hst hou
    rw [Ne, stream_eq_none_iff hsta] at hst
    rw [shut_eq hsta, hqu, hsn, written_eq hsta]
    exact hv.detached (hss hru) (fun h => hre (hrs h)) hst (ha ▸ hou)

theorem detach (hv : Writing v) (hs : Sending v)
    (hss : v'.status = .running → v.status = .running) (hsta : v'.handleState = v.handleState)
    (hcl : v.stream ≠ none → v.shut = true) (hqu : queuedData v.commands = [])
    (hqu' : queuedData v'.commands = []) (hsn : dataOf v'.sent = dataOf v.sent)
    (hrs : Has .rst v.handled → Has .rst v'.handled) : Writing v' := by
  constructor
  · intro _ hst
    rw [Ne, stream_eq_none_iff hsta] at hst
    rw [shut_eq hsta]
    exact hcl hst
  · intro hru hre hst _
    rw [Ne, stream_eq_none_iff hsta] at hst
    have hwh := hv.whole hs (hss hru) (fun h => hre (hrs h)) hst
    rw [hqu, append_nil] at hwh
    rw [shut_eq hsta, hsn, hwh, written_eq hsta]
    exact ⟨hcl hst, hqu', rfl⟩

theorem stop (hv : Writing v) (hsta : v'.handleState = v.handleState)
    (hha : v'.handled = v.handled) (hss : v'.status ≠ .running) : Writing v' := by
  constructor
  · intro hfi hst
    rw [Ne, stream_eq_none_iff hsta] at hst
    rw [shut_eq hsta]
    exact hv.fin (hha ▸ hfi) hst
  · exact fun hru => absurd hru hss

theorem begun (ha : v'.attached = true) (hfi : ¬ Has .fin v'.handled) : Writing v' where
  fin := fun h => absurd h hfi
  detached := by simp [ha]

theorem move (hk : Kept s v) (hs : Sending v) (hv : Writing v)
    (h : Move (fun kind v => Fresh kind v ∧ Late kind v) config s v v') : Writing v' := by
  cases h with
  | dropped h => exact hv.called h
  | given hst | delivered hst =>
    exact hv.of_eq (by simp [handleState, hst]) rfl id rfl rfl id id
  | released => exact hv.of_eq (handleState_touch ..) rfl id rfl rfl id id
  | deliveryFailed => exact hv.of_eq rfl rfl id rfl rfl id id
  | opened _ hm => exact begun rfl (by simp [(hm.1 rfl).handled])
  | @admitted f _ _ hki hm =>
    exact begun rfl (by simp [(hm.1 rfl).handled, hki])
  | @dataSent _ _ rest hc ha =>
    refine ⟨hv.fin, ?_⟩
    simp [ha]
  | @dataDiscarded _ _ rest hc ha =>
    have hst : v.stream ≠ none := by
      intro hn
      simp [(hk.absent hn).1] at hc
    refine ⟨hv.fin, ?_⟩
    intro hru hrs _ _
    have hqu := (hv.detached hru hrs hst ha).2.1
    simp [hc, queuedData] at hqu
  | @controlSent c f rest hc hi hf =>
    have hd : f.kind ≠ .data := by cases c <;> cases hf <;> simp
    have hqu : queuedData rest = queuedData v.commands := by
      cases c <;> cases hf <;> simp [hc, queuedData]
    refine hv.of_eq rfl rfl id hqu ?_ id id
    rw [dataOf_append, dataOf_other hd, append_nil]
  | @announced f _ hki =>
    have hd : f.kind ≠ .data := by rcases hki with h | h <;> simp [h]
    refine hv.of_eq rfl rfl id rfl ?_ id id
    rw [dataOf_append, dataOf_other hd, append_nil]
  | @resetSent rest hc =>
    have hsh : v.shut = true := hs.closing ⟨.rst s, by simp [hc], trivial⟩
    have hor := hs.order
    rw [hc, pairwise_cons] at hor
    have hrt : queuedData rest = [] := queuedData_eq_nil fun c hme => hor.1 c hme trivial
    have hqu : queuedData v.commands = [] := by simpa [hc, queuedData] using hrt
    refine hv.detach hs id rfl (fun _ => hsh) hqu hrt ?_ id
    rw [dataOf_append, dataOf_other (by simp), append_nil]
  | @refused f _ hki =>
    have hne : f.kind ≠ .fin ∧ f.kind ≠ .rst := by
      rcases hki with ⟨h, -⟩ | ⟨h, -⟩ <;> simp [h]
    refine hv.of_eq rfl rfl id rfl ?_ (by simp [hne.1]) (by simp +contextual)
    rw [dataOf_append, dataOf_other (by simp), append_nil]
  | @dataTaken f _ hki =>
    exact hv.of_eq rfl rfl id rfl rfl (by simp [hki]) (by simp +contextual)
  | @granted f _ hki =>
    exact hv.of_eq (handleState_touch ..) rfl id rfl rfl (by simp [hki]) (by simp +contextual)
  | @noted f _ _ hcs =>
    exact hv.of_eq rfl rfl id rfl rfl (by simp [hcs.1]) (by simp +contextual)
  | @closed f _ hki hm =>
    rcases hki with hki | hki
    · obtain ⟨hcl, hqu⟩ := hm.2 hki
      exact hv.detach hs id (handleState_touch ..) hcl hqu hqu rfl (by simp +contextual)
    · refine ⟨?_, fun _ hrs => absurd (by simp [hki]) hrs⟩
      intro hfi hst
      have hfi' : Has .fin v.handled := by simpa [hki] using hfi
      refine (Sending.shut_touch v _).trans ?_
      exact hv.fin hfi' fun hn => hst (by simp [touch, hn])
  | ended => exact hv.stop (handleState_touch ..) rfl (by simp)
  | aborted => exact hv.stop rfl rfl (by simp)

theorem pristine (hp : Pristine v) : Writing v where
  fin := by simp [hp.handled]
  detached := fun _ _ hst => absurd hp.stream hst

end Writing

/-! ## The end that goes on reading -/

def Patient (v : Endpoint) : Prop := Has .rst v.sent → v.stream = none ∨ v.alive = false

namespace Patient

theorem of_eq (hv : Patient v) (hsn : Has .rst v'.sent → Has .rst v.sent)
    (hbu : v'.buffer = v.buffer) : Patient v' := by
  intro hrs
  have hn : v'.stream = none ↔ v.stream = none := by
    have h : v'.buffer = none ↔ v.buffer = none := by rw [hbu]
    simpa [buffer] using h
  rw [hn, alive, hbu]
  exact hv (hsn hrs)

theorem called (hv : Patient v) (h : Called s tx op v v') : Patient v' := by
  intro hrs
  obtain ⟨st, st', tx', added, hst, -, hca, -, rfl⟩ := h.exists_call
  rcases hv hrs with hn | hgo
  · simp [hn] at hst
  rw [alive_some hst] at hgo
  rw [alive_some rfl]
  by_contra hli
  simp [hca.live (by simpa using hli)] at hgo

theorem move (hk : Kept s v) (hr : Receiving v) (hv : Patient v) (hq : Quiet v'.handled)
    (h : Move Fresh config s v v') : Patient v' := by
  cases h with
  | dropped h => exact hv.called h
  | given hst => exact hv.of_eq id (by simp [buffer, hst, NativeStream.unread])
  | released | granted | closed | ended => exact hv.of_eq id (buffer_touch ..)
  | opened _ hm | admitted _ _ _ hm =>
    intro hrs
    simp [(hm rfl).sent] at hrs
  | dataSent => exact hv.of_eq (by simp) rfl
  | @controlSent c f _ _ _ hf =>
    have hki : f.kind ≠ .rst := by cases c <;> cases hf <;> simp
    exact hv.of_eq (by simp [hki]) rfl
  | @announced f _ hki =>
    have hne : f.kind ≠ .rst := by rcases hki with h | h <;> simp [h]
    exact hv.of_eq (by simp [hne]) rfl
  | resetSent hc =>
    intro _
    cases hst : v.stream with
    | none => exact .inl rfl
    | some st =>
      right
      exact hk.reset (by simp [hc]) st hst
  | @refused f _ hki hru =>
    intro _
    rcases hki with ⟨-, hm⟩ | ⟨hd, ha⟩
    · exact .inl (hm rfl).stream
    cases hst : v.stream with
    | none => exact .inl rfl
    | some st =>
      rw [alive_some rfl]
      -- the entry of a handle that is there goes with a FIN or RST, and data does not follow
      by_contra hli
      rcases hk.entry (by simp [hru]) st hst (by simpa using hli) with hin | hfl
      · simp [ha] at hin
      · rcases hr.flow ((flowClosed_some hst).trans hfl) with hcl | hsto
        · exact (quiet_concat.mp hq).2 hcl hd
        · exact hsto hru
  | delivered hst =>
    intro hrs
    rcases hv hrs with hn | hgo
    · simp [hn] at hst
    · exact .inr (by simpa [alive, buffer, hst] using hgo)
  | _ => exact hv.of_eq id rfl

end Patient

end Endpoint

/-! ## Every run of a pair -/

theorem NativeStream.pollWrite_ne_error {st : NativeStream}
    (hl : st.localClosed = false) (hfl : st.flow.closed = false)
    (hro : tx.HasRoom) (err : Error) : (st.pollWrite buf tx).1 ≠ .ready (.error err) := by
  unfold pollWrite
  simp only [hl, hfl, Bool.false_eq_true, if_false]
  split
  · simp
  split
  · simp
  split
  · simp
  · simp [Channel.trySend_of_hasRoom hro]

namespace Pair

variable {P : Pair} {e : Pair.Event} {x : Side} {s : UInt32} {config : Side → NativeMuxConfig}
  {ok : Pair → Pair.Event → Prop}

/-- When this side handles a FIN of the stream, its handle of the stream was closed
and no chunk written on it is queued. -/
def FinLate (x : Side) (s : UInt32) (P : Pair) (e : Event) : Prop :=
  ∀ since f items, e = .act x .select → (P.session x).phase = .polled since →
    (P.session x).frames.items = .ok (some f) :: items → f.kind = .fin → f.streamId = s →
      (∀ st ∈ (P.session x).handles, st.id = s → st.localClosed = true) ∧
        queuedData (commandsOf s (P.session x).commands.items) = []

instance : Decidable (FinLate x s P e) :=
  decidable_of_iff (e = .act x .select → ∀ f ∈ (P.session x).nextFrame, f.kind = .fin →
    f.streamId = s → (∀ st ∈ (P.session x).handles, st.id = s → st.localClosed = true) ∧
      queuedData (commandsOf s (P.session x).commands.items) = []) <| by
    rw [Session.forall_nextFrame]
    exact ⟨fun h since f items he => h he since f items, fun h he since f items =>
      h since f items he⟩

theorem writing_of_reach (h : Machine.Reach step (FinLate x s) (connect config) P) :
    ((P.session x).endpoint s).Writing := by
  refine h.invariant_of (J := Sound) (I := fun P => ((P.session x).endpoint s).Writing) ?_ ?_ ?_
  · exact fun P hr => sound_of_reach hr
  · exact .pristine (endpoint_connect config x s)
  intro P e P' hP hI hok hsp
  refine (hP.keeps_sound Endpoint.Late (fun _ _ _ _ => trivial) hsp ?_ ?_ ?_ hI trivial).1
  · rintro se kind hta ⟨rfl, ⟨rfl, -⟩ | ⟨since, f, items, hph, hfr, rfl, hi⟩⟩ hfi
    · cases hfi
    have he : e = .act x .select := by
      rcases hta with ⟨he, -⟩ | ⟨result, -, hse⟩
      · exact he
      · cases hse
    obtain ⟨hcl, hqu⟩ := hok since f items he hph hfr hfi hi
    refine ⟨?_, hqu⟩
    intro hst
    obtain ⟨st, hst⟩ := Option.ne_none_iff_exists'.mp hst
    obtain ⟨r, hg, hi⟩ := Session.exists_ref hst
    simpa [Endpoint.shut, hst] using hcl st (mem_of_getElem? hg) hi
  · exact fun se r op st _ _ _ _ hca => hI.called hca
  · exact fun v v' hv hI _ hmo => hI.move hv.kept hv.sending hmo

theorem patient_of_reach (h : Machine.Reach step ok (connect config) P) (x : Side) (s : UInt32) :
    ((P.session x).endpoint s).Patient := by
  refine h.invariant_of (J := Sound) (I := fun P => ((P.session x).endpoint s).Patient) ?_ ?_ ?_
  · exact fun P hr => sound_of_reach hr
  · intro hrs
    simp [(endpoint_connect config x s).sent] at hrs
  intro P e P' hP hI _ hsp
  rcases session_step (Pair.step_cases hsp) x with hsa | ⟨se, -, -, hpe⟩
  · rwa [hsa]
  refine hP.keeps_of (fun _ _ => Quiet.of_isPrefix) hsp ?_ ?_ hI ?_
  · exact fun se r op st _ _ _ _ hca => hI.called hca
  · exact fun v v' hv hI hq hmo => hI.move hv.kept hv.receiving hq hmo
  · exact hP.quiet_handled (hP.linked.joined.step (Pair.step_cases hsp)) hpe

/-- **Half-close**: in a run in which a side handles a FIN of a stream only when its
own handle was closed and all its data was taken, and as long as the peer keeps its
handle: a write that finds room in the command channel does not fail; what was
accepted was given to the peer's reader or is on its way to it; and the reader sees
the end of the stream only after all of it. -/
theorem halfClose_lossless (h : Machine.Reach step (FinLate x s) (connect config) P) {r r' : Ref}
    {st st' : NativeStream} (hg : (P.session x).handles[r]? = some st) (hi : st.id = s)
    (hg' : (P.session x.peer).handles[r']? = some st') (hi' : st'.id = s)
    (hli : st'.rx.live = true) (hru : ∀ y, (P.session y).Running) :
    (∀ buf result S', st.localClosed = false → (P.session x).commands.HasRoom →
      (P.session x).pollWrite r buf = some (result, S') → ∀ err, result ≠ .ready (.error err)) ∧
    st.written.flatten =
      st'.obtained ++ st'.held ++ ((P.session x.peer).arrivingOf s).getD [] ++
        (dataOf (P.underway x s)).flatten ++
          (queuedData (commandsOf s (P.session x).commands.items)).flatten ∧
    (∀ capacity S', 0 < capacity →
      (P.session x.peer).pollRead r' capacity = some (.ready (.ok []), S') →
        st'.obtained = st.written.flatten) := by
  have hP := sound_of_reach h
  have hst := stream_of_handle hP.linked hg
  have hst' := stream_of_handle hP.linked hg'
  rw [hi] at hst
  rw [hi'] at hst'
  have hen := hP.ends x s
  have hen' := hP.ends x.peer s
  have hw := writing_of_reach h
  have hss : ((P.session x).endpoint s).status = .running := Session.status_eq_running (hru x)
  have hss' : ((P.session x.peer).endpoint s).status = .running :=
    Session.status_eq_running (hru x.peer)
  have hal : ((P.session x.peer).endpoint s).alive = true := (Endpoint.alive_some hst').trans hli
  -- the peer has its handle, so no RST came from it
  have hrs : ¬ Has .rst ((P.session x).endpoint s).handled := by
    intro hre
    have hff := hP.linked.joined.handled_isPrefix_peer x s
    rcases patient_of_reach h x.peer s (hre.of_isPrefix hff) with hn | hgo
    · simp [hn] at hst'
    · simp [hal] at hgo
  have hwh := hw.whole hen.sending hss hrs (by simp [hst])
  have hat : ((P.session x.peer).endpoint s).attached = true ∨
      Closed ((P.session x.peer).endpoint s).handled := by
    refine (hen'.kept.entry (by simp [hss']) st' hst' hli).imp_right fun hfl => ?_
    have hcl := hen'.receiving.flow ((Endpoint.flowClosed_some hst').trans hfl)
    exact hcl.resolve_right (absurd hss')
  have hrc := hen'.receiving.whole hal hat
  rw [Endpoint.received_some hst', hli] at hrc
  have hwr : st.written = ((P.session x).endpoint s).written := by simp [Endpoint.written, hst]
  refine ⟨?_, ?_, ?_⟩
  · intro buf result S' hl hro hwt err
    obtain ⟨st₀, hg₀, hrl⟩ := Session.onHandle_eq_some hwt
    rw [hg, Option.some.injEq] at hg₀
    subst hg₀
    rw [hrl]
    refine NativeStream.pollWrite_ne_error hl ?_ hro err
    by_contra hfl
    have hcl := hen.receiving.flow ((Endpoint.flowClosed_some hst).trans (by simpa using hfl))
    rcases closed_iff.mp (hcl.resolve_right (absurd hss)) with hfi | hre
    · have hsh := hw.fin hfi (by simp [hst])
      simp [Endpoint.shut, hst, hl] at hsh
    · exact hrs hre
  · rw [hwr, ← hwh, sent_eq hP.linked.joined, dataOf_append, flatten_append, flatten_append, ← hrc]
    rfl
  · intro capacity S' hcp hrd
    obtain ⟨hou, hob⟩ := hP.at_eof hg' hli hcp hrd
    rw [hi'] at hou hob
    have hcl := hat.resolve_left (by simp [hou])
    have hff := hP.linked.joined.handled_isPrefix x s
    -- a FIN or RST was sent, so nothing is queued behind it
    have hsn : Closed ((P.session x).endpoint s).sent := hcl.of_isPrefix hff
    have hqu : queuedData ((P.session x).endpoint s).commands = [] := by
      cases ha : ((P.session x).endpoint s).attached with
      | true => exact queuedData_eq_nil (hen.sending.after hsn ha).1
      | false => exact (hw.detached hss hrs (by simp [hst]) ha).2.1
    rw [hqu, append_nil] at hwh
    rw [hwr, ← hwh, ← dataOf_eq_of_closed hff hcl hen.sending.quiet, ← hob]
    exact hen'.receiving.whole hal hat

/-- The client shuts its stream down and keeps it for reading; the server handles
the FIN, and its next write fails although it has credit. -/
theorem write_after_fin_fails :
    ∃ P, Machine.Reach step Machine.Any (connect fun _ => {}) P ∧
      (P.session .client).Running ∧ (P.session .server).Running ∧
      (P.session .client).handles[0]?.map (fun st => (st.id, st.rx.live)) = some (1, true) ∧
      (P.session .server).handles[0]?.map (fun st => (st.id, st.localClosed)) = some (1, false) ∧
      (P.session .server).commands.HasRoom ∧
      ((P.session .server).pollWrite 0 [7]).map Prod.fst =
        some (.ready (.error (.msg "native mux stream closed by peer"))) :=
  Machine.exists_of_run _ _ _ _ (opening ++ [.act .client (.shutdown 0)] ++ closing)
    (by decide +kernel)

/-- The server sends a byte and shuts its handle down; the client gets the byte and
shuts its own down. -/
def replying : List Event :=
  [.act .server (.write 0 [7]), .act .server .select, .act .server .flush,
    .act .server (.transmit 10), .act .server .flush, .act .server .flush, .receive .client,
    .act .client .select, .act .client .select, .act .client .resume, .act .client .flush,
    .act .server (.shutdown 0), .act .server .select, .act .server .flush,
    .act .server (.transmit 9), .act .server .flush, .act .server .flush,
      .act .client (.shutdown 0)]

theorem halfClose_lossless_reply :
    ∃ (P : Pair) (st st' : NativeStream), (P.session .server).handles[0]? = some st ∧
      (P.session .client).handles[0]? = some st' ∧ st'.localClosed = true ∧
      (P.session .server).handled.map (·.kind) = [.open, .fin] ∧ st'.obtained = [7] ∧
      st.written.flatten = st'.obtained ++ st'.held ++ ((P.session .client).arrivingOf 1).getD [] ++
        (dataOf (P.underway .server 1)).flatten ++
          (queuedData (commandsOf 1 (P.session .server).commands.items)).flatten := by
  obtain ⟨P, hrh, hru, hha, hg, hg'⟩ := Machine.exists_of_run step (FinLate .server 1)
    (connect fun _ => {})
    (fun P => (∀ x, (P.session x).Running) ∧
      (P.session .server).handled.map (·.kind) = [.open, .fin] ∧
      (P.session .server).handles[0]?.map (·.id) = some 1 ∧
      (P.session .client).handles[0]?.map (fun st =>
        (st.id, st.rx.live, st.localClosed, st.obtained)) = some (1, true, true, [7]))
    (opening ++ replying ++ closing ++ [.act .client (.read 0 1)]) (by decide +kernel)
  obtain ⟨st, hst, hi⟩ := Option.map_eq_some_iff.mp hg
  obtain ⟨st', hst', hall⟩ := Option.map_eq_some_iff.mp hg'
  simp only [Prod.mk.injEq] at hall
  obtain ⟨hi', hli, hsh, hob⟩ := hall
  refine ⟨P, st, st', hst, hst', hsh, hha, hob, ?_⟩
  exact (halfClose_lossless hrh hst hi hst' hi' hli hru).2.1

end Pair

end Espejismo.Mux
