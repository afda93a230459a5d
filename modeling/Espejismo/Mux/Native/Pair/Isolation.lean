import Espejismo.Mux.Native.Pair.HalfClose

/-!
# Mux.Native.Pair.Isolation

What one stream can do to the others.  A payload for a handle that was dropped
meanwhile ends the session, and with it every stream.  Where each payload finds
its handle (`delivers`), no use of streams ends a session that does not drain,
and what fails on one stream was caused by an end of that stream.
-/

namespace Espejismo.Mux

open Binary Relation List

/-! ## Why a stream was closed -/

namespace Endpoint

variable {s : UInt32} {v : Endpoint} {config : NativeMuxConfig}

def Cause (v : Endpoint) : Prop := v.shut = true ∨ (v.stream = none ∧ v.handled ≠ [])

namespace Cause

theorem called (hv : Cause v) (h : Called s tx op v v') : Cause v' := by
  obtain ⟨st, st', added, hst, rfl, hsn⟩ := h.sends
  rcases hv with hs | ⟨hn, -⟩
  · left
    simp only [shut, hst, Option.any_some] at hs
    cases hsn with
    | data hon => simp [hs] at hon
    | credit _ heq => simp [shut, heq, hs]
    | shut _ _ hl | drop _ hl => exact hl
  · simp [hn] at hst

theorem of_eq (hv : Cause v) (hsta : v'.handleState = v.handleState)
    (hh : v.handled <+: v'.handled) : Cause v' := by
  rcases hv with hs | ⟨hn, hne⟩
  · left
    rw [shut_eq hsta]
    exact hs
  · right
    rw [stream_eq_none_iff hsta]
    refine ⟨hn, fun hni => hne ?_⟩
    exact prefix_nil.mp (hni ▸ hh)

theorem move (hv : Cause v) (h : Move Fresh config s v v') : Cause v' := by
  have hfh : ¬ v.Pristine := by
    intro hp
    rcases hv with hs | ⟨-, hne⟩
    · simp [shut, hp.stream] at hs
    · exact hne hp.handled
  have hh := Session.handled_isPrefix h
  cases h with
  | dropped h => exact hv.called h
  | opened _ hma | admitted _ _ _ hma => exact absurd (hma rfl) hfh
  | given hst | delivered hst => exact hv.of_eq (by simp [handleState, hst]) hh
  | released | granted | closed | ended => exact hv.of_eq (handleState_touch ..) hh
  | _ => exact hv.of_eq rfl hh

end Cause

theorem closed_move (he : Ending s v) (h : Move Fresh config s v v') (hc : Closed v'.sent) :
    Closed v.sent ∨ Cause v' ∨ Closed v'.handled := by
  cases h with
  | dropped h => exact .inl (sent_called h ▸ hc)
  | opened | dataSent => exact .inl (by simpa [Frame.Closes] using hc)
  | @controlSent c f rest hcm hi hf =>
    rw [closed_append] at hc
    rcases hc with hold | hnw
    · exact .inl hold
    have hki : f.kind ≠ .rst ∧ (f.kind = .fin → c = .fin s) := by
      cases c <;> cases hf <;> simp_all [Command.streamId?]
    rcases closed_iff.mp hnw with hfn | hrt
    · have hdo := he.fin (.inl (by simp [hcm, hki.2 (by simpa using hfn)]))
      exact .inr (.inl (.inl (he.down hdo)))
    · exact absurd (by simpa using hrt) hki.1
  | @announced f _ hki =>
    have hne : ¬ Closed [f] := by
      rintro ⟨g, hg, hclo⟩
      rcases hki with h | h <;> rcases hclo with h' | h' <;> simp_all
    exact .inl ((closed_append.mp hc).resolve_right hne)
  | resetSent hcm =>
    have hgo := he.rst (by simp [hcm])
    obtain ⟨st, hst, hbo⟩ := (Option.any_eq_true _ _).mp hgo
    rw [Bool.and_eq_true] at hbo
    exact .inr (.inl (.inl (by simp [shut, hst, hbo.1])))
  | @refused f _ hki hru =>
    by_cases hn : v.stream = none
    · exact .inr (.inl (.inr ⟨hn, by simp⟩))
    rcases hki with ⟨-, hma⟩ | ⟨-, hat⟩
    · exact absurd (hma rfl).stream hn
    rcases he.entry hru hn with hin | hcl | hrs
    · simp [hat] at hin
    · exact .inr (.inr (closed_append.mpr (.inl hcl)))
    · exact .inl (closed_iff.mpr (.inr hrs))
  | _ => exact .inl hc

end Endpoint

namespace Pair

variable {P : Pair} {e : Pair.Event} {x : Side} {s : UInt32} {config : Side → NativeMuxConfig}
  {ok : Pair → Pair.Event → Prop}

/-- A stream that was closed anywhere was closed by one of its handles, or refused. -/
def Caused (s : UInt32) (P : Pair) : Prop :=
  ∀ x, Closed ((P.session x).endpoint s).sent → ∃ y, ((P.session y).endpoint s).Cause

theorem cause_step (hP : P.Sound) (h : P.step e = some P') (x : Side)
    (hc : ((P.session x).endpoint s).Cause) : ((P'.session x).endpoint s).Cause :=
  hP.keeps h (fun _ _ _ _ _ _ _ _ hcal => hc.called hcal) (fun _ _ _ hI hmo => hI.move hmo) hc

theorem Caused.step (hC : P.Caused s) (hP : P.Sound) (h : P.step e = some P') : P'.Caused s := by
  have hke : (∃ y, ((P.session y).endpoint s).Cause) → ∃ y, ((P'.session y).endpoint s).Cause :=
    fun ⟨y, hy⟩ => ⟨y, cause_step hP h y hy⟩
  intro x hcl
  have hcs := Pair.step_cases h
  rcases session_step hcs x with hsa | ⟨se, -, -, hpe⟩
  · exact hke (hC x (hsa ▸ hcl))
  have hfi := (hP.linked.joined.step hcs).handled_isPrefix_peer x s
  rw [hpe] at hfi
  have hiv := hP.keeps_of
    (I := fun v => Closed v.sent → v.Cause ∨ ∃ y, ((P.session y).endpoint s).Cause)
    (Q := fun fs => Closed fs → ∃ y, ((P.session y).endpoint s).Cause)
    (fun fs gs hle hgs hfs => hgs (hfs.of_isPrefix hle)) h ?_ ?_ (fun hc => .inr (hC x hc))
    (fun hc => hC x.peer (hc.of_isPrefix hfi))
  · rcases hiv hcl with how | hold
    · exact ⟨x, how⟩
    · exact hke hold
  · intro se r op st _ _ _ _ hcal hc
    exact .inr (hC x (Endpoint.sent_called hcal ▸ hc))
  · intro v v' hv hI hQ hmo hc
    rcases Endpoint.closed_move hv.ending hmo hc with hold | how | hin
    · exact (hI hold).imp_left fun hca => hca.move hmo
    · exact .inl how
    · exact .inr (hQ hin)

theorem caused_of_reach (h : Machine.Reach step ok (connect config) P) (s : UInt32) :
    P.Caused s := by
  refine h.invariant_of (fun P hr => sound_of_reach hr) ?_ fun P e P' hP hC _ hsp => hC.step hP hsp
  intro x hcl
  simp [(endpoint_connect config x s).sent, Closed] at hcl

end Pair

/-! ## Sessions that go on -/

namespace Session

variable {S S' : Session} {e : Session.Event}

/-- A payload that is put into the channel of a stream finds the handle. -/
def delivers (S : Session) (e : Event) : Bool :=
  match e, S.phase with
  | .resume, .delivering r _ => S.handles[r]?.all fun st => st.rx.live
  | _, _ => true

structure Healthy (S : Session) : Prop where
  running : S.Running
  silent : ∀ err, S.phase ≠ .reporting err
  accepts : S.accepts.live = true
  reader : S.readerDone = false
  frames : ∀ result ∈ S.frames.items, ∃ f : Frame, result = .ok (some f) ∧ f.Proper

theorem drainingSince_queue {pending : PendingFrames}
    (h : (S.queue pending effect).drainingSince = none) : S.drainingSince = none := by
  cases effect with
  | «continue» => exact h
  | startDrain => simp [queue, drainAfter] at h

theorem drainingSince_step (h : Step S e S') (hd : S'.drainingSince = none) :
    S.drainingSince = none := by
  cases h with
  | written =>
    rename_i queuedStream _
    cases queuedStream <;> exact hd
  | idled | openFailed | opened | dataSent | dataDiscarded | controlSent | resetSent | refused
  | pinged | ponged | goneAway =>
    have hn := drainingSince_queue hd
    exact hn
  | _ => exact hd

theorem Healthy.step (hS : S.Healthy) (h : Step S e S') (hw : e ≠ .writeError)
    (hke : e ≠ .dropSession) (hde : S.delivers e = true)
    (har : ∀ result, e = .arrive result → ∃ f : Frame, result = .ok (some f) ∧ f.Proper)
    (hd : S'.drainingSince = none) : S'.Healthy := by
  have ha := hS.accepts
  have hta : ∀ {result : Except Error (Option Frame)} {items : List (Except Error (Option Frame))},
      S.frames.items = result :: items →
        ∀ result ∈ items, ∃ f : Frame, result = .ok (some f) ∧ f.Proper :=
    fun him result hm => hS.frames result (by rw [him]; exact mem_cons_of_mem _ hm)
  have hhe : ∀ {result : Except Error (Option Frame)} {items : List (Except Error (Option Frame))},
      S.frames.items = result :: items → ∃ f : Frame, result = .ok (some f) ∧ f.Proper :=
    fun him => hS.frames _ (by rw [him]; exact mem_cons_self)
  cases h with
  | tick | asked | called | accepted | errorAccepted =>
    exact ⟨hS.running, hS.silent, ha, hS.reader, hS.frames⟩
  | sessionDropped => exact absurd rfl hke
  | stopped _ _ _ hsto =>
    have hn : S.drainingSince = none := hd
    simp [shouldStop, hn] at hsto
  | expired _ _ hso =>
    have hn : S.drainingSince = none := hd
    simp [hn] at hso
  | writeFailed => exact absurd rfl hw
  | written =>
    rename_i queuedStream _
    cases queuedStream <;>
      exact ⟨by simp [Running, releaseSendSlot, modifyFlow],
        by simp [releaseSendSlot, modifyFlow], ha, hS.reader, hS.frames⟩
  | readerEnded _ hfr | readerFailed _ hfr =>
    obtain ⟨f, hf, -⟩ := hhe hfr
    cases hf
  | @rejected _ f _ _ _ hfr hki =>
    obtain ⟨g, hg, hpr⟩ := hhe hfr
    cases hg
    rcases hki with ⟨hk, herr⟩ | ⟨hk, hln⟩ | ⟨hk, hln⟩ | ⟨_, _, hk⟩ <;>
      simp only [Frame.Proper, hk] at hpr
    · obtain ⟨priority, ho⟩ := hpr
      simp [ho] at herr
    · exact absurd hpr hln
    · exact absurd hpr hln
  | acceptFailed _ hgo | aborted hgo | acceptAborted hgo => simp [ha] at hgo
  | deliveryFailed hph hge hgo => simp [delivers, hph, hge, hgo] at hde
  | reported hph => exact absurd hph (hS.silent _)
  | refused _ hfr | admitted _ hfr | dataTaken _ hfr | granted _ hfr
  | closed _ hfr | pinged _ hfr | ponged _ hfr | goneAway _ hfr =>
    exact ⟨⟨by simp [queue], by simp [queue]⟩, by simp [queue], ha, hS.reader, hta hfr⟩
  | arrived =>
    obtain ⟨f, rfl, hpr⟩ := har _ rfl
    refine ⟨hS.running, hS.silent, ha, rfl, ?_⟩
    intro result hm
    simp only [Channel.items_push, mem_append, mem_singleton] at hm
    rcases hm with hm | rfl
    · exact hS.frames result hm
    · exact ⟨f, rfl, hpr⟩
  | _ => exact ⟨⟨by simp [queue], by simp [queue]⟩, by simp [queue], ha, hS.reader, hS.frames⟩

end Session

namespace Pair

variable {P : Pair} {e : Pair.Event} {x : Side} {s : UInt32} {config : Side → NativeMuxConfig}

/-- The network does not fail, no session is dropped, and each payload finds its
handle. -/
def Undisturbed (P : Pair) : Event → Prop
  | .act x se => se ≠ .writeError ∧ se ≠ .dropSession ∧ (P.session x).delivers se = true
  | .cut _ _ => False
  | _ => True

instance (P : Pair) : (e : Event) → Decidable (P.Undisturbed e)
  | .act _ _ => inferInstanceAs (Decidable (_ ∧ _ ∧ _))
  | .cut _ _ => inferInstanceAs (Decidable False)
  | .receive _ | .hangup _ => inferInstanceAs (Decidable True)

def Healthy (P : Pair) : Prop := ∀ x, (P.session x).Healthy ∧ (P.wire x).closed = false

theorem healthy_connect (config : Side → NativeMuxConfig) : (connect config).Healthy := by
  intro x
  obtain ⟨first, hsr, -, -⟩ := connect_session config x
  rw [hsr]
  exact ⟨⟨by simp [Session.Running, Session.start], by simp [Session.start], rfl, rfl,
    by simp [Session.start]⟩, rfl⟩

theorem Healthy.reads (hH : P.Healthy) (hP : P.Joined)
    (hpr : ∀ x, ∀ f ∈ (P.session x).outgoing, f.Proper)
    (hrd : readFrame (P.wire x.peer).closed (P.wire x.peer).bytes = .done result rest) :
    ∃ f : Frame, result = .ok (some f) ∧ f.Proper := by
  have hfi := hP.fifo x.peer
  rw [Side.peer_peer] at hfi
  have hfl := hfi.flowing (hH x).1.reader
  rw [(hH x.peer).2] at hrd
  obtain ⟨sent, hse⟩ := hfi.arrived_isPrefix
  rw [← hse, flatMap_append, prefix_append_right_inj] at hfl
  have hsm : ∀ f ∈ sent, f.payload.length ≤ maxPayload :=
    fun f hf => hfi.small f (hse ▸ mem_append_right _ hf)
  obtain ⟨f, rfl⟩ := readFrame_of_isPrefix hsm hfl hrd
  refine ⟨f, rfl, hpr x.peer f (mem_append_left _ ?_)⟩
  -- the first frame on the wire is the first that was not read
  obtain ⟨hby, hln⟩ := readFrame_eq_frame hrd
  have hft : [f] <+: sent := by
    have hhe : [f].flatMap Frame.encode ++ rest <+: sent.flatMap Frame.encode := by
      simpa [hby] using hfl
    exact isPrefix_of_encode_isPrefix hsm (by simpa using hln) hhe
  rw [← hse]
  exact mem_append_right _ (hft.subset (by simp))

theorem Healthy.step (hH : P.Healthy) (hP : P.Joined)
    (hpr : ∀ x, ∀ f ∈ (P.session x).outgoing, f.Proper) (ho : P.Undisturbed e)
    (h : P.step e = some P') (hd : ∀ x, (P'.session x).drainingSince = none) : P'.Healthy := by
  intro x
  cases Pair.step_cases h with
  | @acted y se S hl hsp =>
    have hS : S.Healthy := by
      refine (hH y).1.step (Session.step_cases (hP.sane y) hsp) ho.1 ho.2.1 ho.2.2 ?_ ?_
      · rintro result rfl
        simp [Session.Event.isLocal] at hl
      · simpa using hd y
    by_cases hx : x = y
    · subst hx
      refine ⟨by simpa using hS, ?_⟩
      simp [Wire.put, (hH x).2]
    · simpa [hx] using hH x
  | @received y result rest S hrd hsp =>
    have hS : S.Healthy := by
      refine (hH y).1.step (Session.step_cases (hP.sane y) hsp) (by simp) (by simp) rfl ?_ ?_
      · rintro result' heq
        cases heq
        exact hH.reads hP hpr hrd
      · simpa using hd y
    have hwi : ∀ z, (Function.update P.wire y.peer { P.wire y.peer with bytes := rest } z).closed =
        false := by
      intro z
      by_cases hz : z = y.peer
      · subst hz
        simp [(hH y.peer).2]
      · simp [hz, (hH z).2]
    by_cases hx : x = y
    · subst hx
      exact ⟨by simpa using hS, hwi x⟩
    · exact ⟨by simpa [hx] using (hH x).1, hwi x⟩
  | @closed y _ w _ _ he =>
    rcases he with ⟨rfl, hsd⟩ | ⟨n, rfl⟩
    · exact absurd (hH y).1.running hsd
    · exact absurd ho id

theorem healthy_of_reach (h : Machine.Reach step Undisturbed (connect config) P)
    (hd : ∀ x, (P.session x).drainingSince = none) : P.Healthy := by
  refine h.invariant_of
    (J := fun P => P.Joined ∧ ∀ x, ∀ f ∈ (P.session x).outgoing, f.Proper)
    (I := fun P => (∀ x, (P.session x).drainingSince = none) → P.Healthy) ?_ ?_ ?_ hd
  · exact fun P hr => ⟨(linked_of_reach hr).joined, proper_of_reach hr⟩
  · exact fun _ => healthy_connect config
  · rintro P e P' ⟨hP, hpr⟩ hI ho hsp hd
    refine (hI fun x => ?_).step hP hpr ho hsp hd
    rcases session_step (Pair.step_cases hsp) x with hsa | ⟨se, -, hsp, -⟩
    · exact hsa ▸ hd x
    · exact Session.drainingSince_step (Session.step_cases (hP.sane x) hsp) (hd x)

/-- **Stream isolation**: while the network holds, no session is dropped and each
payload finds its handle, then as long as neither side drains both sessions go on.
A call that finds room in the command channel fails only as a write on a handle
whose stream was closed at one of its ends, or refused by the peer. -/
theorem streams_isolated (h : Machine.Reach step Undisturbed (connect config) P)
    (hd : ∀ x, (P.session x).drainingSince = none) (x : Side) :
    ((P.session x).Running ∧ ∀ err, (P.session x).phase ≠ .reporting err) ∧
    ∀ (r : Ref) (st : NativeStream), (P.session x).handles[r]? = some st →
      (P.session x).commands.HasRoom →
        (∀ capacity result S', (P.session x).pollRead r capacity = some (result, S') →
          ∀ err, result ≠ .ready (.error err)) ∧
        (∀ result S', (P.session x).pollShutdown r = some (result, S') →
          ∀ err, result ≠ .ready (.error err)) ∧
        (∀ buf err S', (P.session x).pollWrite r buf = some (.ready (.error err), S') →
          st.localClosed = true ∨
          (∃ (r' : Ref) (st' : NativeStream), (P.session x.peer).handles[r']? = some st' ∧
            st'.id = st.id ∧ st'.localClosed = true) ∨
          ((∀ st' ∈ (P.session x.peer).handles, st'.id ≠ st.id) ∧
            framesOf st.id (P.session x.peer).handled ≠ [])) := by
  have hH := healthy_of_reach h hd
  have hP := sound_of_reach h
  refine ⟨⟨(hH x).1.running, (hH x).1.silent⟩, ?_⟩
  intro r st hge hro
  refine ⟨?_, ?_, ?_⟩
  · intro capacity result S' hrd err herr
    obtain ⟨st', -, hre⟩ := Session.onHandle_eq_some hrd
    exact NativeStream.readLoop_ne_error err (hre.symm.trans herr)
  · intro result S' hs err herr
    obtain ⟨st', -, hre⟩ := Session.onHandle_eq_some hs
    rw [hre, NativeStream.pollShutdown] at herr
    simp only [Channel.trySend_of_hasRoom hro] at herr
    split at herr <;> simp at herr
  · intro buf err S' hw
    obtain ⟨st₀, hge₀, hre⟩ := Session.onHandle_eq_some hw
    rw [hge, Option.some.injEq] at hge₀
    subst hge₀
    cases hl : st.localClosed with
    | true => exact .inl rfl
    | false =>
      right
      have hst := stream_of_handle hP.linked hge
      have hfl : st.flow.closed = true := by
        by_contra hon
        exact NativeStream.pollWrite_ne_error hl (by simpa using hon) hro err hre.symm
      have hss : ((P.session x).endpoint st.id).status = .running :=
        Session.status_eq_running (hH x).1.running
      have hcl := (hP.ends x st.id).receiving.flow ((Endpoint.flowClosed_some hst).trans hfl)
      have hfi := hP.linked.joined.handled_isPrefix_peer x st.id
      obtain ⟨y, hca⟩ := caused_of_reach h st.id x.peer
        ((hcl.resolve_right (absurd hss)).of_isPrefix hfi)
      -- this end did not close the stream
      rcases Side.eq_or_eq_peer x y with rfl | rfl
      · rcases hca with hs | ⟨hn, -⟩
        · simp [Endpoint.shut, hst, hl] at hs
        · simp [hn] at hst
      rcases hca with hs | ⟨hn, hne⟩
      · obtain ⟨st', hst', hcl'⟩ := (Option.any_eq_true _ _).mp hs
        obtain ⟨r', hge', hi⟩ := Session.exists_ref hst'
        exact .inl ⟨r', st', hge', hi, hcl'⟩
      refine .inr ⟨?_, hne⟩
      intro st' hm hi
      obtain ⟨r', hge'⟩ := getElem?_of_mem hm
      have hst' := stream_of_handle hP.linked hge'
      rw [hi, hn] at hst'
      cases hst'

/-- The client drops a handle while a payload for it is being delivered: its session
leaves the loop, although nothing drains. -/
theorem dropped_handle_ends_session :
    ∃ P, Machine.Reach step Machine.Any (connect fun _ => {}) P ∧
      (P.session .client).phase = .ended ∧ (P.session .client).drainingSince = none ∧
      (P.session .server).drainingSince = none :=
  Machine.exists_of_run _ _ _ _
    (opening ++
      [.act .server (.write 0 [7]), .act .server .select, .act .server .flush,
        .act .server (.transmit 10), .act .server .flush, .receive .client, .act .client .select,
        .act .client .select, .act .client (.drop 0), .act .client .resume, .act .client .resume])
    (by decide +kernel)

/-- The server drops one of its two streams with a byte on it; its writes on the other
do not fail. -/
theorem streams_isolated_one_dropped :
    ∃ (P : Pair) (st : NativeStream), (P.session .server).handles[1]? = some st ∧
      (P.session .server).handles[0]?.map (fun st => (st.obtained, st.rx.live)) =
        some ([7], false) ∧
      ((P.session .server).Running ∧ ∀ err, (P.session .server).phase ≠ .reporting err) ∧
      ∀ buf err S', (P.session .server).pollWrite 1 buf ≠ some (.ready (.error err), S') := by
  obtain ⟨P, hrc, hd, hro, hdr, hge, hpe, hh⟩ :=
    Machine.exists_of_run step Undisturbed (connect fun _ => {})
      (fun P => (∀ x, (P.session x).drainingSince = none) ∧ (P.session .server).commands.HasRoom ∧
        (P.session .server).handles[0]?.map (fun st => (st.obtained, st.rx.live)) =
          some ([7], false) ∧
        (P.session .server).handles[1]?.map (fun st => (st.id, st.localClosed)) = some (3, false) ∧
        (P.session .client).handles.map (fun st => (st.id, st.localClosed)) =
          [(1, false), (3, false)] ∧
        framesOf 3 (P.session .client).handled = [])
      (opening ++ openingAgain ++ sending [7] ++ [.act .server (.read 0 1), .act .server (.drop 0)])
      (by decide +kernel)
  obtain ⟨st, hst, hbo⟩ := Option.map_eq_some_iff.mp hge
  obtain ⟨hi, hl⟩ := Prod.mk.inj hbo
  have hil := streams_isolated hrc hd .server
  refine ⟨P, st, hst, hdr, hil.1, ?_⟩
  intro buf err S' hw
  -- neither end has shut the other stream down, and the client still has it
  rcases (hil.2 1 st hst hro).2.2 buf err S' hw with
    hs | ⟨r, st', hst', -, hs⟩ | ⟨-, hfr⟩
  · simp [hl] at hs
  · have hm := mem_map_of_mem (f := fun st : NativeStream => (st.id, st.localClosed))
      (mem_of_getElem? hst')
    rw [show Side.server.peer = .client from rfl, hpe] at hm
    simp [hs] at hm
  · exact hfr (by rw [hi]; exact hh)

end Pair

end Espejismo.Mux
