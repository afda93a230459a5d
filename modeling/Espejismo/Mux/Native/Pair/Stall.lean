import Espejismo.Mux.Native.Buffer
import Espejismo.Mux.Native.Pair.Delivery

/-!
# Mux.Native.Pair.Stall

When a session waits for one reader.  The task of a session puts a payload into
the channel of its stream before it does anything else, and the channel counts
payloads, whatever their size.  So a stream that is not read stops the session
once its peer has written more often than the channel has places, however few
bytes these were; and not before.
-/

namespace Espejismo.Mux

open Binary Relation List Option

namespace NativeStream

variable {st : NativeStream}

theorem Call.length_items_le (h : Call senders st tx op st' tx') :
    st'.rx.items.length ≤ st.rx.items.length := by
  cases h with
  | copied hf | finished hf =>
    cases hf with
    | current => exact Nat.le_refl _
    | next _ _ him =>
      simp only [him, length_append, length_cons]
      omega
  | drained | eof | dropped => exact Nat.zero_le _
  | _ => exact Nat.le_refl _

theorem Call.length_written_le (h : Call senders st tx op st' tx') :
    st'.written.length ≤ st.written.length ∨
      (op = .write ∧ st'.written.length = st.written.length + 1) := by
  cases h with
  | wrote => exact .inr ⟨rfl, by simp⟩
  | copied hf | finished hf => cases hf <;> exact .inl (Nat.le_refl _)
  | _ => exact .inl (Nat.le_refl _)

end NativeStream

namespace Endpoint

variable {s : UInt32} {v : Endpoint} {config : NativeMuxConfig}

def queued (v : Endpoint) : Nat := (v.stream.map fun st => st.rx.items.length).getD 0

theorem queued_touch (v : Endpoint) (g : FlowState → FlowState) :
    ((v.touch g).map fun st : NativeStream => st.rx.items.length).getD 0 = v.queued := by
  rw [queued, map_touch v fun _ => rfl]

/-- Each payload in the channel, and the one on its way to it, came in a frame. -/
def Backed (v : Endpoint) : Prop := v.queued + v.arriving.toList.length ≤ (dataOf v.handled).length

namespace Backed

theorem called (hv : Backed v) (h : Called s tx op v v') : Backed v' := by
  obtain ⟨st, st', tx', added, hs, -, hc, -, rfl⟩ := h.exists_call
  have hle := hc.length_items_le
  simp only [Backed, queued, hs, map_some, getD_some] at hv ⊢
  omega

theorem of_eq (hv : Backed v) (hque : v'.queued = v.queued)
    (ha : v'.arriving = v.arriving ∨ v'.arriving = none) (hha : v.handled <+: v'.handled) :
    Backed v' := by
  have hda := (dataOf_isPrefix hha).length_le
  unfold Backed at hv ⊢
  rcases ha with ha | ha
  · rw [ha]
    omega
  · rw [ha, toList_none, length_nil]
    omega

theorem move (hv : Backed v) (h : Move Fresh config s v v') : Backed v' := by
  cases h with
  | dropped h => exact hv.called h
  | given hs => exact hv.of_eq (by simp [queued, hs]) (.inl rfl) (prefix_refl _)
  | released => exact hv.of_eq (queued_touch ..) (.inl rfl) (prefix_refl _)
  | granted | closed => exact hv.of_eq (queued_touch ..) (.inl rfl) (prefix_append ..)
  | ended => exact hv.of_eq (queued_touch ..) (.inr rfl) (prefix_refl _)
  | opened _ hma | admitted _ _ _ hma =>
    simp [Backed, queued, Session.newStream, (hma rfl).arriving]
  | refused | noted => exact hv.of_eq rfl (.inl rfl) (prefix_append ..)
  | dataTaken _ hki _ ha =>
    simp only [Backed, ha] at hv
    simpa [Backed, queued, dataOf_data hki] using hv
  | delivered hs ha =>
    simp only [Backed, ha, queued, hs] at hv
    simpa [Backed, queued] using hv
  | deliveryFailed | aborted => exact hv.of_eq rfl (.inr rfl) (prefix_refl _)
  | _ => exact hv.of_eq rfl (.inl rfl) (prefix_refl _)

end Backed

end Endpoint

namespace Pair

variable {P : Pair} {e : Pair.Event} {x : Side} {s : UInt32} {config : Side → NativeMuxConfig}

/-- A write on the stream of a side's peer is one of the first that the channel of
the side has places for. -/
def FewWrites (x : Side) (s : UInt32) (P : Pair) (e : Event) : Prop :=
  ∀ r buf st, e = .act x.peer (.write r buf) → (P.session x.peer).handles[r]? = some st →
    st.id = s → st.written.length < (P.session x).config.streamBufferFrames

structure Uncrowded (x : Side) (s : UInt32) (frames : Nat) (P : Pair) : Prop where
  sound : P.Sound
  config_eq : (P.session x).config.streamBufferFrames = frames
  fits : ∀ (r : Ref) (st : NativeStream), (P.session x).handles[r]? = some st → st.Fits frames
  backed : ((P.session x).endpoint s).Backed
  few : ((P.session x.peer).endpoint s).written.length ≤ frames

theorem Uncrowded.step (hP : P.Uncrowded x s frames) (ho : FewWrites x s P e)
    (h : P.step e = some P') : P'.Uncrowded x s frames where
  sound := hP.sound.step h
  config_eq := by
    rcases session_step (Pair.step_cases h) x with hsa | ⟨se, -, hsp, -⟩
    · rw [hsa, hP.config_eq]
    · have hcs := Session.step_cases (hP.sound.linked.joined.sane x) hsp
      rw [Session.config_step hcs, hP.config_eq]
  fits := by
    rcases session_step (Pair.step_cases h) x with hsa | ⟨se, -, hsp, -⟩
    · rw [hsa]
      exact hP.fits
    · have hsn := hP.sound.linked.joined.sane x
      exact Session.fits_step hsn hP.config_eq hP.fits (Session.step_cases hsn hsp)
  backed :=
    hP.sound.keeps h (fun _ _ _ _ _ _ _ _ hc => hP.backed.called hc)
      (fun _ _ _ hv hm => hv.move hm) hP.backed
  few := by
    refine hP.sound.keeps (I := fun v => v.written.length ≤ frames) h ?_ ?_ hP.few
    · intro se r op st ht he hg hi hcl
      have hfe := hP.few
      obtain ⟨st₁, st', tx', added, hs, -, hc, -, hv'⟩ := hcl.exists_call
      rw [hv']
      simp only [Endpoint.written, hs, map_some, getD_some] at hfe ⊢
      rcases hc.length_written_le with hle | ⟨rfl, hone⟩
      · omega
      -- the write is one of the first
      have hs₁ : st = st₁ := by
        have how := stream_of_handle hP.sound.linked hg
        rw [hi, hs, Option.some.injEq] at how
        exact how.symm
      have hlt : st.written.length < frames := by
        rw [← hP.config_eq]
        rcases ht with ⟨rfl, -⟩ | ⟨result, -, rfl⟩
        · cases se with
          | write r' buf =>
            cases he
            exact ho r buf st rfl hg hi
          | _ => cases he
        · cases he
      rw [hs₁] at hlt
      omega
    · intro v v' _ hv hm
      rwa [Endpoint.written_move hm]

theorem uncrowded_of_reach (h : Machine.Reach step (FewWrites x s) (connect config) P) :
    P.Uncrowded x s (sanitizeConfig (config x)).streamBufferFrames := by
  refine h.invariant ?_ fun _ _ _ hP ho hsp => hP.step ho hsp
  have hp := endpoint_connect config x s
  have hp' := endpoint_connect config x.peer s
  obtain ⟨first, hsr, -, -⟩ := connect_session config x
  refine ⟨sound_connect config, ?_, ?_, ?_, ?_⟩
  · rw [hsr]
    rfl
  · simp [hsr, Session.start]
  · simp [Endpoint.Backed, Endpoint.queued, hp.stream, hp.arriving]
  · simp [Endpoint.written, hp'.stream]

/-- **No stall**: while the peer writes on a stream at most as many chunks as the
stream's channel has places, the task of the receiving session never waits for
the reader of the stream, also when nothing is ever read. -/
theorem unread_stream_never_blocks (h : Machine.Reach step (FewWrites x s) (connect config) P)
    {r : Ref} {payload : List UInt8} (hph : (P.session x).phase = .delivering r payload)
    (hi : (P.session x).idOf r = some s) : ∃ S', (P.session x).step .resume = some S' := by
  have hP := uncrowded_of_reach h
  obtain ⟨st, hg, rfl⟩ := map_eq_some_iff.mp hi
  have hs := stream_of_handle hP.sound.linked hg
  have ha : ((P.session x).endpoint st.id).arriving = some payload := by
    change (P.session x).arrivingOf st.id = _
    rw [Session.arrivingOf_delivering hph, if_pos hi]
  have hba := hP.backed
  simp only [Endpoint.Backed, Endpoint.queued, hs, map_some, getD_some, ha,
    toList_some, length_singleton] at hba
  have hda := (hP.sound.dataOf_handled_isPrefix x st.id).length_le
  have hfe := hP.few
  have hft := hP.fits r st hg
  simp only [Session.step, Session.resume, hph, Session.sendPayload, hg]
  by_cases hli : st.rx.live = false
  · rw [if_pos hli]
    exact ⟨_, rfl⟩
  · have hro : st.rx.HasRoom := ⟨by simpa using hli, by rw [hft.capacity]; omega⟩
    rw [if_neg hli, Channel.trySend_of_hasRoom hro]
    exact ⟨_, rfl⟩

/-- Two bytes in two writes stop a session whose channel has one place, although
its window allows for both. -/
theorem unread_stream_blocks_session :
    ∃ P, Machine.Reach step Machine.Any
        (connect fun _ => { initialWindowBytes := 2, streamBufferFrames := 1 }) P ∧
      (P.session .server).phase = .delivering 0 [8] ∧
      (P.session .server).handles[0]?.map (fun st => (st.rx.live, st.held)) = some (true, [7]) ∧
      ((P.session .server).step .resume).isNone = true :=
  Machine.exists_of_run _ _ _ _ (opening ++ sending [7] ++ (sending [8]).take 9) (by decide +kernel)

theorem unread_stream_never_blocks_second :
    ∃ P : Pair, (P.session .server).phase = .delivering 0 [8] ∧
      (P.session .server).handles.map (fun st => (st.id, st.held)) = [(1, [7]), (3, [])] ∧
      ∃ S', (P.session .server).step .resume = some S' := by
  obtain ⟨P, hre, hph, hhe, hi⟩ := Machine.exists_of_run step
    (fun P _ => (P.session .server).config.streamBufferFrames = 3 ∧
      ∀ st ∈ (P.session .client).handles, st.written.length < 3)
    (connect fun _ => { streamBufferFrames := 3 })
    (fun P => (P.session .server).phase = .delivering 0 [8] ∧
      (P.session .server).handles.map (fun st => (st.id, st.held)) = [(1, [7]), (3, [])] ∧
      (P.session .server).idOf 0 = some 1)
    (opening ++ openingAgain ++ sending [7] ++ (sending [8]).take 9) (by decide +kernel)
  have hfe := hre.mono fun P e ho =>
    show FewWrites .server 1 P e from fun r buf st _ hg _ => by
      rw [ho.1]
      exact ho.2 st (mem_of_getElem? hg)
  exact ⟨P, hph, hhe, unread_stream_never_blocks hfe hph hi⟩

end Pair

end Espejismo.Mux
