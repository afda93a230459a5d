import Espejismo.Data.Machine
import Espejismo.Mux.Native.Simulation

/-!
# Mux.Native.Table

The table of a session and the handles of its streams.  As long as ids name
streams, a handle that was not dropped has its own entry in the table or its
flow state is closed, a RST is queued only for a handle that was dropped, and a
closed flow state has no parked writer.  This holds whatever the peer sends and
in every way the session's loop can be left, but not when its task is aborted.
-/

namespace Espejismo.Mux

open Binary Relation List

namespace NativeStream

variable {st st' : NativeStream}

namespace Call

theorem flow_closed (h : Call senders st tx op st' tx') : st'.flow.closed = st.flow.closed := by
  cases h with
  | copied hfi | finished hfi => cases hfi <;> rfl
  | _ => rfl

theorem live (h : Call senders st tx op st' tx') (hli : st'.rx.live = true) :
    st.rx.live = true := by
  cases h with
  | copied hfi | finished hfi => cases hfi <;> exact hli
  | dropped => simp at hli
  | _ => exact hli

theorem woken (h : Call senders st tx op st' tx')
    (hw : st.flow.closed = true → st.flow.waker = false) :
    st'.flow.closed = true → st'.flow.waker = false := by
  intro hc
  cases h with
  | parked _ hfl => simp [hfl] at hc
  | writeRefused => rfl
  | copied hfi | finished hfi => cases hfi <;> exact hw hc
  | _ => exact hw hc

theorem rst_mem (h : Call senders st tx op st' tx') {id : UInt32}
    (hm : .rst id ∈ tx'.items) : .rst id ∈ tx.items ∨ st'.rx.live = false := by
  cases h with
  | dropped => exact .inr rfl
  | wrote => exact .inl (by simpa using hm)
  | finished hfi =>
    rename_i st₁
    obtain ⟨sent, heq, hse⟩ :=
      tx.getD_trySend (.windowUpdate st₁.id (UInt32.ofNat st₁.readBuf.length))
    rw [heq] at hm
    rcases hse with ⟨rfl, -⟩ | ⟨rfl, -⟩ <;> exact .inl (by simpa using hm)
  | shut =>
    obtain ⟨sent, heq, hse⟩ := tx.getD_trySend (.fin st.id)
    rw [heq] at hm
    rcases hse with ⟨rfl, -⟩ | ⟨rfl, -⟩ <;> exact .inl (by simpa using hm)
  | _ => exact .inl hm

end Call

end NativeStream

namespace Endpoint

variable {s : UInt32} {v : Endpoint} {config : NativeMuxConfig}

structure Kept (s : UInt32) (v : Endpoint) : Prop where
  absent : v.stream = none → v.commands = [] ∧ v.attached = false
  reset : .rst s ∈ v.commands → ∀ st, v.stream = some st → st.rx.live = false
  entry : v.status ≠ .aborted → ∀ st, v.stream = some st → st.rx.live = true →
    v.attached = true ∨ st.flow.closed = true
  woken : ∀ st, v.stream = some st → st.flow.closed = true → st.flow.waker = false
  stopped : v.status ≠ .running → v.attached = false

theorem touch_eq_some (h : v.touch g = some st') :
    ∃ st, v.stream = some st ∧
      ((v.attached = true ∧ st' = st.mapFlow g) ∨ (v.attached = false ∧ st' = st)) := by
  unfold touch at h
  cases ha : v.attached with
  | true =>
    rw [if_pos ha, Option.map_eq_some_iff] at h
    obtain ⟨st, hst, rfl⟩ := h
    exact ⟨st, hst, .inl ⟨rfl, rfl⟩⟩
  | false =>
    rw [if_neg (by simp [ha])] at h
    exact ⟨st', h, .inr ⟨rfl, rfl⟩⟩

theorem touch_eq_none (h : v.touch g = none) : v.stream = none := by
  unfold touch at h
  split at h
  · simpa using h
  · exact h

theorem Kept.called (hv : Kept s v) (h : Called s tx op v v') : Kept s v' := by
  cases h with
  | mk hst hid htx hca =>
    rename_i st st' tx'
    refine ⟨by simp, ?_, ?_, ?_, hv.stopped⟩
    · rintro hm _ ⟨⟩
      have hm' : .rst s ∈ tx'.items := mem_of_mem_filter hm
      rcases hca.rst_mem hm' with hold | hgo
      · have hrs : .rst s ∈ v.commands := by
          rw [htx, commandsOf, mem_filter]
          exact ⟨hold, by simp [Command.streamId?]⟩
        have hdd := hv.reset hrs st hst
        cases hl : st'.rx.live with
        | false => rfl
        | true => simp [hca.live hl] at hdd
      · exact hgo
    · rintro hss _ ⟨⟩ hli
      rw [hca.flow_closed]
      exact hv.entry hss st hst (hca.live hli)
    · rintro _ ⟨⟩
      exact hca.woken (hv.woken st hst)

theorem Kept.of_eq (hv : Kept s v) (hsr : v'.stream = v.stream)
    (ha : v'.attached = v.attached) (hss : v'.status = v.status)
    (hco : v'.commands <:+ v.commands) : Kept s v' where
  absent := by
    intro hno
    obtain ⟨hni, hde⟩ := hv.absent (hsr ▸ hno)
    exact ⟨by simpa [hni] using hco, by rw [ha, hde]⟩
  reset := by
    rw [hsr]
    exact fun hm => hv.reset (hco.mem hm)
  entry := by
    rw [hsr, ha, hss]
    exact hv.entry
  woken := by
    rw [hsr]
    exact hv.woken
  stopped := by
    rw [hss, ha]
    exact hv.stopped

theorem Kept.replace (hv : Kept s v) (hst : v.stream = some st)
    (hsr : v'.stream = some st') (hli : st'.rx.live = st.rx.live) (hfl : st'.flow = st.flow)
    (ha : v'.attached = v.attached)
    (hss : v'.status = v.status) (hco : v'.commands = v.commands) : Kept s v' where
  absent := by simp [hsr]
  reset := by
    rw [hco, hsr]
    rintro hm _ ⟨⟩
    rw [hli]
    exact hv.reset hm st hst
  entry := by
    rw [hsr, ha, hss]
    rintro hn _ ⟨⟩ hal
    rw [hfl]
    exact hv.entry hn st hst (hli ▸ hal)
  woken := by
    rw [hsr]
    rintro _ ⟨⟩
    rw [hfl]
    exact hv.woken st hst
  stopped := by
    rw [hss, ha]
    exact hv.stopped

theorem Kept.touched (hv : Kept s v) (hsr : v'.stream = v.touch g)
    (hwa : ∀ flow, (g flow).waker = false)
    (ha : v'.attached = v.attached ∨ (v'.attached = false ∧ ∀ flow, (g flow).closed = true))
    (hss : v'.status = v.status ∨ (v.status = .running ∧ v'.attached = false))
    (hco : v'.commands = v.commands ∨ v'.commands = []) : Kept s v' where
  absent := by
    intro hno
    obtain ⟨hni, hde⟩ := hv.absent (touch_eq_none (hsr ▸ hno))
    refine ⟨?_, ?_⟩
    · rcases hco with h | h
      · rw [h, hni]
      · exact h
    · rcases ha with h | h
      · rw [h, hde]
      · exact h.1
  reset := by
    intro hm st' hst'
    obtain ⟨st, hst, h⟩ := touch_eq_some (hsr ▸ hst')
    have hdd : st.rx.live = false := by
      rcases hco with hc | hc
      · exact hv.reset (hc ▸ hm) st hst
      · simp [hc] at hm
    rcases h with ⟨-, rfl⟩ | ⟨-, rfl⟩ <;> exact hdd
  entry := by
    intro hn st' hst' hli
    obtain ⟨st, hst, h⟩ := touch_eq_some (hsr ▸ hst')
    have hn' : v.status ≠ .aborted := by
      rcases hss with h | h
      · rwa [← h]
      · simp [h.1]
    rcases h with ⟨hin, rfl⟩ | ⟨ho, rfl⟩
    · rcases ha with ha | ⟨-, hclo⟩
      · exact .inl (ha ▸ hin)
      · exact .inr (hclo _)
    · rcases hv.entry hn' st' hst hli with hin | hcl
      · simp [ho] at hin
      · exact .inr hcl
  woken := by
    intro st' hst' hcl
    obtain ⟨st, hst, h⟩ := touch_eq_some (hsr ▸ hst')
    rcases h with ⟨-, rfl⟩ | ⟨-, rfl⟩
    · exact hwa _
    · exact hv.woken _ hst hcl
  stopped := by
    intro hn
    rcases hss with h | h
    · rcases ha with ha | ha
      · rw [ha]
        exact hv.stopped (h ▸ hn)
      · exact ha.1
    · exact h.2

theorem Kept.begun (hv : Kept s v) (hnw : v.stream = none)
    (hsr : v'.stream = some (Session.newStream config s priority holder))
    (ha : v'.attached = true) (hco : v'.commands = v.commands)
    (hru : v'.status = .running) : Kept s v' where
  absent := by simp [hsr]
  reset := by simp [hco, (hv.absent hnw).1]
  entry := fun _ _ _ _ => .inl ha
  woken := by
    rw [hsr]
    rintro _ ⟨⟩ _
    rfl
  stopped := fun hn => absurd hru hn

theorem Kept.move (hv : Kept s v) (h : Move may config s v v') : Kept s v' := by
  cases h with
  | dropped h => exact hv.called h
  | given hst | delivered hst => exact hv.replace hst rfl rfl rfl rfl rfl rfl
  | released | granted => exact hv.touched rfl (fun _ => rfl) (.inl rfl) (.inl rfl) (.inl rfl)
  | opened _ _ hnw hru | admitted _ _ _ _ hnw hru => exact hv.begun hnw rfl rfl rfl hru
  | dataSent hc | dataDiscarded hc | controlSent hc =>
    exact hv.of_eq rfl rfl rfl (hc ▸ suffix_cons ..)
  | resetSent hc =>
    have hm : .rst s ∈ v.commands := by simp [hc]
    refine ⟨?_, ?_, ?_, hv.woken, fun _ => rfl⟩
    · intro hno
      simp [(hv.absent hno).1] at hc
    · exact fun _ => hv.reset hm
    · intro _ st hst hli
      simp [hv.reset hm st hst] at hli
  | announced | refused | dataTaken | noted | deliveryFailed =>
    exact hv.of_eq rfl rfl rfl (suffix_refl _)
  | closed =>
    exact hv.touched rfl (fun _ => rfl) (.inr ⟨rfl, fun _ => rfl⟩) (.inl rfl) (.inl rfl)
  | ended hru =>
    exact hv.touched rfl (fun _ => rfl) (.inr ⟨rfl, fun _ => rfl⟩) (.inr ⟨hru, rfl⟩) (.inr rfl)
  | aborted =>
    exact ⟨fun _ => ⟨rfl, rfl⟩, by simp, by simp, hv.woken, fun _ => rfl⟩

end Endpoint

/-! ## Sessions whose ids name streams -/

namespace Session

variable {S S' : Session} {e : Session.Event} {s : UInt32} {first : UInt32}
  {config : NativeMuxConfig}

/-- The state of a session that has accepted no OPEN for an id it knew. -/
structure Named (S : Session) : Prop where
  sane : S.Sane
  distinct : S.Distinct
  kept : ∀ s, (S.endpoint s).Kept s

theorem named_start (first : UInt32) (config : NativeMuxConfig) : (start first config).Named where
  sane := sane_start first config
  distinct := distinct_start first config
  kept := by
    intro s
    refine ⟨?_, ?_, ?_, ?_, ?_⟩
    all_goals simp [endpoint, start, streamOf, Keyed.get]

theorem Named.step (hS : S.Named) (hfr : S.AcceptsFresh e) (h : S.step e = some S') : S'.Named where
  sane := hS.sane.step h
  distinct := hS.distinct.step hfr (step_cases hS.sane h)
  kept := by
    intro s
    have hsn : Seen (fun _ _ => True) S e s (S'.endpoint s) :=
      endpoint_step hS.sane hS.distinct hfr (fun _ _ => trivial) (step_cases hS.sane h)
    exact hsn.keeps (fun _ _ _ _ hv h => hv.called h) (fun _ _ hv h => hv.move h) (hS.kept s)

theorem named_of_reach (h : Machine.Reach step AcceptsFresh (start first config) S) : S.Named :=
  h.invariant (named_start first config) fun _ _ _ hS hfr hsp => hS.step hfr hsp

variable {r : Ref} {st : NativeStream}

theorem Named.entry (hS : S.Named) (hru : S.phase ≠ .aborted) (hg : S.handles[r]? = some st)
    (hli : st.rx.live = true) :
    S.streams.lookup st.id = some r ∨ (st.flow.closed = true ∧ st.flow.waker = false) := by
  have hst : (S.endpoint st.id).stream = some st := hS.distinct.streamOf_eq hg
  have hke := hS.kept st.id
  have hss : (S.endpoint st.id).status ≠ .aborted := by
    change S.status ≠ _
    unfold status
    cases hp : S.phase <;> simp_all
  rcases hke.entry hss st hst hli with ha | hcl
  · left
    rw [hS.distinct.lookup_eq_iff hg]
    simpa [endpoint] using ha
  · exact .inr ⟨hcl, hke.woken st hst hcl⟩

/-! ## OPEN frames -/

theorem open_frame_step (hS : S.Named) (hfr : S.AcceptsFresh .select)
    (hp : S.phase = .polled since) (hf : S.frames.items = .ok (some f) :: items)
    (hon : f.kind = .open) (h : S.step .select = some S') (hg : S.handles[r]? = some st) :
    S'.handles[r]? = some st ∧ S'.streams.lookup st.id = S.streams.lookup st.id := by
  have hcs := step_cases hS.sane h
  cases hcs with
  | asked hc => cases hc
  | called he => cases he
  | admitted hp' hf' hk hdr hfu =>
    rename_i f' _ _ _
    have hnw := (hfr _ _ _ rfl hp' hf' hk hdr hfu).2
    have hlt := (List.getElem?_eq_some_iff.mp hg).1
    have hn : st.id ≠ f'.streamId := by
      intro heq
      rw [← heq, hS.distinct.streamOf_eq hg] at hnw
      contradiction
    refine ⟨?_, AList.lookup_insert_ne hn⟩
    exact (List.getElem?_append_left hlt).trans hg
  | refused | rejected => exact ⟨hg, rfl⟩
  | polled hp' | openFailed hp' | opened hp' | dataSent hp' | dataDiscarded hp'
  | controlSent hp' | resetSent hp' =>
    rw [hp] at hp'
    cases hp'
  | idled _ hf' | expired _ hf' | repolled _ hf' | readerEnded _ hf'
  | readerFailed _ hf' =>
    rw [hf] at hf'
    cases hf'
  | dataTaken _ hf' hk | granted _ hf' hk | pinged _ hf' hk
  | ponged _ hf' hk | goneAway _ hf' hk | closed _ hf' hk =>
    rw [hf] at hf'
    cases hf'
    simp [hon] at hk

/-- **OPEN is safe for new ids**: while every OPEN that is accepted names an id
of the peer that no stream has had, an OPEN changes no stream there is, every
handle that was not dropped has its own entry or was closed and woken, a queued
RST is for a handle that was dropped, and the next local id is free. -/
theorem open_disturbs_no_stream (h : Machine.Reach step AcceptsFresh (start first config) S) :
    (∀ since f items S', S.AcceptsFresh .select → S.phase = .polled since →
      S.frames.items = .ok (some f) :: items → f.kind = .open → S.step .select = some S' →
        ∀ (r : Ref) (st : NativeStream), S.handles[r]? = some st →
          S'.handles[r]? = some st ∧ S'.streams.lookup st.id = S.streams.lookup st.id) ∧
    (S.Running → ∀ (r : Ref) (st : NativeStream), S.handles[r]? = some st → st.rx.live = true →
      S.streams.lookup st.id = some r ∨ (st.flow.closed = true ∧ st.flow.waker = false)) ∧
    (∀ id, .rst id ∈ S.commands.items → ∀ (r : Ref) (st : NativeStream),
      S.handles[r]? = some st → st.id = id → st.rx.live = false) ∧
    ∀ id : UInt32, id.toNat = S.nextStreamId → id ∉ S.streams := by
  have hS := named_of_reach h
  refine ⟨?_, ?_, ?_, ?_⟩
  · intro since f items S' hfr hp hf hon hsp r st hg
    exact open_frame_step hS hfr hp hf hon hsp hg
  · intro hru r st hg hli
    exact hS.entry hru.2 hg hli
  · rintro _ hm r st hg rfl
    refine (hS.kept st.id).reset ?_ st (hS.distinct.streamOf_eq hg)
    exact mem_filter.mpr ⟨hm, by simp [Command.streamId?]⟩
  · intro id hid hm
    have hno : (S.endpoint id).stream = none := hS.distinct.streamOf_next hid
    have ho := ((hS.kept id).absent hno).2
    simp [endpoint, hm] at ho

/-- A second OPEN for the id of a stream takes its entry: the reader of the first
handle, which nobody closed, is told that the stream has ended. -/
theorem duplicate_open_ends_stream :
    ∃ S, Machine.Reach step Machine.Any (serverSession {}) S ∧ S.Running ∧
      S.handles[0]?.map (fun st => (st.id, st.rx.live, st.flow.closed)) = some (1, true, false) ∧
      S.streams.lookup 1 = some 1 ∧
      (S.pollRead 0 1).map Prod.fst = some (.ready (.ok [])) :=
  Machine.exists_of_run _ _ _ _
    [.arrive (.ok (some ⟨.open, 1, []⟩)), .flush, .select, .select, .resume, .accept,
      .arrive (.ok (some ⟨.open, 1, []⟩)), .flush, .select, .select, .resume] (by decide +kernel)

/-- A stream is there, with a byte to read, and the peer opens another one. -/
theorem open_disturbs_no_stream_second : ∃ (S S' : Session) (st : NativeStream),
    S.nextFrame = some ⟨.open, 3, []⟩ ∧ S.step .select = some S' ∧ S'.handles.length = 2 ∧
      S.handles[0]? = some st ∧ st.held = [7] ∧
      S'.handles[0]? = some st ∧ S'.streams.lookup st.id = S.streams.lookup st.id := by
  obtain ⟨S, hre, hnx, hfr, hle, hhe⟩ := Machine.exists_of_run step AcceptsFresh
    (serverSession {})
    (fun S => S.nextFrame = some ⟨.open, 3, []⟩ ∧ S.AcceptsFresh .select ∧
      (S.step .select).map (·.handles.length) = some 2 ∧ S.handles[0]?.map (·.held) = some [7])
    [.arrive (.ok (some ⟨.open, 1, []⟩)), .flush, .select, .select, .resume, .accept,
      .arrive (.ok (some ⟨.data, 1, [7]⟩)), .flush, .select, .select, .resume,
      .arrive (.ok (some ⟨.open, 3, []⟩)), .flush, .select] (by decide +kernel)
  obtain ⟨S', hsp, hle⟩ := Option.map_eq_some_iff.mp hle
  obtain ⟨st, hst, hhe⟩ := Option.map_eq_some_iff.mp hhe
  have hke := fun since f items hp hf hon =>
    (open_disturbs_no_stream hre).1 since f items S' hfr hp hf hon hsp 0 st hst
  exact ⟨S, S', st, hnx, hsp, hle, hst, hhe, forall_nextFrame.mpr hke _ hnx rfl⟩

/-! ## The end of a session -/

theorem phase_ne_aborted (hs : S.Sane) (h : S.step e = some S') (he : e ≠ .abort)
    (hp : S.phase ≠ .aborted) : S'.phase ≠ .aborted := by
  have hcs := step_cases hs h
  cases hcs with
  | aborted | acceptAborted => exact absurd rfl he
  | tick | asked | accepted | errorAccepted | sessionDropped | called | arrived => exact hp
  | written =>
    rename_i queuedStream _
    cases queuedStream <;> simp [releaseSendSlot, modifyFlow]
  | _ => simp [leave, stop, queue]

theorem pollWrite_of_closed (h : st.flow.closed = true) (buf : List UInt8) (tx : Channel Command) :
    (st.pollWrite buf tx).1 ≠ .pending ∧
      (buf ≠ [] → ∃ err, (st.pollWrite buf tx).1 = .ready (.error err)) := by
  unfold NativeStream.pollWrite
  by_cases hlo : st.localClosed = true
  · rw [if_pos hlo]
    exact ⟨by simp, fun _ => ⟨_, rfl⟩⟩
  rw [if_neg hlo]
  by_cases hbu : buf = []
  · rw [if_pos hbu]
    exact ⟨by simp, fun hn => absurd hbu hn⟩
  · rw [if_neg hbu, if_pos h]
    exact ⟨by simp, fun _ => ⟨_, rfl⟩⟩

theorem onHandle_eq_some (h : S.onHandle r call = some (a, S')) :
    ∃ st, S.handles[r]? = some st ∧ a = (call st S.commands).1 := by
  unfold onHandle at h
  cases hg : S.handles[r]? with
  | none => simp [hg] at h
  | some st =>
    simp only [hg] at h
    by_cases hap : st.holder = .application
    · rw [if_pos hap, Option.some.injEq, Prod.mk.injEq] at h
      exact ⟨st, rfl, h.1.symm⟩
    · rw [if_neg hap] at h
      contradiction

/-- **No stranded writer**: when a session has left its loop, every handle that
was not dropped is closed, no writer is parked and no write waits, provided that
every OPEN it accepted named a new id of the peer. -/
theorem left_loop_closes_writers
    (h : Machine.Reach step (fun S e => S.AcceptsFresh e ∧ e ≠ .abort) (start first config) S)
    (hed : ¬ S.Running) {r : Ref} {st : NativeStream} (hg : S.handles[r]? = some st)
    (hli : st.rx.live = true) :
    st.flow.closed = true ∧ st.flow.waker = false ∧
      ∀ buf result S', S.pollWrite r buf = some (result, S') →
        result ≠ .pending ∧ (buf ≠ [] → ∃ err, result = .ready (.error err)) := by
  have hS := named_of_reach (h.mono fun _ _ hok => hok.1)
  have hp : S.phase ≠ .aborted := by
    refine h.invariant_of (J := Session.Sane) (I := fun S => S.phase ≠ .aborted) ?_ ?_ ?_
    · exact fun S hr => (named_of_reach (hr.mono fun _ _ hok => hok.1)).sane
    · simp [start]
    · exact fun S e S' hs hp hok hsp => phase_ne_aborted hs hsp hok.2 hp
  have ho : st.id ∉ S.streams := by
    have hsd := (hS.kept st.id).stopped
    have hss : S.status ≠ .running := by
      have hedd : S.phase = .ended := by
        by_contra hn
        exact hed ⟨hn, hp⟩
      simp [status, hedd]
    simpa [endpoint] using hsd hss
  rcases hS.entry hp hg hli with hen | ⟨hcl, hwo⟩
  · rw [hS.distinct.lookup_eq_iff hg] at hen
    exact absurd hen ho
  refine ⟨hcl, hwo, ?_⟩
  intro buf result S' hwr
  obtain ⟨st', hg', rfl⟩ := onHandle_eq_some hwr
  rw [hg] at hg'
  cases hg'
  exact pollWrite_of_closed hcl buf S.commands

/-- A writer is parked for want of credit when the write of the session fails. -/
theorem left_loop_closes_writers_on_write_error :
    ∃ S₀ S : Session, S₀.handles[0]?.map (·.flow.waker) = some true ∧
      S₀.step .writeError = some S ∧ S.phase = .ended ∧
      ∃ st, S.handles[0]? = some st ∧ st.flow.closed = true ∧ st.flow.waker = false := by
  obtain ⟨S₀, hre, hpa, hfr, hsp⟩ := Machine.exists_of_run step
    (fun S e => S.AcceptsFresh e ∧ e ≠ .abort) (clientSession { initialWindowBytes := 1 })
    (fun S => S.handles[0]?.map (·.flow.waker) = some true ∧ S.AcceptsFresh .writeError ∧
      (S.step .writeError).map (fun S => (S.phase, S.handles[0]?.map (·.rx.live))) =
        some (.ended, some true))
    [.openStream .bulk, .flush, .select, .flush, .transmit 10, .flush, .flush, .write 0 [7],
      .write 0 [8], .select, .flush] (by decide +kernel)
  obtain ⟨S, hsp, hbo⟩ := Option.map_eq_some_iff.mp hsp
  obtain ⟨hp, hli⟩ := Prod.mk.inj hbo
  obtain ⟨st, hg, hli⟩ := Option.map_eq_some_iff.mp hli
  have hed : ¬ S.Running := by simp [Running, hp]
  obtain ⟨hcl, hwo, -⟩ := left_loop_closes_writers (hre.next ⟨hfr, by simp⟩ hsp) hed hg hli
  exact ⟨S₀, S, hpa, hsp, hp, st, hg, hcl, hwo⟩

/-- The session is dropped and its task aborted while a writer is parked: the
writer is not woken and a later write waits. -/
theorem aborted_strands_writer :
    ∃ S, Machine.Reach step Machine.Any (clientSession { initialWindowBytes := 1 }) S ∧
      S.phase = .aborted ∧
      S.handles[0]?.map (fun st => (st.rx.live, st.flow.closed, st.flow.waker)) =
        some (true, false, true) ∧
      (S.pollWrite 0 [8]).map Prod.fst = some .pending :=
  Machine.exists_of_run _ _ _ _
    [.openStream .bulk, .flush, .select, .flush, .transmit 10, .flush, .flush, .write 0 [7],
      .write 0 [8], .dropSession, .abort] (by decide +kernel)

end Session

end Espejismo.Mux
