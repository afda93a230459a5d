import Espejismo.Mux.Native.Integrity

/-!
# Mux.Native.Closing

Why a stream is closed at one side.  A FIN goes out for a handle that was shut
down; a RST for a handle that was dropped without that, for a stream that is not
there, or for one that the peer has closed.  A stream that is there keeps its
entry until one of these frames went out or came in, and a FIN goes out behind
all data unless the peer has closed the stream before (`Ending`).
-/

namespace Espejismo.Mux

open Binary Relation List Option

def Has (kind : FrameKind) (frames : List Frame) : Prop := ∃ f ∈ frames, f.kind = kind

section Frames

variable {kind : FrameKind} {f : Frame}

@[simp] theorem has_append : Has kind (fs ++ gs) ↔ Has kind fs ∨ Has kind gs := by
  simp [Has, or_and_right, exists_or]

@[simp] theorem has_single : Has kind [f] ↔ f.kind = kind := by
  simp [Has]

@[simp] theorem not_has_nil : ¬ Has kind [] := by
  simp [Has]

theorem closed_iff : Closed fs ↔ Has .fin fs ∨ Has .rst fs := by
  constructor
  · rintro ⟨f, hf, hc | hc⟩
    · exact .inl ⟨f, hf, hc⟩
    · exact .inr ⟨f, hf, hc⟩
  · rintro (⟨f, hf, hc⟩ | ⟨f, hf, hc⟩)
    · exact ⟨f, hf, .inl hc⟩
    · exact ⟨f, hf, .inr hc⟩

theorem dataOf_eq_of_closed (h : fs <+: gs) (hc : Closed fs) (hq : Quiet gs) :
    dataOf fs = dataOf gs := by
  obtain ⟨rest, rfl⟩ := h
  obtain ⟨f, hf, hcs⟩ := hc
  have hrs : dataOf rest = [] := by
    refine filterMap_eq_nil_iff.mpr fun g hg => if_neg ?_
    exact (pairwise_append.mp hq).2.2 f hf g hg hcs
  rw [dataOf_append, hrs, append_nil]

theorem Has.of_isPrefix (h : fs <+: gs) (hf : Has kind fs) : Has kind gs := by
  obtain ⟨f, hm, hki⟩ := hf
  exact ⟨f, h.subset hm, hki⟩

theorem Closed.of_isPrefix (h : fs <+: gs) (hf : Closed fs) : Closed gs := by
  obtain ⟨f, hm, hcs⟩ := hf
  exact ⟨f, h.subset hm, hcs⟩

end Frames

namespace NativeStream.Sends

variable {st st' : NativeStream} {tx : Channel Command} {added : List Command} {id : UInt32}

theorem down (h : Sends tx st st' added) (hd : st.shutDown = true → st.localClosed = true) :
    st'.shutDown = true → st'.localClosed = true := by
  cases h with
  | data hl _ hdo =>
    intro h
    rw [hdo] at h
    simp [hd h] at hl
  | credit _ hl hdo =>
    rw [hl, hdo]
    exact hd
  | shut _ _ hl | drop _ hl => exact fun _ => hl

theorem shutDown_of (h : Sends tx st st' added) (hd : st.shutDown = true) :
    st'.shutDown = true := by
  cases h with
  | shut _ _ _ hdo => exact hdo
  | data _ _ hdo | credit _ _ hdo | drop _ _ hdo => rw [hdo, hd]

theorem discarded (h : Sends tx st st' added) (hd : st.localClosed = true ∧ st.shutDown = false) :
    st'.localClosed = true ∧ st'.shutDown = false := by
  cases h with
  | data hl | shut hl => simp [hd.1] at hl
  | credit _ hl hdo => rwa [hl, hdo]
  | drop _ hl hdo => exact ⟨hl, hdo.trans hd.2⟩

theorem fin_mem (h : Sends tx st st' added) (hm : .fin id ∈ added) : st'.shutDown = true := by
  cases h with
  | shut _ _ _ hdo => exact hdo
  | data => simp at hm
  | credit ha => rcases ha with rfl | ⟨_, rfl⟩ <;> simp at hm
  | drop ha => rcases ha with ⟨-, rfl⟩ | ⟨-, rfl | ⟨rfl, -⟩⟩ <;> simp at hm

theorem rst_mem (h : Sends tx st st' added) (hd : st.shutDown = true → st.localClosed = true)
    (hm : .rst id ∈ added) : st'.localClosed = true ∧ st'.shutDown = false := by
  cases h with
  | data => simp at hm
  | credit ha => rcases ha with rfl | ⟨_, rfl⟩ <;> simp at hm
  | shut _ ha => rcases ha with rfl | ⟨rfl, -⟩ <;> simp at hm
  | drop ha hl' hdo =>
    rcases ha with ⟨-, rfl⟩ | ⟨hl, -⟩
    · simp at hm
    · have hup : st.shutDown ≠ true := fun h => by simp [hd h] at hl
      exact ⟨hl', by simpa [hdo] using hup⟩

theorem written_eq (h : Sends tx st st' added) (hl : st.localClosed = true) :
    st'.written = st.written := by
  cases h with
  | data ho => simp [hl] at ho
  | credit _ _ _ hw | shut _ _ _ _ hw | drop _ _ _ hw => exact hw

end NativeStream.Sends

namespace Endpoint

variable {s : UInt32} {v v' : Endpoint} {tx : Channel Command} {op : NativeStream.Op}

def shutDown (v : Endpoint) : Bool := v.stream.any NativeStream.shutDown

def discarded (v : Endpoint) : Bool := v.stream.any fun st => st.localClosed && !st.shutDown

structure Ending (s : UInt32) (v : Endpoint) : Prop where
  down : v.shutDown = true → v.shut = true
  fin : .fin s ∈ v.commands ∨ Has .fin v.sent → v.shutDown = true
  rst : .rst s ∈ v.commands → v.discarded = true
  reset : Has .rst v.sent → v.stream = none ∨ v.discarded = true ∨ Closed v.handled
  entry : v.status = .running → v.stream ≠ none →
    v.attached = true ∨ Closed v.handled ∨ Has .rst v.sent
  flushed : Has .fin v.sent → ¬ Closed v.handled → dataOf v.sent = v.written

def handleState (v : Endpoint) : Option (Bool × Bool × List (List UInt8)) :=
  v.stream.map fun st => (st.localClosed, st.shutDown, st.written)

theorem handleState_touch (v : Endpoint) (g : FlowState → FlowState) :
    ((v.touch g).map fun st : NativeStream => (st.localClosed, st.shutDown, st.written)) =
      v.handleState := by
  rw [handleState, map_touch v fun _ => rfl]

section HandleState

variable (h : v'.handleState = v.handleState)
include h

theorem stream_eq_none_iff : v'.stream = none ↔ v.stream = none := by
  have hn := iff_of_eq (congrArg (· = none) h)
  simpa only [handleState, map_eq_none_iff] using hn

theorem shut_eq : v'.shut = v.shut := by
  have han := congrArg (Option.any fun state => state.1) h
  simpa only [shut, handleState, Option.any_map] using han

theorem shutDown_eq : v'.shutDown = v.shutDown := by
  have han := congrArg (Option.any fun state => state.2.1) h
  simpa only [shutDown, handleState, Option.any_map] using han

theorem discarded_eq : v'.discarded = v.discarded := by
  have han := congrArg (Option.any fun state => state.1 && !state.2.1) h
  simpa only [discarded, handleState, Option.any_map] using han

theorem written_eq : v'.written = v.written := by
  have hmp := congrArg (fun state => (state.map fun state => state.2.2).getD []) h
  simp only [handleState, Option.map_map] at hmp
  exact hmp

end HandleState

namespace Ending

theorem of_eq (hv : Ending s v) (hs : v'.handleState = v.handleState)
    (hco : ∀ c ∈ v'.commands, c ∈ v.commands) (hse : v.sent <+: v'.sent)
    (hh : v.handled <+: v'.handled)
    (hfi : Has .fin v'.sent → Has .fin v.sent ∨ .fin s ∈ v.commands) (hrt : Has .rst v'.sent →
      Has .rst v.sent ∨ v.stream = none ∨ v.discarded = true ∨ Closed v.handled)
    (hen : v'.status = .running → v.status = .running)
    (hat : v'.status = .running → v.attached = true →
      v'.attached = true ∨ Closed v'.handled ∨ Has .rst v'.sent)
    (hda : Has .fin v'.sent → ¬ Closed v'.handled → dataOf v'.sent = v.written) :
    Ending s v' := by
  have hn := stream_eq_none_iff hs
  have hdi := discarded_eq hs
  constructor
  · rw [shutDown_eq hs, shut_eq hs]
    exact hv.down
  · rw [shutDown_eq hs]
    rintro (hm | hm)
    · exact hv.fin (.inl (hco _ hm))
    · exact hv.fin (hfi hm).symm
  · rw [hdi]
    exact fun hm => hv.rst (hco _ hm)
  · rw [hn, hdi]
    intro hre
    rcases hrt hre with hold | hsr | hgo | hcl
    · rcases hv.reset hold with hsr | hgo | hcl
      · exact .inl hsr
      · exact .inr (.inl hgo)
      · exact .inr (.inr (hcl.of_isPrefix hh))
    · exact .inl hsr
    · exact .inr (.inl hgo)
    · exact .inr (.inr (hcl.of_isPrefix hh))
  · rw [Ne, hn]
    intro hru hsr
    rcases hv.entry (hen hru) hsr with hin | hcl | hre
    · exact hat hru hin
    · exact .inr (.inl (hcl.of_isPrefix hh))
    · exact .inr (.inr (hre.of_isPrefix hse))
  · rw [written_eq hs]
    exact hda

theorem same (hv : Ending s v) (hs : v'.handleState = v.handleState)
    (hco : v'.commands = v.commands) (hse : v'.sent = v.sent)
    (hh : v'.handled = v.handled) (hss : v'.status = v.status)
    (hat : v'.attached = v.attached) : Ending s v' := by
  refine hv.of_eq hs (by simp [hco]) (hse ▸ prefix_refl _)
    (hh ▸ prefix_refl _) ?_ ?_ (by simp [hss]) ?_ ?_
  · exact fun h => .inl (hse ▸ h)
  · exact fun h => .inl (hse ▸ h)
  · exact fun _ hin => .inl (hat ▸ hin)
  · rw [hse, hh]
    exact hv.flushed

theorem called (hv : Ending s v) (h : Called s tx op v v') : Ending s v' := by
  obtain ⟨st, st', added, hst, rfl, hsn⟩ := h.sends
  have hs := hv.down
  simp only [shutDown, shut, hst, any_some] at hs
  have hsh : v.shutDown = st.shutDown := by simp [shutDown, hst]
  have hdi : v.discarded = (st.localClosed && !st.shutDown) := by simp [discarded, hst]
  have hke : v.discarded = true → (st'.localClosed && !st'.shutDown) = true := by
    rw [hdi]
    intro hgo
    simpa using hsn.discarded (by simpa using hgo)
  constructor
  · exact hsn.down hs
  · rw [mem_append]
    rintro ((hm | hm) | hm)
    · exact hsn.shutDown_of (hsh ▸ hv.fin (.inl hm))
    · exact hsn.fin_mem hm
    · exact hsn.shutDown_of (hsh ▸ hv.fin (.inr hm))
  · rw [mem_append]
    rintro (hm | hm)
    · exact hke (hv.rst hm)
    · simpa [discarded] using hsn.rst_mem hs hm
  · intro hre
    rcases hv.reset hre with hn | hgo | hcl
    · simp [hn] at hst
    · exact .inr (.inl (hke hgo))
    · exact .inr (.inr hcl)
  · exact fun hru _ => hv.entry hru (by simp [hst])
  · intro hfi ho
    have hcl : st.localClosed = true := hs (hsh ▸ hv.fin (.inr hfi))
    have hwr := hv.flushed hfi ho
    simp only [written, hst] at hwr
    simpa [written, hsn.written_eq hcl] using hwr

theorem note (hv : Ending s v) (hs : v'.handleState = v.handleState)
    (hco : v'.commands = v.commands) (hse : v'.sent = v.sent)
    (hh : v'.handled = v.handled ++ [f]) (hss : v'.status = v.status)
    (hat : v.attached = true → v'.attached = true ∨ f.Closes) : Ending s v' := by
  refine hv.of_eq hs (by simp [hco]) (hse ▸ prefix_refl _)
    (hh ▸ prefix_append ..) ?_ ?_ (by simp [hss]) ?_ ?_
  · exact fun h => .inl (hse ▸ h)
  · exact fun h => .inl (hse ▸ h)
  · intro _ hin
    rcases hat hin with hin' | hcs
    · exact .inl hin'
    · exact .inr (.inl (by simp [hh, hcs]))
  · rw [hse, hh]
    exact fun hfi ho => hv.flushed hfi fun hc => ho (closed_append.mpr (.inl hc))

theorem stop (hv : Ending s v) (hs : v'.handleState = v.handleState)
    (hco : v'.commands = []) (hse : v'.sent = v.sent) (hh : v'.handled = v.handled)
    (hss : v'.status ≠ .running) : Ending s v' := by
  refine hv.of_eq hs (by simp [hco]) (hse ▸ prefix_refl _)
    (hh ▸ prefix_refl _) ?_ ?_ (fun h => absurd h hss) (fun h => absurd h hss) ?_
  · exact fun h => .inl (hse ▸ h)
  · exact fun h => .inl (hse ▸ h)
  · rw [hse, hh]
    exact hv.flushed

theorem begun (hsr : v'.stream = some (Session.newStream config s priority holder))
    (hco : v'.commands = []) (hat : v'.attached = true)
    (hse : ∀ f ∈ v'.sent, f.kind = .open) : Ending s v' := by
  have hn : ∀ kind, kind ≠ .open → ¬ Has kind v'.sent := by
    rintro kind hne ⟨f, hf, hki⟩
    exact hne (hki.symm.trans (hse f hf))
  constructor
  · simp [shutDown, hsr, Session.newStream]
  · simp [hco, hn]
  · simp [hco]
  · exact fun hre => absurd hre (hn _ (by simp))
  · exact fun _ _ => .inl hat
  · exact fun hfi => absurd hfi (hn _ (by simp))

theorem flushed_of_fin (hk : Kept s v) (hsd : Sending v) (hv : Ending s v)
    (hc : v.commands = .fin s :: rest) (hru : v.status = .running) (ho : ¬ Closed v.handled) :
    dataOf v.sent = v.written := by
  have hsr : v.stream ≠ none := by
    intro hn
    simp [(hk.absent hn).1] at hc
  have hdo : v.shutDown = true := hv.fin (.inl (by simp [hc]))
  have hkp : v.discarded ≠ true := by
    obtain ⟨st, hst⟩ := ne_none_iff_exists'.mp hsr
    simp only [shutDown, hst, any_some] at hdo
    simp [discarded, hst, hdo]
  have hat : v.attached = true := by
    rcases hv.entry hru hsr with hin | hcl | hre
    · exact hin
    · exact absurd hcl ho
    · rcases hv.reset hre with hn | hgo | hcl
      · exact absurd hn hsr
      · exact absurd hgo hkp
      · exact absurd hcl ho
  have hor := hsd.order
  rw [hc, pairwise_cons] at hor
  have hwh := hsd.whole hat
  have hqu : queuedData v.commands = [] := by
    refine queuedData_eq_nil fun c hm => ?_
    rw [hc, mem_cons] at hm
    rcases hm with rfl | hm
    · exact fun h => h
    · exact hor.1 c hm trivial
  rwa [hqu, append_nil] at hwh

theorem move (hk : Kept s v) (hsd : Sending v) (hv : Ending s v) (h : Move Fresh config s v v') :
    Ending s v' := by
  cases h with
  | dropped h => exact hv.called h
  | given hst | delivered hst => exact hv.same (by simp [handleState, hst]) rfl rfl rfl rfl rfl
  | released => exact hv.same (handleState_touch ..) rfl rfl rfl rfl rfl
  | deliveryFailed => exact hv.same rfl rfl rfl rfl rfl rfl
  | opened _ hma | admitted _ _ _ hma =>
    exact begun rfl (hma rfl).commands rfl (by simp [(hma rfl).sent])
  | dataDiscarded hc =>
    refine hv.of_eq rfl (by simp +contextual [hc]) (prefix_refl _) (prefix_refl _) .inl .inl
      (fun h => h) (fun _ => .inl) hv.flushed
  | dataSent hc hat =>
    rename_i priority payload rest
    refine hv.of_eq rfl (by simp +contextual [hc]) (prefix_append ..) (prefix_refl _) ?_ ?_
      (fun h => h) (fun _ => .inl) ?_
    · simp +contextual
    · simp +contextual
    · -- data goes out before the FIN
      simp only [has_append, has_single, reduceCtorEq, or_false]
      intro hfi
      have hm : .data s priority payload ∈ v.commands := by simp [hc]
      exact absurd trivial ((hsd.after (closed_iff.mpr (.inl hfi)) hat).1 _ hm)
  | @controlSent c f rest hc hid hf hru =>
    have hki : f.kind ≠ .rst ∧ (f.kind = .fin → c = .fin s) := by
      cases c <;> cases hf <;> simp_all [Command.streamId?]
    refine hv.of_eq rfl (by simp +contextual [hc]) (prefix_append ..) (prefix_refl _) ?_ ?_
      (fun h => h) (fun _ => .inl) ?_
    · simp only [has_append, has_single]
      exact Or.imp_right fun h => by simp [hc, hki.2 h]
    · simp only [has_append, has_single, hki.1, or_false]
      exact .inl
    · intro hfi ho
      have hda : f.kind ≠ .data := by cases c <;> cases hf <;> simp
      rw [dataOf_append, dataOf_other hda, append_nil]
      rw [has_append, has_single] at hfi
      rcases hfi with hfi | hfi
      · exact hv.flushed hfi ho
      · exact flushed_of_fin hk hsd hv (hki.2 hfi ▸ hc) hru ho
  | @announced f _ hki =>
    have hne : f.kind ≠ .fin ∧ f.kind ≠ .rst ∧ f.kind ≠ .data := by
      rcases hki with h | h <;> simp [h]
    refine hv.of_eq rfl (fun _ h => h) (prefix_append ..) (prefix_refl _) ?_ ?_
      (fun h => h) (fun _ => .inl) ?_
    · simp only [has_append, has_single, hne.1, or_false]
      exact .inl
    · simp only [has_append, has_single, hne.2.1, or_false]
      exact .inl
    · simp only [has_append, has_single, hne.1, or_false, dataOf_append, dataOf_other hne.2.2,
        append_nil]
      exact hv.flushed
  | resetSent hc =>
    have hgo := hv.rst (by simp [hc])
    refine hv.of_eq rfl (by simp +contextual [hc]) (prefix_append ..) (prefix_refl _) ?_
      (fun _ => .inr (.inr (.inl hgo))) (fun h => h) (fun _ _ => .inr (.inr (by simp))) ?_
    · simp +contextual
    · rw [dataOf_append, dataOf_other (by simp)]
      simpa using hv.flushed
  | @refused f _ hki hru =>
    refine hv.of_eq rfl (fun _ h => h) (prefix_append ..) (prefix_append ..) ?_ ?_
      (fun h => h) (fun _ _ => .inr (.inr (by simp))) ?_
    · simp +contextual
    · intro _
      rcases hki with ⟨-, hma⟩ | ⟨-, hat⟩
      · exact .inr (.inl (hma rfl).stream)
      by_cases hn : v.stream = none
      · exact .inr (.inl hn)
      rcases hv.entry hru hn with hin | hcl | hre
      · simp [hat] at hin
      · exact .inr (.inr (.inr hcl))
      · exact .inl hre
    · rw [dataOf_append, dataOf_other (by simp), append_nil]
      simp only [has_append, has_single, reduceCtorEq, or_false]
      exact fun hfi ho => hv.flushed hfi fun hc => ho (closed_append.mpr (.inl hc))
  | dataTaken | noted => exact hv.note rfl rfl rfl rfl rfl .inl
  | granted => exact hv.note (handleState_touch ..) rfl rfl rfl rfl .inl
  | closed _ hki => exact hv.note (handleState_touch ..) rfl rfl rfl rfl fun _ => .inr hki
  | ended => exact hv.stop (handleState_touch ..) rfl rfl rfl (by simp)
  | aborted => exact hv.stop rfl rfl rfl rfl (by simp)

end Ending

/-! ## End of stream -/

/-- The end the reader has seen, and what is in the channel. -/
def tail (v : Endpoint) : Option (Bool × List (List UInt8)) :=
  v.stream.map fun st => (st.remoteClosed, st.rx.items)

theorem tail_touch (v : Endpoint) (g : FlowState → FlowState) :
    ((v.touch g).map fun st : NativeStream => (st.remoteClosed, st.rx.items)) = v.tail := by
  rw [tail, map_touch v fun _ => rfl]

/-- A reader sees the end of a stream that is not in the table any more, and
nothing comes after it. -/
def AtEnd (v : Endpoint) : Prop :=
  ∀ items, v.tail = some (true, items) → v.attached = false ∧ items = []

namespace AtEnd

theorem of_eq (hv : AtEnd v) (hta : v'.tail = v.tail)
    (hat : v'.attached = true → v.attached = true) : AtEnd v' := by
  intro items hi
  obtain ⟨hou, hni⟩ := hv items (hta ▸ hi)
  refine ⟨?_, hni⟩
  cases hin : v'.attached with
  | false => rfl
  | true => simp [hat hin] at hou

theorem called (hv : AtEnd v) (h : Called s tx op v v') : AtEnd v' := by
  cases h with
  | @mk st st' tx' hst _ _ hcal =>
    have hold : st.remoteClosed = true → v.attached = false ∧ st.rx.items = [] := by
      intro hcl
      exact hv st.rx.items (by simp [tail, hst, hcl])
    intro items hi
    simp only [tail, map_some, Option.some.injEq, Prod.mk.injEq] at hi
    obtain ⟨hcl, rfl⟩ := hi
    cases hcal with
    | copied hfl | finished hfl =>
      cases hfl with
      | current => exact hold hcl
      | next _ ho => simp [ho] at hcl
    | eof _ _ _ hsen => exact ⟨hsen, rfl⟩
    | drained ho => simp [ho] at hcl
    | dropped => exact ⟨(hold hcl).1, rfl⟩
    | _ => exact hold hcl

theorem move (hr : Receiving v) (hv : AtEnd v) (h : Move Fresh config s v v') : AtEnd v' := by
  cases h with
  | dropped h => exact hv.called h
  | given hst => exact hv.of_eq (by simp [tail, hst]) fun h => h
  | released | granted => exact hv.of_eq (tail_touch ..) fun h => h
  | opened | admitted =>
    rintro items hi
    simp [tail, Session.newStream] at hi
  | closed | ended => exact hv.of_eq (tail_touch ..) (by simp)
  | resetSent | aborted => exact hv.of_eq rfl (by simp)
  | delivered hst har hro =>
    -- what is delivered is for a stream in the table
    intro items hi
    simp only [tail, map_some, Option.some.injEq, Prod.mk.injEq] at hi
    have hin := hr.busy ((alive_some hst).trans hro.1) (by simp [har])
    have hou := (hv _ (by rw [tail, hst, map_some, hi.1])).1
    simp [hin] at hou
  | _ => exact hv.of_eq rfl fun h => h

end AtEnd

/-! ## All of it -/

/-- One end of a stream whose peer sends no data after its FIN or RST. -/
structure Sound (s : UInt32) (v : Endpoint) : Prop where
  kept : Kept s v
  sending : Sending v
  receiving : Receiving v
  ending : Ending s v
  atEnd : AtEnd v

namespace Sound

theorem pristine (hp : Pristine v) : Sound s v := by
  have hbu : v.buffer = none := by simp [buffer, hp.stream]
  constructor
  · constructor
    · exact fun _ => ⟨hp.commands, hp.attached⟩
    · simp [hp.commands]
    · simp [hp.stream]
    · simp [hp.stream]
    · exact fun _ => hp.attached
  · exact .begun hp.commands (by simp [written, hp.stream]) (by simp [hp.sent])
  · constructor
    · simp [received, hbu]
    · simp [alive, hbu]
    · simp [hp.arriving]
    · simp [hbu]
    · simp [hp.handled, Closed]
    · simp [flowClosed, hp.stream]
  · constructor
    · simp [shutDown, hp.stream]
    · simp [hp.commands, hp.sent]
    · simp [hp.commands]
    · exact fun _ => .inl hp.stream
    · exact fun _ hne => absurd hp.stream hne
    · simp [hp.sent]
  · simp [AtEnd, tail, hp.stream]

theorem called (hv : Sound s v) (ht : op ≠ .drop → ∀ st, v.stream = some st → st.Tidy)
    (h : Called s tx op v v') : Sound s v' :=
  ⟨hv.kept.called h, hv.sending.called h, hv.receiving.called ht h, hv.ending.called h,
    hv.atEnd.called h⟩

theorem move (hv : Sound s v) (hq : Quiet v'.handled) (h : Move Fresh config s v v') : Sound s v' :=
  ⟨hv.kept.move h, hv.sending.move h, .move hv.kept hv.receiving hq h,
    .move hv.kept hv.sending hv.ending h, .move hv.receiving hv.atEnd h⟩

end Sound

end Endpoint

/-! ## What a read reports -/

namespace NativeStream

variable {st st' : NativeStream} {tx : Channel Command}

theorem copyOut_ne_nil (hca : 0 < capacity) (hne : st.unread ≠ []) :
    (st.copyOut capacity tx).1 ≠ .ready (.ok []) := by
  have hpos : 0 < st.unread.length := length_pos_iff.mpr hne
  have hby : st.unread.take (min st.unread.length capacity) ≠ [] := by
    rw [← length_pos_iff, length_take]
    omega
  unfold copyOut
  simp only
  split <;> simpa using hby

theorem copyOut_ne_error (err : Error) : (st.copyOut capacity tx).1 ≠ .ready (.error err) := by
  unfold copyOut
  simp only
  split <;> simp

theorem readLoop_eof (hca : 0 < capacity)
    (h : (readLoop capacity senders tx queue st).1 = .ready (.ok [])) :
    st.unread = [] ∧ (st.remoteClosed = true ∨ (senders = false ∧ ∀ p ∈ queue, p = [])) := by
  induction queue generalizing st with
  | nil =>
    by_cases hcu : st.readOffset < st.readBuf.length
    · rw [readLoop_current hcu] at h
      exact absurd h (copyOut_ne_nil hca (by simpa [unread] using hcu))
    refine ⟨drop_eq_nil_iff.mpr (by omega), ?_⟩
    cases ho : st.remoteClosed with
    | true => exact .inl rfl
    | false =>
      rw [readLoop_nil hcu ho] at h
      cases senders <;> simp_all
  | cons payload queue ih =>
    by_cases hcu : st.readOffset < st.readBuf.length
    · rw [readLoop_current hcu] at h
      exact absurd h (copyOut_ne_nil hca (by simpa [unread] using hcu))
    refine ⟨drop_eq_nil_iff.mpr (by omega), ?_⟩
    cases ho : st.remoteClosed with
    | true => exact .inl rfl
    | false =>
      rw [readLoop_cons hcu ho] at h
      obtain ⟨hni, hrs⟩ := ih h
      simp only [unread, drop_zero] at hni
      simp only [ho, Bool.false_eq_true, false_or] at hrs
      exact .inr ⟨hrs.1, by simpa [hni] using hrs.2⟩

theorem readLoop_ne_error (err : Error) :
    (readLoop capacity senders tx queue st).1 ≠ .ready (.error err) := by
  induction queue generalizing st with
  | nil =>
    by_cases hcu : st.readOffset < st.readBuf.length
    · rw [readLoop_current hcu]
      exact copyOut_ne_error err
    cases ho : st.remoteClosed with
    | true => simp [readLoop_closed hcu ho]
    | false =>
      rw [readLoop_nil hcu ho]
      cases senders <;> simp
  | cons payload queue ih =>
    by_cases hcu : st.readOffset < st.readBuf.length
    · rw [readLoop_current hcu]
      exact copyOut_ne_error err
    cases ho : st.remoteClosed with
    | true => simp [readLoop_closed hcu ho]
    | false =>
      rw [readLoop_cons hcu ho]
      exact ih

end NativeStream

end Espejismo.Mux
