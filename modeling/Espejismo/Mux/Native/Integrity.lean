import Espejismo.Mux.Native.Table

/-!
# Mux.Native.Integrity

The bytes of one stream at one side.  What was accepted from the writer is what
went out followed by what is queued, and nothing follows a FIN or RST
(`Sending`); what the reader got and what is held for it is what came in
(`Receiving`).  Both hold for streams whose id was not used before an OPEN of it
is sent or handled (`Pristine`), and the second one as long as the peer sends no
data after its own FIN or RST.
-/

namespace Espejismo.Mux

open Binary Relation List Option

/-! ## Frames and commands of a stream -/

def dataOf (frames : List Frame) : List (List UInt8) :=
  frames.filterMap fun f => if f.kind = .data then some f.payload else none

def queuedData (commands : List Command) : List (List UInt8) :=
  commands.filterMap fun
    | .data _ _ payload => some payload
    | _ => none

def Frame.Closes (f : Frame) : Prop := f.kind = .fin ∨ f.kind = .rst

instance (f : Frame) : Decidable f.Closes := inferInstanceAs (Decidable (_ ∨ _))

namespace Command

def Closes : Command → Prop
  | .fin _ | .rst _ => True
  | _ => False

def IsData : Command → Prop
  | .data _ _ _ => True
  | _ => False

end Command

def Closed (frames : List Frame) : Prop := ∃ f ∈ frames, f.Closes

def Quiet (frames : List Frame) : Prop := frames.Pairwise fun f g => f.Closes → g.kind ≠ .data

section Frames

variable {f : Frame}

@[simp] theorem dataOf_append (fs gs : List Frame) : dataOf (fs ++ gs) = dataOf fs ++ dataOf gs :=
  filterMap_append ..

theorem dataOf_data (h : f.kind = .data) : dataOf [f] = [f.payload] := by
  simp [dataOf, h]

theorem dataOf_other (h : f.kind ≠ .data) : dataOf [f] = [] := by
  simp [dataOf, h]

@[simp] theorem queuedData_append (cs ds : List Command) :
    queuedData (cs ++ ds) = queuedData cs ++ queuedData ds := filterMap_append ..

theorem queuedData_eq_nil (h : ∀ c ∈ cs, ¬ c.IsData) : queuedData cs = [] := by
  refine filterMap_eq_nil_iff.mpr fun c hc => ?_
  cases c with
  | data => exact absurd trivial (h _ hc)
  | _ => rfl

theorem dataOf_isPrefix (h : fs <+: gs) : dataOf fs <+: dataOf gs := h.filterMap _

theorem flatten_isPrefix (h : xs <+: ys) : xs.flatten <+: ys.flatten := by
  obtain ⟨zs, rfl⟩ := h
  rw [flatten_append]
  exact prefix_append ..

@[simp] theorem closed_append : Closed (fs ++ gs) ↔ Closed fs ∨ Closed gs := by
  simp [Closed, or_and_right, exists_or]

@[simp] theorem closed_single : Closed [f] ↔ f.Closes := by
  simp [Closed]

theorem Quiet.of_isPrefix (h : fs <+: gs) (hq : Quiet gs) : Quiet fs := hq.sublist h.sublist

theorem quiet_concat : Quiet (fs ++ [f]) ↔ Quiet fs ∧ (Closed fs → f.kind ≠ .data) := by
  simp only [Quiet, pairwise_append, pairwise_singleton, mem_singleton, forall_eq, true_and]
  constructor
  · rintro ⟨hq, h⟩
    exact ⟨hq, fun ⟨g, hg, hc⟩ => h g hg hc⟩
  · rintro ⟨hq, h⟩
    exact ⟨hq, fun g hg hc => h ⟨g, hg, hc⟩⟩

end Frames

/-! ## What a call sends and reads -/

namespace NativeStream

variable {st st' : NativeStream} {tx : Channel Command}

inductive Sends (tx : Channel Command) (st st' : NativeStream) : List Command → Prop
  | data {chunk : List UInt8} (hl : st.localClosed = false) (hl' : st'.localClosed = false)
      (hdo : st'.shutDown = st.shutDown) (hwr : st'.written = st.written ++ [chunk]) :
      Sends tx st st' [.data st.id st.priority chunk]
  | credit {added : List Command}
      (had : added = [] ∨ ∃ amount, added = [.windowUpdate st.id amount])
      (hl : st'.localClosed = st.localClosed) (hdo : st'.shutDown = st.shutDown)
      (hwr : st'.written = st.written) : Sends tx st st' added
  | shut {added : List Command} (hl : st.localClosed = false)
      (had : added = [.fin st.id] ∨ (added = [] ∧ ¬ tx.HasRoom))
      (hl' : st'.localClosed = true) (hdo : st'.shutDown = true)
      (hwr : st'.written = st.written) : Sends tx st st' added
  | drop {added : List Command}
      (had : (st.localClosed = true ∧ added = []) ∨
        (st.localClosed = false ∧ (added = [.rst st.id] ∨ (added = [] ∧ ¬ tx.HasRoom))))
      (hl' : st'.localClosed = true) (hdo : st'.shutDown = st.shutDown)
      (hwr : st'.written = st.written) : Sends tx st st' added

theorem Refill.write_side (h : Refill st st') :
    st'.id = st.id ∧ st'.localClosed = st.localClosed ∧ st'.shutDown = st.shutDown ∧
      st'.written = st.written := by
  cases h <;> exact ⟨rfl, rfl, rfl, rfl⟩

theorem Call.sends (h : Call senders st tx op st' tx') :
    ∃ added, tx'.items = tx.items ++ added ∧ Sends tx st st' added := by
  cases h with
  | wrote hl => exact ⟨_, rfl, .data hl hl rfl rfl⟩
  | finished hfi =>
    obtain ⟨hid, hl, hdo, hwr⟩ := hfi.write_side
    rename_i st₁
    obtain ⟨sent, he, hs⟩ :=
      tx.getD_trySend (.windowUpdate st₁.id (UInt32.ofNat st₁.readBuf.length))
    refine ⟨sent, by rw [he], .credit ?_ hl hdo hwr⟩
    rcases hs with ⟨rfl, -⟩ | ⟨rfl, -⟩
    · exact .inr ⟨_, by rw [hid]⟩
    · exact .inl rfl
  | copied hfi =>
    obtain ⟨-, hl, hdo, hwr⟩ := hfi.write_side
    exact ⟨[], (append_nil _).symm, .credit (.inl rfl) hl hdo hwr⟩
  | shut hl =>
    obtain ⟨sent, he, hs⟩ := tx.getD_trySend (.fin st.id)
    exact ⟨sent, by rw [he], .shut hl (hs.imp And.left fun h => h) rfl rfl rfl⟩
  | dropped =>
    by_cases hl : st.localClosed = true
    · rw [if_pos hl]
      exact ⟨[], (append_nil _).symm, .drop (.inl ⟨hl, rfl⟩) rfl rfl rfl⟩
    rw [if_neg hl]
    obtain ⟨sent, he, hs⟩ := tx.getD_trySend (.rst st.id)
    have had := hs.imp And.left fun h => h
    exact ⟨sent, by rw [he], .drop (.inr ⟨by simpa using hl, had⟩) rfl rfl rfl⟩
  | _ => exact ⟨[], (append_nil _).symm, .credit (.inl rfl) rfl rfl rfl⟩

theorem Refill.obtained_eq (h : Refill st st') :
    st'.obtained = st.obtained ∧ st'.rx.live = st.rx.live ∧
      (st.rx.items = [] → st'.rx.items = []) := by
  cases h with
  | current => exact ⟨rfl, rfl, fun h => h⟩
  | next _ _ hi => exact ⟨rfl, rfl, fun hni => by simp [hni] at hi⟩

theorem Call.reads (h : Call senders st tx op st' tx') (ht : op ≠ .drop → st.Tidy) :
    (st'.obtained ++ st'.held = st.obtained ++ st.held ∧ st'.rx.live = st.rx.live ∧
        (st.rx.items = [] → st'.rx.items = [])) ∨
      (st'.obtained ++ st'.held <+: st.obtained ++ st.held ∧ st'.rx.live = false ∧
        st'.rx.items = []) := by
  cases h with
  | copied hfi hn =>
    rename_i st₁ n
    left
    obtain ⟨hob, hli, hi⟩ := hfi.obtained_eq
    have hhe := ((ht (by simp)).refill hfi).2
    refine ⟨?_, hli, hi⟩
    rw [← hhe, ← hob]
    simp only [held, unread, append_assoc]
    rw [← drop_drop, ← append_assoc (List.take n _), take_append_drop]
  | finished hfi =>
    left
    obtain ⟨hob, hli, hi⟩ := hfi.obtained_eq
    have hhe := ((ht (by simp)).refill hfi).2
    refine ⟨?_, hli, hi⟩
    rw [← hhe, ← hob]
    simp [held, unread]
  | drained _ hun hi | eof _ hun hi =>
    have hft : st.rx.items.flatten = [] := flatten_eq_nil_iff.mpr hi
    rw [held, held, hun, hft]
    simp [unread]
  | dropped =>
    simp [held, unread]
  | _ => exact .inl ⟨rfl, rfl, fun h => h⟩

end NativeStream

namespace Endpoint

variable {v : Endpoint} {tx : Channel Command}

theorem Called.exists_call (h : Called s tx op v v') :
    ∃ st st' tx' added, v.stream = some st ∧ st.id = s ∧ st.Call v.attached tx op st' tx' ∧
      tx'.items = tx.items ++ added ∧
        v' = { v with stream := some st', commands := v.commands ++ added } := by
  cases h with
  | @mk st st' tx' hst hid htx hca =>
    obtain ⟨added, rfl, had⟩ := hca.appends
    refine ⟨st, st', _, added, hst, hid, hca, rfl, ?_⟩
    have hall : commandsOf s added = added := by
      refine filter_eq_self.mpr fun c hc => ?_
      simp [(had c hc).1, hid]
    rw [Session.commandsOf_append, hall, htx]

theorem Called.sends (h : Called s tx op v v') :
    ∃ st st' added, v.stream = some st ∧
      v' = { v with stream := some st', commands := v.commands ++ added } ∧
        NativeStream.Sends tx st st' added := by
  obtain ⟨st, st', tx', added, hst, -, hca, hi, rfl⟩ := h.exists_call
  obtain ⟨added', hi', hse⟩ := hca.sends
  rw [hi, append_cancel_left_eq] at hi'
  exact ⟨st, st', added, hst, rfl, hi' ▸ hse⟩

structure Pristine (v : Endpoint) : Prop where
  stream : v.stream = none
  attached : v.attached = false
  commands : v.commands = []
  sent : v.sent = []
  handled : v.handled = []
  arriving : v.arriving = none

def Fresh (kind : FrameKind) (v : Endpoint) : Prop := kind = .open → v.Pristine

/-! ## Sending -/

def written (v : Endpoint) : List (List UInt8) := (v.stream.map NativeStream.written).getD []

def shut (v : Endpoint) : Bool := v.stream.any NativeStream.localClosed

structure Sending (v : Endpoint) : Prop where
  order : v.commands.Pairwise fun c d => c.Closes → ¬ d.IsData
  closing : (∃ c ∈ v.commands, c.Closes) → v.shut = true
  quiet : Quiet v.sent
  after : Closed v.sent → v.attached = true → (∀ c ∈ v.commands, ¬ c.IsData) ∧ v.shut = true
  isPrefix : dataOf v.sent <+: v.written
  whole : v.attached = true → dataOf v.sent ++ queuedData v.commands = v.written

namespace Sending

theorem of_eq (hv : Sending v) (hwr : v'.written = v.written) (hsh : v'.shut = v.shut)
    (hat : v'.attached = true → v.attached = true) (hco : v'.commands = v.commands)
    (hs : v'.sent = v.sent) : Sending v' where
  order := hco ▸ hv.order
  closing := by
    rw [hco, hsh]
    exact hv.closing
  quiet := hs ▸ hv.quiet
  after := by
    rw [hco, hs, hsh]
    exact fun hc ha => hv.after hc (hat ha)
  isPrefix := by
    rw [hs, hwr]
    exact hv.isPrefix
  whole := by
    rw [hs, hwr, hco]
    exact fun ha => hv.whole (hat ha)

theorem send (hv : Sending v) (hda : ∀ c ∈ added, ¬ c.IsData)
    (hwr : v'.written = v.written)
    (hsh : v'.shut = true ∨ (v'.shut = v.shut ∧ ∀ c ∈ added, ¬ c.Closes))
    (hat : v'.attached = v.attached) (hco : v'.commands = v.commands ++ added)
    (hs : v'.sent = v.sent) : Sending v' where
  order := by
    rw [hco, pairwise_append]
    refine ⟨hv.order, ?_, fun c _ d hd _ => hda d hd⟩
    exact pairwise_of_forall_mem_list fun c _ d hd _ => hda d hd
  closing := by
    rw [hco]
    rintro ⟨c, hc, hcs⟩
    rcases hsh with hsh | ⟨hsh, hno⟩
    · exact hsh
    rw [hsh]
    rcases mem_append.mp hc with hc | hc
    · exact hv.closing ⟨c, hc, hcs⟩
    · exact absurd hcs (hno c hc)
  quiet := hs ▸ hv.quiet
  after := by
    rw [hs, hat, hco]
    intro hcl hin
    obtain ⟨hno, hold⟩ := hv.after hcl hin
    refine ⟨?_, ?_⟩
    · intro c hc
      exact (mem_append.mp hc).elim (hno c) (hda c)
    · rcases hsh with hsh | ⟨hsh, -⟩
      · exact hsh
      · rw [hsh, hold]
  isPrefix := by
    rw [hs, hwr]
    exact hv.isPrefix
  whole := by
    rw [hs, hwr, hat, hco, queuedData_append, queuedData_eq_nil hda, append_nil]
    exact hv.whole

theorem called (hv : Sending v) (h : Called s tx op v v') : Sending v' := by
  obtain ⟨st, st', added, hst, rfl, hse⟩ := h.sends
  have hsh : v.shut = st.localClosed := by simp [shut, hst]
  cases hse with
  | credit had hl _ hw =>
    refine hv.send ?_ (by simp [written, hst, hw]) (.inr ⟨?_, ?_⟩) rfl rfl rfl
    · rcases had with rfl | ⟨_, rfl⟩ <;> simp [Command.IsData]
    · simp [shut, hst, hl]
    · rcases had with rfl | ⟨_, rfl⟩ <;> simp [Command.Closes]
  | shut _ had hl' _ hw =>
    refine hv.send ?_ (by simp [written, hst, hw]) (.inl ?_) rfl rfl rfl
    · rcases had with rfl | ⟨rfl, -⟩ <;> simp [Command.IsData]
    · simp [shut, hl']
  | drop had hl' _ hw =>
    refine hv.send ?_ (by simp [written, hst, hw]) (.inl ?_) rfl rfl rfl
    · rcases had with ⟨-, rfl⟩ | ⟨-, rfl | ⟨rfl, -⟩⟩ <;> simp [Command.IsData]
    · simp [shut, hl']
  | @data chunk hl hl' _ hw =>
    rw [hl] at hsh
    have ho : ∀ c ∈ v.commands, ¬ c.Closes := by
      intro c hc hcs
      simp [hv.closing ⟨c, hc, hcs⟩] at hsh
    have hnw : written { v with
        stream := some st', commands := v.commands ++ [.data st.id st.priority chunk] } =
        v.written ++ [chunk] := by
      simp [written, hst, hw]
    constructor
    · refine pairwise_append.mpr ⟨hv.order, pairwise_singleton .., ?_⟩
      exact fun c hc _ _ hcs => absurd hcs (ho c hc)
    · rintro ⟨c, hc, hcs⟩
      rcases mem_append.mp hc with hc | hc
      · exact absurd hcs (ho c hc)
      · rw [mem_singleton.mp hc] at hcs
        exact hcs.elim
    · exact hv.quiet
    · intro hcl hin
      simp [(hv.after hcl hin).2] at hsh
    · rw [hnw]
      exact hv.isPrefix.trans (prefix_append ..)
    · intro hin
      rw [hnw, ← hv.whole hin, queuedData_append, ← append_assoc]
      rfl

theorem written_touch (v : Endpoint) (g : FlowState → FlowState) :
    ((v.touch g).map NativeStream.written).getD [] = v.written := by
  rw [written, map_touch v fun _ => rfl]

theorem shut_touch (v : Endpoint) (g : FlowState → FlowState) :
    (v.touch g).any NativeStream.localClosed = v.shut := by
  rw [shut, any_touch v fun _ => rfl]

end Sending

theorem written_move (h : Move may config s v v') : v'.written = v.written := by
  cases h with
  | dropped h =>
    obtain ⟨st, st', tx', added, hst, -, hca, -, rfl⟩ := h.exists_call
    have hke : st'.written = st.written := by cases hca <;> rfl
    simp [written, hst, hke]
  | given hst | delivered hst => simp [written, hst]
  | released | granted | closed | ended => exact Sending.written_touch ..
  | opened _ _ hnw | admitted _ _ _ _ hnw => simp [written, hnw, Session.newStream]
  | _ => rfl

namespace Sending

theorem sent (hv : Sending v) (taken : List Command) {f : Frame} (hda : f.kind ≠ .data)
    (hcs : f.Closes → v'.attached = true → (∀ c ∈ v'.commands, ¬ c.IsData) ∧ v.shut = true)
    (hwr : v'.written = v.written) (hsh : v'.shut = v.shut)
    (hat : v'.attached = true → v.attached = true) (hta : ∀ c ∈ taken, ¬ c.IsData)
    (hco : v.commands = taken ++ v'.commands) (hs : v'.sent = v.sent ++ [f]) :
    Sending v' := by
  have hme : ∀ c ∈ v'.commands, c ∈ v.commands := fun c hc => by simp [hco, hc]
  constructor
  · have hod := hv.order
    rw [hco] at hod
    exact (pairwise_append.mp hod).2.1
  · rintro ⟨c, hc, h⟩
    rw [hsh]
    exact hv.closing ⟨c, hme c hc, h⟩
  · rw [hs, quiet_concat]
    exact ⟨hv.quiet, fun _ => hda⟩
  · rw [hs, closed_append, closed_single, hsh]
    rintro (hcl | hcl) hin
    · obtain ⟨hno, hold⟩ := hv.after hcl (hat hin)
      exact ⟨fun c hc => hno c (hme c hc), hold⟩
    · exact hcs hcl hin
  · rw [hs, dataOf_append, dataOf_other hda, append_nil, hwr]
    exact hv.isPrefix
  · intro hin
    have hwh := hv.whole (hat hin)
    rw [hco, queuedData_append, queuedData_eq_nil hta, nil_append] at hwh
    rw [hs, dataOf_append, dataOf_other hda, append_nil, hwr, hwh]

theorem detached (hv : Sending v) (hwr : v'.written = v.written) (hsh : v'.shut = v.shut)
    (hat : v'.attached = false) (hco : v'.commands <:+ v.commands)
    (hs : v'.sent = v.sent) : Sending v' where
  order := hv.order.sublist hco.sublist
  closing := by
    rw [hsh]
    exact fun ⟨c, hc, h⟩ => hv.closing ⟨c, hco.mem hc, h⟩
  quiet := hs ▸ hv.quiet
  after := by simp [hat]
  isPrefix := by
    rw [hs, hwr]
    exact hv.isPrefix
  whole := by simp [hat]

theorem begun (hco : v'.commands = []) (hwr : v'.written = [])
    (hs : ∀ f ∈ v'.sent, f.kind = .open) : Sending v' := by
  have hda : dataOf v'.sent = [] := by
    refine filterMap_eq_nil_iff.mpr fun f hf => ?_
    simp [hs f hf]
  have ho : ¬ Closed v'.sent := by
    rintro ⟨f, hf, hc⟩
    simp [Frame.Closes, hs f hf] at hc
  constructor
  · simp [hco]
  · simp [hco]
  · refine pairwise_of_forall_mem_list fun f hf _ _ hc => ?_
    exact absurd ⟨f, hf, hc⟩ ho
  · exact fun hc => absurd hc ho
  · simp [hda]
  · intro _
    rw [hda, hco, hwr]
    rfl

theorem move (hv : Sending v) (h : Move Fresh config s v v') : Sending v' := by
  cases h with
  | dropped h => exact hv.called h
  | given hst | delivered hst =>
    exact hv.of_eq (by simp [written, hst]) (by simp [shut, hst]) id rfl rfl
  | released | granted => exact hv.of_eq (written_touch ..) (shut_touch ..) id rfl rfl
  | closed => exact hv.of_eq (written_touch ..) (shut_touch ..) (by simp) rfl rfl
  | opened _ hm | admitted _ _ _ hm =>
    exact begun (hm rfl).commands rfl (by simp [(hm rfl).sent])
  | dataTaken | noted | deliveryFailed => exact hv.of_eq rfl rfl id rfl rfl
  | dataDiscarded hc hat => exact hv.detached rfl rfl hat (hc ▸ suffix_cons ..) rfl
  | dataSent hc hat =>
    rename_i priority payload rest
    have ho : ¬ Closed v.sent := by
      intro hcl
      have hme : .data s priority payload ∈ v.commands := by simp [hc]
      exact (hv.after hcl hat).1 _ hme trivial
    have hod := hv.order
    rw [hc, pairwise_cons] at hod
    have hwh := hv.whole hat
    have hcn : queuedData (.data s priority payload :: rest) = payload :: queuedData rest := rfl
    rw [hc, hcn] at hwh
    have hnw : dataOf (v.sent ++ [⟨.data, s, payload⟩]) = dataOf v.sent ++ [payload] := by
      rw [dataOf_append]
      rfl
    constructor
    · exact hod.2
    · exact fun ⟨c, hme, h⟩ => hv.closing ⟨c, by rw [hc]; exact mem_cons_of_mem _ hme, h⟩
    · exact quiet_concat.mpr ⟨hv.quiet, fun hcl => absurd hcl ho⟩
    · rw [closed_append]
      rintro (hcl | hcl) _
      · exact absurd hcl ho
      · simp [Frame.Closes] at hcl
    · change dataOf (v.sent ++ _) <+: v.written
      rw [hnw, ← hwh]
      exact ⟨queuedData rest, by simp⟩
    · intro _
      change dataOf (v.sent ++ _) ++ _ = v.written
      rw [hnw, ← hwh]
      simp
  | @controlSent c f rest hc _ hf =>
    have hki : f.kind ≠ .data ∧ (f.Closes → c.Closes) ∧ ¬ c.IsData := by
      cases c <;> cases hf <;> simp [Frame.Closes, Command.Closes, Command.IsData]
    have hod := hv.order
    rw [hc, pairwise_cons] at hod
    refine hv.sent [c] hki.1 ?_ rfl rfl id (by simpa using hki.2.2) hc rfl
    intro hcs _
    refine ⟨fun d hd => hod.1 d hd (hki.2.1 hcs), ?_⟩
    exact hv.closing ⟨c, by rw [hc]; exact mem_cons_self, hki.2.1 hcs⟩
  | @announced f _ hki =>
    have hne : f.kind ≠ .data ∧ ¬ f.Closes := by
      rcases hki with h | h <;> simp [h, Frame.Closes]
    exact hv.sent [] hne.1 (fun h => absurd h hne.2) rfl rfl id (by simp) rfl rfl
  | resetSent hc =>
    exact hv.sent [.rst s] (by simp) (by simp) rfl rfl (by simp) (by simp [Command.IsData]) hc rfl
  | refused _ hki =>
    have hat : v.attached = false := hki.elim (fun h => (h.2 rfl).attached) (fun h => h.2)
    exact hv.sent [] (by simp) (by simp [hat]) rfl rfl (by simp) (by simp) rfl rfl
  | ended => exact hv.detached (written_touch ..) (shut_touch ..) rfl nil_suffix rfl
  | aborted => exact hv.detached rfl rfl rfl nil_suffix rfl

end Sending

/-! ## Receiving -/

def buffer (v : Endpoint) : Option (Channel (List UInt8) × List UInt8) :=
  v.stream.map fun st => (st.rx, st.obtained ++ st.unread)

def received (v : Endpoint) : List UInt8 :=
  match v.buffer with
  | none => []
  | some (rx, got) => got ++ rx.items.flatten ++ if rx.live then v.arriving.getD [] else []

def alive (v : Endpoint) : Bool := v.buffer.any fun b => b.1.live

def flowClosed (v : Endpoint) : Bool := v.stream.any fun st => st.flow.closed

structure Receiving (v : Endpoint) : Prop where
  isPrefix : v.received <+: (dataOf v.handled).flatten
  whole : v.alive = true → v.attached = true ∨ Closed v.handled →
    v.received = (dataOf v.handled).flatten
  busy : v.alive = true → v.arriving ≠ none → v.attached = true
  dead : ∀ rx got, v.buffer = some (rx, got) → rx.live = false → rx.items = []
  closed : Closed v.handled → v.attached = false
  flow : v.flowClosed = true → Closed v.handled ∨ v.status ≠ .running

section Buffer

variable {st : NativeStream}

theorem buffer_some (h : v.stream = some st) :
    v.buffer = some (st.rx, st.obtained ++ st.unread) := by
  rw [buffer, h]
  rfl

theorem received_some (h : v.stream = some st) :
    v.received = st.obtained ++ st.held ++ if st.rx.live then v.arriving.getD [] else [] := by
  rw [received, buffer_some h, NativeStream.held, ← append_assoc]

theorem alive_some (h : v.stream = some st) : v.alive = st.rx.live := by
  rw [alive, buffer_some h, any_some]

theorem flowClosed_some (h : v.stream = some st) : v.flowClosed = st.flow.closed := by
  rw [flowClosed, h, any_some]

theorem buffer_touch (v : Endpoint) (g : FlowState → FlowState) :
    ((v.touch g).map fun st : NativeStream => (st.rx, st.obtained ++ st.unread)) = v.buffer := by
  rw [buffer, map_touch v fun _ => rfl]

theorem flowClosed_touch (v : Endpoint) (g : FlowState → FlowState)
    (hg : ∀ flow, (g flow).closed = flow.closed) :
    (v.touch g).any (fun st => st.flow.closed) = v.flowClosed := by
  rw [flowClosed, any_touch v fun st => hg st.flow]

end Buffer

namespace Receiving

variable {f : Frame}

theorem note (hv : Receiving v) (fs : List Frame) (hcs : ∀ f ∈ fs, ¬ f.Closes)
    (hda : ∀ f ∈ fs, f.kind = .data → v.attached = false ∧ ¬ Closed v.handled)
    (hb : v'.buffer = v.buffer) (hfl : v'.flowClosed = v.flowClosed)
    (hat : v'.attached = v.attached) (har : v'.arriving = v.arriving)
    (hss : v'.status = v.status) (hh : v'.handled = v.handled ++ fs) : Receiving v' := by
  have hr : v'.received = v.received := by simp [received, hb, har]
  have hal : v'.alive = v.alive := by simp [alive, hb]
  have hcl : Closed v'.handled ↔ Closed v.handled := by
    rw [hh, closed_append, or_iff_left]
    exact fun ⟨f, hf, hc⟩ => hcs f hf hc
  have hgr : dataOf v.handled <+: dataOf v'.handled := by
    rw [hh]
    exact dataOf_isPrefix (prefix_append ..)
  constructor
  · rw [hr]
    exact hv.isPrefix.trans (flatten_isPrefix hgr)
  · rw [hr, hal, hat, hcl]
    intro hli hor
    have hno : dataOf fs = [] := by
      refine filterMap_eq_nil_iff.mpr fun f hf => if_neg fun hki => ?_
      obtain ⟨hou, ho⟩ := hda f hf hki
      rcases hor with hin | hin
      · simp [hou] at hin
      · exact ho hin
    rw [hh, dataOf_append, hno, append_nil]
    exact hv.whole hli hor
  · rw [hal, har, hat]
    exact hv.busy
  · rw [hb]
    exact hv.dead
  · rw [hcl, hat]
    exact hv.closed
  · rw [hfl, hcl, hss]
    exact hv.flow

theorem of_eq (hv : Receiving v) (hb : v'.buffer = v.buffer)
    (hfl : v'.flowClosed = v.flowClosed)
    (hat : v'.attached = v.attached) (har : v'.arriving = v.arriving)
    (hss : v'.status = v.status) (hh : v'.handled = v.handled) : Receiving v' :=
  hv.note [] (by simp) (by simp) hb hfl hat har hss (by simpa using hh)

theorem called (hv : Receiving v) (ht : op ≠ .drop → ∀ st, v.stream = some st → st.Tidy)
    (h : Called s tx op v v') : Receiving v' := by
  cases h with
  | mk hst hid htx hca =>
    rename_i st st' tx'
    have hde := hv.dead _ _ (buffer_some hst)
    have hfl := hv.flow
    have hp := hv.isPrefix
    have hwh := hv.whole
    have hbu := hv.busy
    rw [received_some hst] at hp hwh
    rw [alive_some hst] at hwh hbu
    rw [flowClosed_some hst, ← hca.flow_closed] at hfl
    constructor
    · rw [received_some rfl]
      refine List.IsPrefix.trans ?_ hp
      rcases hca.reads fun hne => ht hne st hst with ⟨he, hli, -⟩ | ⟨hle, hli, -⟩
      · simp [he, hli]
      · rw [hli, if_neg (by simp), append_nil]
        exact hle.trans (prefix_append ..)
    · rw [received_some rfl, alive_some rfl]
      intro hal hor
      rcases hca.reads fun hne => ht hne st hst with ⟨he, hli, -⟩ | ⟨-, hgo, -⟩
      · rw [hli] at hal
        rw [he, hli]
        exact hwh hal hor
      · simp [hgo] at hal
    · exact fun hal => hbu (hca.live hal)
    · rintro _ _ ⟨⟩ hgo
      rcases hca.reads fun hne => ht hne st hst with ⟨-, hli, hi⟩ | ⟨-, -, hi⟩
      · exact hi (hde (hli ▸ hgo))
      · exact hi
    · exact hv.closed
    · exact hfl

theorem detached (hv : Receiving v) (hb : v'.buffer = v.buffer) (hat : v'.attached = false)
    (har : v'.arriving = none ∨ v'.arriving = v.arriving)
    (hbu : v'.alive = true → v'.arriving = none) (hh : v'.handled = v.handled)
    (hfl : v'.flowClosed = true → Closed v.handled ∨ v'.status ≠ .running) : Receiving v' := by
  have hal : v'.alive = v.alive := by simp [alive, hb]
  have hr : v'.received <+: v.received := by
    unfold received
    rw [hb]
    cases v.buffer with
    | none => exact prefix_refl _
    | some b =>
      rcases har with har | har
      · rw [har]
        refine ⟨if b.1.live then v.arriving.getD [] else [], ?_⟩
        simp
      · simp [har]
  constructor
  · rw [hh]
    exact hr.trans hv.isPrefix
  · intro hli hor
    rw [hh, hat] at hor
    have hcl : Closed v.handled := hor.resolve_left (by simp)
    have hno : v.arriving = none := by
      by_contra hne
      have hin := hv.busy (hal ▸ hli) hne
      simp [hv.closed hcl] at hin
    have hsa : v'.received = v.received := by
      simp [received, hb, hbu hli, hno]
    rw [hsa, hh]
    exact hv.whole (hal ▸ hli) (.inr hcl)
  · exact fun hli hne => absurd (hbu hli) hne
  · rw [hb]
    exact hv.dead
  · exact fun _ => hat
  · rw [hh]
    exact hfl

theorem begun (hsr : v'.stream = some (Session.newStream config s priority holder))
    (har : v'.arriving = none) (hh : ∀ f ∈ v'.handled, f.kind = .open) : Receiving v' := by
  have hr : v'.received = [] := by
    rw [received_some hsr, har]
    simp [Session.newStream, NativeStream.held, NativeStream.unread]
  have hda : dataOf v'.handled = [] := by
    refine filterMap_eq_nil_iff.mpr fun f hf => ?_
    simp [hh f hf]
  have ho : ¬ Closed v'.handled := by
    rintro ⟨f, hf, hc⟩
    simp [Frame.Closes, hh f hf] at hc
  constructor
  · rw [hr]
    exact nil_prefix
  · rw [hr, hda]
    exact fun _ _ => rfl
  · simp [har]
  · rw [buffer_some hsr]
    rintro _ _ ⟨⟩ hgo
    simp [Session.newStream] at hgo
  · exact fun hc => absurd hc ho
  · rw [flowClosed_some hsr]
    simp [Session.newStream, FlowState.new]

theorem take (hk : Kept s v) (hv : Receiving v) (hki : f.kind = .data) (hat : v.attached = true)
    (har : v.arriving = none) (hsr : v'.stream = v.stream) (hat' : v'.attached = v.attached)
    (har' : v'.arriving = some f.payload) (hss : v'.status = v.status)
    (hh : v'.handled = v.handled ++ [f]) : Receiving v' := by
  obtain ⟨st, hst⟩ : ∃ st, v.stream = some st := by
    refine ne_none_iff_exists'.mp fun hno => ?_
    simp [(hk.absent hno).2] at hat
  have hst' : v'.stream = some st := hsr.trans hst
  have ho : ¬ Closed v.handled := fun hc => by simp [hv.closed hc] at hat
  have hp := hv.isPrefix
  have hwh : st.rx.live = true → v.received = _ := fun hli =>
    hv.whole ((alive_some hst).trans hli) (.inl hat)
  rw [received_some hst, har] at hp hwh
  simp only [getD_none, ite_self, append_nil] at hp hwh
  have hgr : dataOf v'.handled = dataOf v.handled ++ [f.payload] := by
    rw [hh, dataOf_append, dataOf_data hki]
  have hcl : ¬ Closed v'.handled := by
    rw [hh]
    simpa [Frame.Closes, hki] using ho
  constructor
  · rw [received_some hst', hgr, flatten_append, har']
    cases hli : st.rx.live with
    | true => simp [hwh hli]
    | false =>
      rw [if_neg (by simp), append_nil]
      exact hp.trans (prefix_append ..)
  · rw [received_some hst', alive_some hst', hgr, har']
    intro hli _
    simp [hli, hwh hli]
  · exact fun _ _ => hat' ▸ hat
  · rw [buffer, hsr]
    exact hv.dead
  · exact fun hc => absurd hc hcl
  · rw [flowClosed, hsr, hss]
    exact fun hfl => .inr ((hv.flow hfl).resolve_left ho)

theorem close (hk : Kept s v) (hv : Receiving v) (hcs : f.Closes) (har : v.arriving = none)
    (hru : v.status = .running) (hsr : v'.stream = v.touch .close)
    (hat' : v'.attached = false) (har' : v'.arriving = v.arriving)
    (hh : v'.handled = v.handled ++ [f]) : Receiving v' := by
  have hb : v'.buffer = v.buffer := by rw [buffer, hsr, buffer_touch]
  have hr : v'.received = v.received := by simp [received, hb, har']
  have hal : v'.alive = v.alive := by simp [alive, hb]
  have hda : dataOf v'.handled = dataOf v.handled := by
    rw [hh, dataOf_append, dataOf_other, append_nil]
    rcases hcs with h | h <;> simp [h]
  constructor
  · rw [hr, hda]
    exact hv.isPrefix
  · rw [hr, hal, hda]
    intro hli _
    obtain ⟨st, hst⟩ : ∃ st, v.stream = some st := by
      refine ne_none_iff_exists'.mp fun hno => ?_
      simp [alive, buffer, hno] at hli
    -- the entry was there, or a FIN or RST came in before
    refine hv.whole hli ?_
    rcases hk.entry (by simp [hru]) st hst (alive_some hst ▸ hli) with hin | hfl
    · exact .inl hin
    · exact .inr ((hv.flow ((flowClosed_some hst).trans hfl)).resolve_right (absurd hru))
  · exact fun _ hne => absurd (har'.trans har) hne
  · rw [hb]
    exact hv.dead
  · exact fun _ => hat'
  · rw [hh]
    exact fun _ => .inl (closed_append.mpr (.inr (closed_single.mpr hcs)))

theorem deliver (hv : Receiving v) (hst : v.stream = some st) (har : v.arriving = some payload)
    (hrx : (st.rx.HasRoom ∧ st' = { st with rx := st.rx.push payload }) ∨
      (st.rx.live = false ∧ st' = st)) (hsr : v'.stream = some st')
    (hat : v'.attached = v.attached) (har' : v'.arriving = none) (hss : v'.status = v.status)
    (hh : v'.handled = v.handled) : Receiving v' := by
  have hr : v'.received = v.received := by
    rw [received_some hsr, received_some hst, har, har']
    rcases hrx with ⟨hro, rfl⟩ | ⟨hgo, rfl⟩
    · simp [NativeStream.held, NativeStream.unread, hro.1]
    · simp [hgo]
  have hal : v'.alive = v.alive := by
    rw [alive_some hsr, alive_some hst]
    rcases hrx with ⟨-, rfl⟩ | ⟨-, rfl⟩ <;> rfl
  have hfl : v'.flowClosed = v.flowClosed := by
    rw [flowClosed_some hsr, flowClosed_some hst]
    rcases hrx with ⟨-, rfl⟩ | ⟨-, rfl⟩ <;> rfl
  constructor
  · rw [hr, hh]
    exact hv.isPrefix
  · rw [hr, hal, hat, hh]
    exact hv.whole
  · exact fun _ hne => absurd har' hne
  · rw [buffer_some hsr]
    rintro _ _ ⟨⟩ hde
    rcases hrx with ⟨hro, rfl⟩ | ⟨-, rfl⟩
    · simp [hro.1] at hde
    · exact hv.dead _ _ (buffer_some hst) hde
  · rw [hh, hat]
    exact hv.closed
  · rw [hfl, hh, hss]
    exact hv.flow

theorem move (hk : Kept s v) (hv : Receiving v) (hq : Quiet v'.handled)
    (h : Move Fresh config s v v') : Receiving v' := by
  cases h with
  | dropped h => exact hv.called (by simp) h
  | given hst =>
    refine hv.of_eq ?_ ?_ rfl rfl rfl rfl
    · simp [buffer, hst, NativeStream.unread]
    · simp [flowClosed, hst]
  | released => exact hv.of_eq (buffer_touch ..) (flowClosed_touch v _ fun _ => rfl) rfl rfl rfl rfl
  | opened _ hm => exact begun rfl (hm rfl).arriving (by simp [(hm rfl).handled])
  | admitted _ _ hki hm =>
    exact begun rfl (hm rfl).arriving (by simp [(hm rfl).handled, hki])
  | dataSent | dataDiscarded | controlSent | announced => exact hv.of_eq rfl rfl rfl rfl rfl rfl
  | resetSent hc =>
    have hme : .rst s ∈ v.commands := by simp [hc]
    refine hv.detached rfl rfl (.inr rfl) ?_ rfl hv.flow
    intro hli
    change v.alive = true at hli
    cases hst : v.stream with
    | none => simp [alive, buffer, hst] at hli
    | some st =>
      rw [alive_some hst, hk.reset hme st hst] at hli
      contradiction
  | @refused f _ hki =>
    refine hv.note [f] ?_ ?_ rfl rfl rfl rfl rfl rfl
    · rcases hki with h | h <;> simp [Frame.Closes, h.1]
    · simp only [mem_singleton, forall_eq]
      intro hda
      refine ⟨hki.elim (fun h => (h.2 rfl).attached) (fun h => h.2), ?_⟩
      exact fun hcl => (quiet_concat.mp hq).2 hcl hda
  | @noted f _ hda hclo =>
    refine hv.note [f] ?_ ?_ rfl rfl rfl rfl rfl rfl
    · simpa [Frame.Closes] using hclo
    · simp [hda]
  | @granted f _ hki =>
    refine hv.note [f] ?_ ?_ (buffer_touch ..) (flowClosed_touch v _ fun _ => rfl) rfl rfl rfl rfl
    · simp [Frame.Closes, hki]
    · simp [hki]
  | dataTaken _ hki hat har => exact take hk hv hki hat har rfl rfl rfl rfl rfl
  | closed _ hki _ har hru => exact close hk hv hki har hru rfl rfl rfl rfl
  | delivered hst har hro => exact hv.deliver hst har (.inl ⟨hro, rfl⟩) rfl rfl rfl rfl rfl
  | deliveryFailed hst har hgo =>
    exact hv.deliver hst har (.inr ⟨hgo, rfl⟩) hst rfl rfl rfl rfl
  | ended =>
    exact hv.detached (buffer_touch ..) rfl (.inl rfl) (fun _ => rfl) rfl fun _ => .inr (by simp)
  | aborted => exact hv.detached rfl rfl (.inl rfl) (fun _ => rfl) rfl fun _ => .inr (by simp)

end Receiving

end Endpoint

end Espejismo.Mux
