import Espejismo.Transport.Link

/-!
# Transport.Link.Invariant

What holds in every state of a link.  The invariant (`Link.Inv`) accounts for
every byte of the stream: read by the receiving application, in its stream, in
a frame on the connection, queued in the pump, in the sender's stream, or not
yet written.  The receiver sees the end of the stream only after all of it
(`Link.Inv.received_all`).
-/

namespace Espejismo

open Binary StreamCodec

/-! ## The invariant -/

/-- The sender's part: every byte of the stream is in a Data frame already
sent, in a queue, or still to be written, and the Close frame is the last. -/
structure Sending (o : FrameOptions) (g₀ : Nat) (data toWrite : List UInt8) (u : Upload) :
    Prop where
  options : u.writer.options = o
  counted : Counted g₀ u.writer
  stream : dataOf u.frames ++ (u.pending ++ (u.inbox ++ toWrite)) = data
  shut : u.appShut = true → toWrite = []
  closed : u.appClosed = true → u.drained = true
  pending_plain : o.isStealth = false → u.pending = []
  pending_le : u.pending.length ≤ 9 * o.payloadCapacity
  phase : u.result = none ∧ NoClose u.frames ∨
    u.result = some (.ok ()) ∧ u.drained = true ∧ u.pending = [] ∧
      ∃ pre, u.frames = pre ++ [closeFrame] ∧ NoClose pre

/-- The receiver's part: `got` are the frames read so far, `items` those in
flight. -/
structure Receiving (P : Platform) (o : FrameOptions) (w : FrameWriter) (frames : List Frame)
    (carried : Nat) (d : Download) (received : List UInt8) (got : List Frame)
    (items : List (Frame × Cursor)) : Prop where
  flight : Flight P o d.reader carried w items
  frames : (got ++ items.map Prod.fst).filter Frame.visible = frames.filter Frame.visible
  bytes : received ++ (d.outbox ++ d.payload) = dataOf got
  connected : d.netClosed = false
  phase : d.result = none ∧ d.shut = false ∧ NoClose got ∨
    d.result = some (.ok ()) ∧ d.shut = true ∧ d.payload = [] ∧ ∃ frame ∈ got, frame.ty = .close

structure Link.Inv (P : Platform) (o : FrameOptions) (g₀ sizeA sizeB : Nat) (data : List UInt8)
    (s : Link) : Prop where
  sending : Sending o g₀ data s.toWrite s.up
  receiving : ∃ got items,
    Receiving P o s.up.writer s.up.frames s.carried s.down s.received got items
  eof : s.eof = true → s.down.shut = true ∧ s.down.outbox = []
  sizes : s.up.bufferSize = sizeA ∧ s.down.bufferSize = sizeB

namespace Upload

/-- What a send may take from the queues: bytes of the stream go into the
frame, and nothing else changes. -/
structure TakesFrom (u : Upload) (frame : Frame) (u₀ : Upload) : Prop where
  stream : dataOf [frame] ++ (u₀.pending ++ u₀.inbox) = u.pending ++ u.inbox
  pending_le : u₀.pending.length ≤ u.pending.length
  inbox_nil : u.inbox = [] → u₀.inbox = []
  ty : frame.ty ≠ .keyUpdate ∧ frame.ty ≠ .close
  same : u₀.writer = u.writer ∧ u₀.frames = u.frames ∧ u₀.result = u.result ∧
    u₀.appShut = u.appShut ∧ u₀.appClosed = u.appClosed ∧ u₀.bufferSize = u.bufferSize

theorem Takes.takesFrom (h : Takes u frame u₀)
    (hpl : u.writer.options.isStealth = false → u.pending = []) : TakesFrom u frame u₀ := by
  cases h with
  | padding | warmup => constructor <;> simp [paddingFrameEmpty]
  | chunk n hs => constructor <;> simp +contextual [hpl hs]
  | tick => constructor <;> simp [← List.append_assoc]

end Upload

/-- From `u` to `u'` the pump sent `more`, hidden frames included. -/
def Sends (P : Platform) (g₀ : Nat) (u u' : Upload) (more : List (Frame × Cursor)) : Prop :=
  Wrote P g₀ u.writer u'.writer more ∧ g₀ + u'.writer.sent.length < 2 ^ 64 ∧
    u'.frames.filter Frame.visible =
      u.frames.filter Frame.visible ++ (more.map Prod.fst).filter Frame.visible

theorem sends_nil (hw : u'.writer = u.writer) (hf : u'.frames = u.frames)
    (hro : g₀ + u.writer.sent.length + 3 < 2 ^ 64) : Sends P g₀ u u' [] := by
  refine ⟨hw ▸ .refl _, by rw [hw]; omega, by simp [hf]⟩

theorem filter_hidden_append {hidden : List (Frame × Cursor)}
    (h : ∀ x ∈ hidden, x.1.visible = false) (x : Frame × Cursor) :
    ((hidden ++ [x]).map Prod.fst).filter Frame.visible = [x.1].filter Frame.visible := by
  have hnn : (hidden.map Prod.fst).filter Frame.visible = [] := by
    simpa using fun a b hab => h (a, b) hab
  rw [List.map_append, List.filter_append, hnn]
  rfl

section SendingSteps

variable {P : Platform} {o : FrameOptions} {g₀ : Nat} {data toWrite : List UInt8} {u u' : Upload}

theorem Sending.noClose (h : Sending o g₀ data toWrite u) (hon : u.result = none) :
    NoClose u.frames := by
  rcases h.phase with hp | hp
  · exact hp.2
  · rw [hon] at hp
    simp at hp

theorem Sending.done (h : Sending o g₀ data toWrite u) (hd : u.Done) :
    u.drained = true ∧ u.pending = [] := by
  obtain rfl := h.options
  unfold Upload.Done at hd
  split at hd
  · exact ⟨h.closed hd.2, hd.1⟩
  · next hs => exact ⟨hd, h.pending_plain (by simpa using hs)⟩

theorem Sending.sent (h : Sending o g₀ data toWrite u) (ho : o.Usable)
    (hpa : o.maxPadding ≤ normalPayloadCapacity) (hro : g₀ + u.writer.sent.length + 3 < 2 ^ 64)
    (hon : u.result = none) (ha : env.Accepts) (ht : Upload.Takes u frame u₀) :
    Sending o g₀ data toWrite (u₀.send P env frame) ∧
      (u₀.send P env frame).bufferSize = u.bufferSize ∧
      ∃ more, Sends P g₀ u (u₀.send P env frame) more := by
  obtain rfl := h.options
  obtain ⟨hst, hple, hi, ⟨hku, hcl⟩, hwr, hfr, hres, hsh, hcs, hsi⟩ := ht.takesFrom h.pending_plain
  obtain ⟨w, hidden, hse, hw, hhi, hl⟩ := @Upload.send_ok u₀ _ P g₀ ha _
    (by rw [hwr]; exact ht.fits ho) hku (by rw [hwr]; exact hpa)
    (by rw [hwr]; exact h.counted) (by rw [hwr]; exact hro)
  rw [hwr] at hw
  rw [hse]
  refine ⟨?_, hsi, _, hw, hl, ?_⟩
  · refine
      { options := hw.options
        counted := (hw.emitted ho h.counted hl).1
        stream := ?_
        shut := fun hs => h.shut (hsh ▸ hs)
        closed := fun hc => ?_
        pending_plain := fun hs => ?_
        pending_le := Nat.le_trans hple h.pending_le
        phase := .inl ⟨hres.trans hon, ?_⟩ }
    · have hs := h.stream
      rw [← List.append_assoc u.pending, ← hst] at hs
      simpa [hfr] using hs
    · have hd := h.closed (hcs ▸ hc)
      simp only [Upload.drained, Bool.and_eq_true, List.isEmpty_iff] at hd ⊢
      exact ⟨hi hd.1, hsh.trans hd.2⟩
    · exact List.eq_nil_of_length_eq_zero (by
        have := congrArg List.length (h.pending_plain hs)
        simp only [List.length_nil] at this
        dsimp only
        omega)
    · exact noClose_append.mpr ⟨hfr ▸ h.noClose hon, by simpa [NoClose] using hcl⟩
  · rw [filter_hidden_append hhi]
    simp [hfr]

theorem Sending.finished (h : Sending o g₀ data toWrite u) (ho : o.Usable)
    (hpa : o.maxPadding ≤ normalPayloadCapacity) (hro : g₀ + u.writer.sent.length + 3 < 2 ^ 64)
    (hon : u.result = none) (ha : env.Accepts) (hd : u.Done) :
    Sending o g₀ data toWrite (u.finish P env) ∧ (u.finish P env).bufferSize = u.bufferSize ∧
      ∃ more, Sends P g₀ u (u.finish P env) more := by
  obtain rfl := h.options
  obtain ⟨hdr, hpe⟩ := h.done hd
  obtain ⟨w, hidden, hse, hw, hhi, hl⟩ := Upload.send_ok P ha
    (show Fits u.writer.options closeFrame from ⟨ho, Nat.zero_le _⟩)
    (by simp [closeFrame]) hpa h.counted hro
  have hfi : u.finish P env =
      { u with writer := w, frames := u.frames ++ [closeFrame], result := some (.ok ()) } := by
    simp [Upload.finish, hse, hon]
  rw [hfi]
  refine ⟨?_, rfl, _, hw, hl, ?_⟩
  · exact
      { options := hw.options
        counted := (hw.emitted ho h.counted hl).1
        stream := by simpa [closeFrame] using h.stream
        shut := h.shut
        closed := h.closed
        pending_plain := h.pending_plain
        pending_le := h.pending_le
        phase := .inr ⟨rfl, hdr, hpe, u.frames, rfl, h.noClose hon⟩ }
  · rw [filter_hidden_append hhi]
    simp

/-- **A step of the sender** keeps its part of the invariant, and what it sent
is on the wire. -/
theorem Sending.moves (h : Sending o g₀ data toWrite u) (ho : o.Usable)
    (hpa : o.maxPadding ≤ normalPayloadCapacity) (hro : g₀ + u.writer.sent.length + 3 < 2 ^ 64)
    (hon : u.result = none) (hm : Upload.Moves P u u') :
    Sending o g₀ data toWrite u' ∧ u'.bufferSize = u.bufferSize ∧ ∃ more, Sends P g₀ u u' more := by
  cases hm with
  | idle => exact ⟨h, rfl, [], sends_nil rfl rfl hro⟩
  | closed hs hd =>
    exact ⟨{ h with closed := fun _ => hd }, rfl, [], sends_nil rfl rfl hro⟩
  | queued n hs hn hle =>
    obtain rfl := h.options
    refine ⟨?_, rfl, [], sends_nil rfl rfl hro⟩
    refine
      { h with
        stream := ?_
        closed := fun hc => ?_
        pending_plain := ?_
        pending_le := ?_
        phase := .inl ⟨hon, h.noClose hon⟩ }
    · rw [← h.stream, List.append_assoc, ← List.append_assoc (u.inbox.take n),
        List.take_append_drop]
    · have hd := h.closed hc
      simp only [Upload.drained, Bool.and_eq_true, List.isEmpty_iff] at hd
      simp [hd.1] at hle
      omega
    · intro hp
      rw [hs] at hp
      contradiction
    · simp only [List.length_append, List.length_take]
      omega
  | warmed =>
    exact ⟨{ h with }, rfl, [], sends_nil rfl rfl hro⟩
  | sent ha ht => exact h.sent ho hpa hro hon ha ht
  | finished ha hd => exact h.finished ho hpa hro hon ha hd

end SendingSteps

theorem Download.bufferSize_recv (P : Platform) (d : Download) :
    (d.recv P).bufferSize = d.bufferSize := by
  unfold Download.recv
  repeat' split
  all_goals rfl

namespace Receiving

variable {P : Platform} {o : FrameOptions} {w : FrameWriter} {frames : List Frame} {carried : Nat}
  {d : Download} {received : List UInt8} {got : List Frame} {items : List (Frame × Cursor)}

theorem sends (h : Receiving P o u.writer u.frames carried d received got items) (ho : o.Usable)
    (hopt : u.writer.options = o) (hco : Counted g₀ u.writer) (hs : Sends P g₀ u u' more) :
    Receiving P o u'.writer u'.frames carried d received got (items ++ more) :=
  { h with
    flight := h.flight.wrote ho hopt hco hs.2.1 hs.1
    frames := by rw [hs.2.2, ← h.frames, List.map_append, ← List.append_assoc, List.filter_append] }

theorem carry (h : Receiving P o w frames carried d received got items)
    (hn : n ≤ w.wire.length - carried) :
    Receiving P o w frames (carried + n)
      (d.netIn ((w.wire.drop carried).take n)) received got items :=
  { h with flight := h.flight.carry hn }

theorem deliver (h : Receiving P o w frames carried d received got items) (k : Nat) :
    Receiving P o w frames carried (d.deliver k) received got items :=
  { h with
    bytes := by
      rw [← h.bytes]
      simp [Download.deliver]
    phase := by
      rcases h.phase with hp | ⟨hr, hs, hpy, hc⟩
      · exact .inl hp
      · exact .inr ⟨hr, hs, by simp [Download.deliver, hpy], hc⟩ }

theorem appRead (h : Receiving P o w frames carried d received got items) (k : Nat) :
    Receiving P o w frames carried (d.appRead k)
      (received ++ d.outbox.take (someOf k d.outbox.length)) got items :=
  { h with
    bytes := by
      rw [← h.bytes, List.append_assoc]
      simp only [Download.appRead]
      rw [← List.append_assoc (List.take _ _), List.take_append_drop] }

theorem take (h : Receiving P o w frames carried d received got (x :: items))
    (hon : d.result = none) (hpy : d.payload = []) (hf : Flight P o r carried w items)
    (ht : Took d x.1 r d') :
    Receiving P o w frames carried d' received (got ++ [x.1]) items where
  flight := ht.reader ▸ hf
  frames := by simpa using h.frames
  bytes := by
    have hb := h.bytes
    rw [hpy, List.append_nil] at hb
    rw [ht.outbox, ht.payload, dataOf_append, ← hb, List.append_assoc]
  connected := ht.netClosed.trans h.connected
  phase := by
    have hno : d.shut = false ∧ NoClose got := by
      rcases h.phase with hp | hp
      · exact hp.2
      · rw [hon] at hp
        simp at hp
    have hph := ht.phase
    split at hph
    · next hty => exact .inr ⟨hph.1, hph.2, by simp [ht.payload, hty], x.1, by simp, hty⟩
    · next hty =>
      refine .inl ⟨hph.1, hph.2.trans hno.1, noClose_append.mpr ⟨hno.2, ?_⟩⟩
      simpa [NoClose] using hty

theorem returned (h : Receiving P o w frames carried d received got items) (hs : d.shut = true) :
    d.result = some (.ok ()) ∧ d.payload = [] := by
  rcases h.phase with hp | hp
  · rw [hs] at hp
    simp at hp
  · exact ⟨hp.1, hp.2.2.1⟩

theorem recv (h : Receiving P o w frames carried d received got items) (ho : o.Usable) :
    ∃ got' items', Receiving P o w frames carried (d.recv P) received got' items' := by
  by_cases hbu : d.result.isSome ∨ d.payload ≠ []
  · rw [Download.recv, if_pos hbu]
    exact ⟨got, items, h⟩
  have hon : d.result = none := by simpa using fun hs => hbu (.inl hs)
  have hpy : d.payload = [] := by simpa using fun hs => hbu (.inr hs)
  rcases h.flight.read ho with ⟨⟨r, hru⟩, _⟩ | ⟨x, rest, r, rfl, hru, hf, _⟩
  · have hwa : d.recv P = d := by simp [Download.recv, hru, h.connected]
    exact ⟨got, items, by rwa [hwa]⟩
  · exact ⟨got ++ [x.1], rest, h.take hon hpy hf (recv_took hon hpy hru)⟩

end Receiving

namespace Link

variable {P : Platform} {o : FrameOptions} {g₀ sizeA sizeB : Nat} {data : List UInt8}

theorem start_inv (hke : SessionKeys.Mirrors wkeys rkeys)
    (ho : o.Usable) (draw : Nat) :
    Inv P o wkeys.txGeneration sizeA sizeB data
      (start wkeys rkeys o sizeA sizeB draw data) where
  sending :=
    { options := rfl
      counted := by simp [Counted, start, Upload.start, FrameWriter.new]
      stream := by simp [start, Upload.start]
      shut := by simp [start, Upload.start]
      closed := by simp [start, Upload.start]
      pending_plain := fun _ => rfl
      pending_le := Nat.zero_le _
      phase := by
        refine .inl ⟨?_, by simp [start, Upload.start, NoClose]⟩
        cases hs : o.isStealth with
        | true => simp [start, Upload.start, hs, FrameOptions.stealthPayloadCapacity_eq hs (ho hs)]
        | false => simp [start, Upload.start, hs] }
  receiving := by
    refine ⟨[], [], ⟨rfl, Nat.zero_le _, ?_⟩, rfl, rfl, rfl, .inl ⟨rfl, rfl, by simp [NoClose]⟩⟩
    have hcu := cursor_new_eq hke o []
    simp only [start, Upload.start, Download.start, FrameWriter.new, List.drop_nil,
      List.append_nil] at hcu ⊢
    rw [hcu]
    exact .nil _
  eof := by simp [start]
  sizes := ⟨rfl, rfl⟩

variable {s : Link}

theorem write_open (hni : s.toWrite ≠ []) (hon : s.up.appShut = false) (k : Nat) :
    ∃ n, n ≤ s.toWrite.length ∧ (s.up.inbox.length < s.up.bufferSize → 0 < n) ∧
      s.write k = { s with
        toWrite := s.toWrite.drop n
        up := { s.up with inbox := s.up.inbox ++ s.toWrite.take n } } := by
  have hpos := List.length_pos_iff.mpr hni
  have hle := someOf_le k (min s.toWrite.length (s.up.bufferSize - s.up.inbox.length))
  refine ⟨_, Nat.le_trans hle (Nat.min_le_left _ _), fun hro => someOf_pos (by omega), ?_⟩
  simp only [write, hni, if_false, Upload.appWrite, hon, Bool.false_eq_true, List.take_take]
  congr 4
  omega

theorem write_inv (h : Inv P o g₀ sizeA sizeB data s) (k : Nat) :
    Inv P o g₀ sizeA sizeB data (s.write k) := by
  by_cases hni : s.toWrite = []
  · rw [write, if_pos hni]
    refine { h with sending := ?_ }
    exact
      { h.sending with
        shut := fun _ => hni
        closed := fun hc => by
          have := h.sending.closed hc
          simp only [Upload.drained, Upload.appShutdown, Bool.and_eq_true] at this ⊢
          exact ⟨this.1, trivial⟩
        phase := by
          rcases h.sending.phase with hp | ⟨hr, hd, hrs⟩
          · exact .inl hp
          · refine .inr ⟨hr, ?_, hrs⟩
            simp only [Upload.drained, Upload.appShutdown, Bool.and_eq_true] at hd ⊢
            exact ⟨hd.1, trivial⟩ }
  · -- the stream is still open, so nothing that holds after a shutdown is at stake
    have hon : s.up.appShut = false := by
      cases hs : s.up.appShut with
      | true => exact absurd (h.sending.shut hs) hni
      | false => rfl
    obtain ⟨n, _, _, hwt⟩ := write_open hni hon k
    rw [hwt]
    refine { h with sending := ?_ }
    refine
      { h.sending with
        stream := ?_
        shut := fun hs => absurd hs (by simp [hon])
        closed := fun hc => ?_
        phase := ?_ }
    · rw [← h.sending.stream, List.append_assoc, List.take_append_drop]
    · have hd := h.sending.closed hc
      simp [Upload.drained, hon] at hd
    · rcases h.sending.phase with hp | ⟨_, hd, _⟩
      · exact .inl hp
      · simp [Upload.drained, hon] at hd

/-- **One event** keeps the invariant, as long as the counters have room. -/
theorem step_inv (h : Inv P o g₀ sizeA sizeB data s) (ho : o.Usable)
    (hpa : o.maxPadding ≤ normalPayloadCapacity)
    (hro : g₀ + s.up.writer.sent.length + 3 < 2 ^ 64) (ha : event.Accepts) :
    Inv P o g₀ sizeA sizeB data (s.step P event) := by
  obtain ⟨got, items, hre⟩ := h.receiving
  cases event with
  | write k => exact write_inv h k
  | upload event =>
    by_cases hrt : s.up.result.isSome = true
    · have hsa : s.step P (.upload event) = s := by simp [step, Upload.step, hrt]
      rwa [hsa]
    have hopt := h.sending.options
    obtain ⟨hse, hsi, more, hs⟩ := h.sending.moves ho hpa hro (by simpa using hrt)
      (Upload.step_moves P (hopt ▸ ho) ha)
    exact ⟨hse, ⟨got, items ++ more, hre.sends ho hopt h.sending.counted hs⟩, h.eof,
      hsi.trans h.sizes.1, h.sizes.2⟩
  | carry k =>
    exact { h with receiving := ⟨got, items, hre.carry (someOf_le k _)⟩ }
  | recv =>
    obtain ⟨got', items', hre'⟩ := hre.recv ho
    exact
      { sending := h.sending
        receiving := ⟨got', items', hre'⟩
        eof := fun he => by
          obtain ⟨hsh, hou⟩ := h.eof he
          have hrt := hre.returned hsh
          simpa [step, Download.recv, hrt.1] using ⟨hsh, hou⟩
        sizes := ⟨h.sizes.1, (Download.bufferSize_recv P s.down).trans h.sizes.2⟩ }
  | deliver k =>
    exact
      { h with
        receiving := ⟨got, items, hre.deliver k⟩
        eof := fun he => by
          obtain ⟨hsh, hou⟩ := h.eof he
          have hrt := hre.returned hsh
          simpa [step, Download.deliver, hrt.2] using ⟨hsh, hou⟩ }
  | appRead k =>
    simp only [step, appRead]
    split
    · next hou =>
      refine { h with eof := fun he => ?_ }
      simp only [Bool.or_eq_true] at he
      exact ⟨he.elim (fun h' => (h.eof h').1) id, hou⟩
    · next hou =>
      exact
        { sending := h.sending
          receiving := ⟨got, items, hre.appRead k⟩
          eof := fun he => absurd (h.eof he).2 hou
          sizes := h.sizes }

theorem runs_inv (h : Inv P o g₀ sizeA sizeB data s) (ho : o.Usable)
    (hpa : o.maxPadding ≤ normalPayloadCapacity) (ha : ∀ n, (events n).Accepts)
    (hro : ∀ n, g₀ + (runs P s events n).up.writer.sent.length + 3 < 2 ^ 64) (n : Nat) :
    Inv P o g₀ sizeA sizeB data (runs P s events n) := by
  induction n with
  | zero => exact h
  | succ n ih => exact step_inv ih ho hpa (hro n) (ha n)

end Link

/-! ## What the invariant says -/

section Consequences

variable {P : Platform} {o : FrameOptions} {g₀ sizeA sizeB : Nat} {data : List UInt8} {s : Link}
  {toWrite : List UInt8} {u : Upload}

theorem Receiving.dataOf_eq {frames : List Frame}
    (h : Receiving P o w frames carried d received got items) :
    dataOf frames = dataOf got ++ dataOf (items.map Prod.fst) := by
  rw [← dataOf_filter_visible frames, ← h.frames, dataOf_filter_visible, dataOf_append]

theorem Link.Inv.received_isPrefix (h : s.Inv P o g₀ sizeA sizeB data) : s.received <+: data := by
  obtain ⟨got, items, hr⟩ := h.receiving
  refine ⟨s.down.outbox ++ s.down.payload ++ dataOf (items.map Prod.fst) ++
    (s.up.pending ++ (s.up.inbox ++ s.toWrite)), ?_⟩
  rw [← h.sending.stream, hr.dataOf_eq, ← hr.bytes]
  simp

theorem Sending.sent_all (h : Sending o g₀ data toWrite u) (hd : u.drained = true)
    (hp : u.pending = []) : dataOf u.frames = data := by
  simp only [Upload.drained, Bool.and_eq_true, List.isEmpty_iff] at hd
  have hs := h.stream
  rwa [hp, hd.1, h.shut hd.2, List.append_nil, List.append_nil, List.append_nil] at hs

theorem Sending.close_last (h : Sending o g₀ data toWrite u)
    (hf : u.frames = before ++ closeFrame :: after) :
    after = [] ∧ dataOf before = data ∧ u.pending = [] := by
  rcases h.phase with ⟨_, hno⟩ | ⟨_, hd, hp, pre, hpr, hno⟩
  · exact absurd rfl (hno closeFrame (by simp [hf]))
  have hal := h.sent_all hd hp
  rcases List.eq_nil_or_concat after with rfl | ⟨init, last, rfl⟩
  · exact ⟨rfl, by simpa [hf, closeFrame] using hal, hp⟩
  -- the Close frame would stand before the last frame
  rw [hf, List.concat_eq_append, ← List.cons_append, ← List.append_assoc] at hpr
  have hme : closeFrame ∈ pre := by
    rw [← (List.append_inj' hpr rfl).1]
    simp
  exact absurd rfl (hno closeFrame hme)

theorem Link.Inv.received_all (h : s.Inv P o g₀ sizeA sizeB data) (he : s.eof = true) :
    s.received = data := by
  obtain ⟨hsh, hou⟩ := h.eof he
  obtain ⟨got, items, hr⟩ := h.receiving
  obtain ⟨frame, hme, hty⟩ : ∃ frame ∈ got, frame.ty = .close := by
    rcases hr.phase with hp | hp
    · rw [hsh] at hp
      simp at hp
    · exact hp.2.2.2
  have hvi : frame ∈ got.filter Frame.visible := by
    simp [hme, Frame.visible, hty]
  have hfr := hr.frames
  rw [List.filter_append] at hfr
  rcases h.sending.phase with ⟨_, hno⟩ | ⟨_, hd, hp, pre, hpr, hno⟩
  · have hi : frame ∈ s.up.frames.filter Frame.visible := hfr ▸ List.mem_append_left _ hvi
    exact absurd hty (hno frame (List.mem_of_mem_filter hi))
  rcases List.eq_nil_or_concat ((items.map Prod.fst).filter Frame.visible) with hni | ⟨init, last,
    hla⟩
  · have him : dataOf (items.map Prod.fst) = [] := by
      rw [← dataOf_filter_visible, hni, dataOf_nil]
    have hal := h.sending.sent_all hd hp
    rw [hr.dataOf_eq, him, ← hr.bytes, hou, (hr.returned hsh).2] at hal
    simpa using hal
  · -- a frame in flight behind the Close frame
    rw [hla, hpr, List.filter_append, List.concat_eq_append, ← List.append_assoc] at hfr
    have hi : frame ∈ pre.filter Frame.visible := by
      rw [← (List.append_inj' hfr rfl).1]
      exact List.mem_append_left _ hvi
    exact absurd hty (hno frame (List.mem_of_mem_filter hi))

end Consequences

end Espejismo
