import Espejismo.Transport
import Espejismo.Protocol.Framing.Lossless

/-!
# Transport.Link

One direction of a session: an application writes a byte stream to one end and
shuts it down, the upload pump sends it over a reliable connection, and the download
pump of the other end writes it to the receiving application.

What is on the connection is a `Flight`: the frames that take the reader's cursor
to the writer's, of which a part has arrived.  `Upload.Moves` says everything one
event can do to the sender, `Took` what reading a frame does to the receiver.
-/

namespace Espejismo

open Binary StreamCodec List

/-! ## The link -/

structure Link where
  /-- What the sending application has still to write. -/
  toWrite : List UInt8
  up : Upload
  /-- How many bytes of the connection have arrived. -/
  carried : Nat
  down : Download
  received : List UInt8
  eof : Bool

inductive LinkEvent where
  /-- The sending application writes up to `k` bytes, or shuts its stream down
  when none are left. -/
  | write (k : Nat)
  | upload (event : UploadEvent)
  /-- Up to `k` bytes arrive. -/
  | carry (k : Nat)
  | recv
  | deliver (k : Nat)
  /-- The receiving application reads up to `k` bytes. -/
  | appRead (k : Nat)

namespace Link

def start (wkeys rkeys : SessionKeys) (o : FrameOptions) (sizeA sizeB draw : Nat)
    (data : List UInt8) : Link :=
  { toWrite := data, up := .start wkeys o sizeA draw, carried := 0
    down := .start rkeys o sizeB, received := [], eof := false }

def write (k : Nat) (s : Link) : Link :=
  if s.toWrite = [] then { s with up := s.up.appShutdown }
  else
    let n := someOf k (min s.toWrite.length (s.up.bufferSize - s.up.inbox.length))
    { s with toWrite := s.toWrite.drop n, up := s.up.appWrite (s.toWrite.take n) }

def carry (k : Nat) (s : Link) : Link :=
  let n := someOf k (s.up.writer.wire.length - s.carried)
  { s with
    carried := s.carried + n
    down := s.down.netIn ((s.up.writer.wire.drop s.carried).take n) }

/-- `read` on the application's stream: the bytes at hand, and the end of the
stream once it is shut down and empty. -/
def appRead (k : Nat) (s : Link) : Link :=
  if s.down.outbox = [] then { s with eof := s.eof || s.down.shut }
  else
    { s with
      received := s.received ++ s.down.outbox.take (someOf k s.down.outbox.length)
      down := s.down.appRead k }

def step (P : Platform) (s : Link) : LinkEvent → Link
  | .write k => s.write k
  | .upload event => { s with up := s.up.step P event }
  | .carry k => s.carry k
  | .recv => { s with down := s.down.recv P }
  | .deliver k => { s with down := s.down.deliver k }
  | .appRead k => s.appRead k

def runs (P : Platform) (s : Link) (events : Nat → LinkEvent) : Nat → Link
  | 0 => s
  | n + 1 => (runs P s events n).step P (events n)

end Link

def UploadEvent.env : UploadEvent → SendEnv
  | .read _ _ env => env
  | .timer _ env => env

def LinkEvent.Accepts : LinkEvent → Prop
  | .upload event => event.env.Accepts
  | _ => True

/-! ## The bytes of a frame sequence -/

def dataOf (frames : List Frame) : List UInt8 :=
  frames.flatMap fun frame => if frame.ty = .data then frame.payload else []

@[simp] theorem dataOf_nil : dataOf [] = [] := rfl

@[simp] theorem dataOf_append (fs gs : List Frame) :
    dataOf (fs ++ gs) = dataOf fs ++ dataOf gs := by
  simp [dataOf]

@[simp] theorem dataOf_singleton (frame : Frame) :
    dataOf [frame] = if frame.ty = .data then frame.payload else [] := by
  simp [dataOf]

@[simp] theorem dataOf_filter_visible (frames : List Frame) :
    dataOf (frames.filter Frame.visible) = dataOf frames := by
  induction frames with
  | nil => rfl
  | cons frame frames ih =>
    rw [filter_cons]
    split
    · rw [← singleton_append, dataOf_append, ih, ← dataOf_append, singleton_append]
    · next hv =>
      have ht : frame.ty ≠ .data := by
        intro h
        simp [Frame.visible, h] at hv
      rw [ih, ← singleton_append, dataOf_append, dataOf_singleton, if_neg ht, nil_append]

def NoClose (frames : List Frame) : Prop := ∀ frame ∈ frames, frame.ty ≠ .close

@[simp] theorem noClose_append : NoClose (fs ++ gs) ↔ NoClose fs ∧ NoClose gs := by
  simp [NoClose, or_imp, forall_and]

/-! ## What is on the connection -/

/-- Between the reader and the writer stand `items`: partly arrived, partly
still to be carried. -/
structure Flight (P : Platform) (o : FrameOptions) (r : FrameReader) (carried : Nat)
    (w : FrameWriter) (items : List (Frame × Cursor)) : Prop where
  options : r.options = o
  carried_le : carried ≤ w.wire.length
  emitted : Emitted (Emits P o) r.cursor items (r.input ++ w.wire.drop carried) w.cursor

namespace Flight

variable {P : Platform} {o : FrameOptions} {r : FrameReader} {carried : Nat} {w : FrameWriter}
  {items : List (Frame × Cursor)}

theorem wrote {g₀ : Nat} (h : Flight P o r carried w items) (ho : o.Usable)
    (hopt : w.options = o) (hco : Counted g₀ w) (hro : g₀ + w'.sent.length < 2 ^ 64)
    (hw : Wrote P g₀ w w' more) : Flight P o r carried w' (items ++ more) := by
  subst hopt
  obtain ⟨_, bytes, hwi, he⟩ := hw.emitted ho hco hro
  have hl := h.carried_le
  refine ⟨h.options, by rw [hwi, length_append]; omega, ?_⟩
  have happ := h.emitted.append he
  rwa [hwi, drop_append_of_le_length hl, ← append_assoc]

theorem carry (h : Flight P o r carried w items) (hn : n ≤ w.wire.length - carried) :
    Flight P o { r with input := r.input ++
      (w.wire.drop carried).take n } (carried + n) w items := by
  have hl := h.carried_le
  refine ⟨h.options, by omega, ?_⟩
  have hsp : (w.wire.drop carried).take n ++ w.wire.drop (carried + n) = w.wire.drop carried := by
    rw [← drop_drop, take_append_drop]
  rw [append_assoc, hsp]
  exact h.emitted

/-- **One read**: it waits, because nothing is in flight or a part of the frame
has still to come, or it takes the first frame. -/
theorem read (h : Flight P o r carried w items) (ho : o.Usable) :
    ((∃ r', (readOne P).run r = .error .eof r') ∧ (items = [] ∨ carried < w.wire.length)) ∨
    ∃ x rest r', items = x :: rest ∧ (readOne P).run r = .ok x.1 r' ∧
      Flight P o r' carried w rest ∧ r'.input.length < r.input.length ∧
      r'.input.length + x.1.payload.length ≤ r.input.length := by
  obtain ⟨hopt, hl, he⟩ := h
  generalize hby : r.input ++ w.wire.drop carried = bytes at he
  generalize hcu : r.cursor = c at he
  cases he with
  | nil =>
    have hi : r.input = [] := (append_eq_nil_iff.mp hby).1
    exact .inl ⟨⟨r, readOne_nil P ho ⟨hi, hopt, hcu⟩⟩, .inl rfl⟩
  | @cons _ c' _ frame bs rest items head tail =>
    -- has the first frame arrived in full?
    have har : (∃ part, part ≠ [] ∧ bs = r.input ++ part ∧ carried < w.wire.length) ∨
        ∃ more, r.input = bs ++ more ∧ rest = more ++ w.wire.drop carried := by
      rcases append_eq_append_iff.mp hby with ⟨part, hbs, hdr⟩ | ⟨more, hi, hre⟩
      · by_cases hpa : part = []
        · subst hpa
          rw [append_nil] at hbs
          exact .inr ⟨[], by rw [hbs, append_nil], hdr.symm⟩
        · have hln := congrArg List.length hdr
          have hpo := length_pos_iff.mpr hpa
          simp only [length_drop, length_append] at hln
          exact .inl ⟨part, hpa, hbs, by omega⟩
      · exact .inr ⟨more, hi, hre⟩
    rcases har with ⟨part, hpa, rfl, hlt⟩ | ⟨more, hi, rfl⟩
    · exact .inl ⟨readOne_incomplete P hpa head hopt hcu, .inr hlt⟩
    obtain ⟨r', hru, hr'⟩ := readOne_emits P o c frame bs c' more r head ⟨hi, hopt, hcu⟩
    have hln := head.payload_le
    have hpo := head.length_pos
    refine .inr ⟨(frame, c'), items, r', rfl, hru, ⟨hr'.options, hl, ?_⟩, ?_, ?_⟩
    · rw [hr'.cursor, hr'.input]
      exact tail
    · rw [hr'.input, hi, length_append]
      omega
    · rw [hr'.input, hi, length_append]
      dsimp only
      omega

end Flight

/-! ## What the upload pump does -/

theorem someOf_le (k limit : Nat) : someOf k limit ≤ limit := Nat.min_le_right _ _

theorem someOf_pos (h : 0 < limit) : 0 < someOf k limit := by
  unfold someOf
  omega

theorem nextChunkSize_bounds {o : FrameOptions} (hs : o.isStealth = false) (draw : Nat) :
    0 < o.nextChunkSize draw ∧ o.nextChunkSize draw ≤ normalPayloadCapacity := by
  have hb : 0 < o.normalizedChunkBounds.1 ∧
      o.normalizedChunkBounds.1 ≤ o.normalizedChunkBounds.2 ∧
      o.normalizedChunkBounds.2 ≤ normalPayloadCapacity := by
    simp only [FrameOptions.normalizedChunkBounds, hs, Bool.false_eq_true, if_false,
      normalPayloadCapacity, normalMaxFrame, aeadTagLen]
    split <;> dsimp only <;> omega
  unfold FrameOptions.nextChunkSize
  dsimp only
  split
  · omega
  · have := Nat.mod_lt draw (show 0 < o.normalizedChunkBounds.2 - o.normalizedChunkBounds.1 + 1 by
      omega)
    omega

theorem payloadCapacity_pos {o : FrameOptions} (ho : o.Usable) : 0 < o.payloadCapacity := by
  unfold FrameOptions.payloadCapacity
  split
  · next hs =>
    have := FrameOptions.validateStealth_eq_ok (ho hs)
    omega
  · decide

namespace Upload

/-- What the pump takes from its queues for a frame. -/
inductive Takes (u : Upload) : Frame → Upload → Prop
  | padding : Takes u paddingFrameEmpty u
  | warmup (h : 0 < u.warmup) : Takes u paddingFrameEmpty { u with warmup := u.warmup - 1 }
  | chunk (n : Nat) (hs : u.writer.options.isStealth = false) (hn : 0 < n)
      (hl : n ≤ u.inbox.length) (hca : n ≤ normalPayloadCapacity) :
      Takes u { ty := .data, payload := u.inbox.take n } { u with inbox := u.inbox.drop n }
  | tick (n : Nat) (hs : u.writer.options.isStealth = true) (hn : 0 < n)
      (hl : n ≤ u.pending.length) (hca : n ≤ u.writer.options.payloadCapacity) :
      Takes u { ty := .data, payload := u.pending.take n } { u with pending := u.pending.drop n }

/-- The pump is done: nothing is left to send but the Close frame. -/
def Done (u : Upload) : Prop :=
  if u.writer.options.isStealth then u.pending = [] ∧ u.appClosed = true else u.drained = true

/-- **Everything one event can do** to the pump. -/
inductive Moves (P : Platform) (u : Upload) : Upload → Prop
  | idle : Moves P u u
  | closed (hs : u.writer.options.isStealth = true) (hd : u.drained = true)
      (hc : u.appClosed = false) : Moves P u { u with appClosed := true }
  | queued (n : Nat) (hs : u.writer.options.isStealth = true) (hn : 0 < n)
      (hl : n ≤ u.inbox.length) (hca : n ≤ u.writer.options.payloadCapacity)
      (hro : u.pending.length < u.writer.options.payloadCapacity * 8) :
      Moves P u { u with inbox := u.inbox.drop n, pending := u.pending ++ u.inbox.take n }
  | warmed (h : 0 < u.warmup) : Moves P u { u with warmup := u.warmup - 1 }
  | sent {env : SendEnv} {frame : Frame} {u₀ : Upload} (ha : env.Accepts)
      (takes : Takes u frame u₀) : Moves P u (u₀.send P env frame)
  | finished {env : SendEnv} (ha : env.Accepts) (hd : u.Done) : Moves P u (u.finish P env)

variable {u : Upload} {env : SendEnv}

theorem readPlain_moves (P : Platform) (hs : u.writer.options.isStealth = false) (draw k : Nat)
    (ha : env.Accepts) : Moves P u (u.readPlain P draw k env) := by
  unfold readPlain
  by_cases hd : u.drained = true
  · rw [if_pos hd]
    exact .finished ha (by simpa [Done, hs] using hd)
  rw [if_neg hd]
  cases hi : u.inbox.isEmpty with
  | true => simpa using .idle
  | false =>
    have hb := nextChunkSize_bounds hs draw
    have hpo : 0 < u.inbox.length := by
      rw [length_pos_iff]
      simpa using hi
    have hl := someOf_le k (min (u.writer.options.nextChunkSize draw) u.inbox.length)
    exact .sent ha (.chunk _ hs (someOf_pos (by omega)) (by omega) (by omega))

theorem timerPlain_moves (P : Platform) (u : Upload) (ha : env.Accepts) :
    Moves P u (u.timerPlain P env) := by
  unfold timerPlain
  split
  · exact .idle
  · exact .sent ha .padding

theorem readStealth_moves (P : Platform) (hs : u.writer.options.isStealth = true)
    (hca : 0 < u.writer.options.payloadCapacity) (k : Nat) :
    Moves P u (u.readStealth u.writer.options.payloadCapacity k) := by
  unfold readStealth
  split
  · exact .idle
  · next hon =>
    split
    · next hd =>
      exact .closed hs hd (by grind)
    · have hl := someOf_le k (min u.writer.options.payloadCapacity u.inbox.length)
      by_cases hi : u.inbox = []
      · have hze : someOf k (min u.writer.options.payloadCapacity u.inbox.length) = 0 := by
          simp [hi, someOf]
        rw [hze]
        simpa only [take_zero, append_nil] using .idle
      · have hpo := length_pos_iff.mpr hi
        exact .queued _ hs (someOf_pos (by omega)) (by omega) (by omega) (by omega)

theorem timerStealth_moves (P : Platform) (hs : u.writer.options.isStealth = true)
    (hca : 0 < u.writer.options.payloadCapacity) (budget : Bool) (ha : env.Accepts) :
    Moves P u (u.timerStealth P u.writer.options.payloadCapacity budget env) := by
  unfold timerStealth
  split
  · next hwa =>
    split
    · exact .sent ha (.warmup hwa)
    · exact .warmed hwa
  · split
    · next hp =>
      have hpo := length_pos_iff.mpr hp
      exact .sent ha (.tick _ hs (by omega) (by omega) (by omega))
    · next hp =>
      split
      · next hc => exact .finished ha (by simp_all [Done])
      · split
        · exact .sent ha .padding
        · exact .idle

theorem step_moves (P : Platform) (ho : u.writer.options.Usable)
    (ha : event.env.Accepts) : Moves P u (u.step P event) := by
  have hca := payloadCapacity_pos ho
  unfold step
  split
  · exact .idle
  cases event with
  | read draw k =>
    dsimp only
    split
    · next hs => exact readStealth_moves P hs hca k
    · next hs => exact readPlain_moves P (by simpa using hs) draw k ha
  | timer budget =>
    dsimp only
    split
    · next hs => exact timerStealth_moves P hs hca budget ha
    · exact timerPlain_moves P u ha

theorem Takes.fits (h : Takes u frame u₀)
    (ho : u.writer.options.Usable) : Fits u.writer.options frame := by
  cases h with
  | padding | warmup => exact ⟨ho, Nat.zero_le _⟩
  | chunk n hs => exact fits_of_plain hs (by simp; omega)
  | tick => exact ⟨ho, by simp; omega⟩

theorem send_ok (P : Platform) {g₀ : Nat} (ha : env.Accepts) {frame : Frame}
    (hfi : Fits u.writer.options frame) (ht : frame.ty ≠ .keyUpdate)
    (hpd : u.writer.options.maxPadding ≤ normalPayloadCapacity) (hco : Counted g₀ u.writer)
    (hro : g₀ + u.writer.sent.length + 3 < 2 ^ 64) :
    ∃ w hidden, u.send P env frame = { u with writer := w, frames := u.frames ++ [frame] } ∧
      Wrote P g₀ u.writer w (hidden ++ [(frame, w.cursor)]) ∧
      (∀ x ∈ hidden, x.1.visible = false) ∧ g₀ + w.sent.length < 2 ^ 64 := by
  obtain ⟨w, hru⟩ := send_succeeds P g₀ ha hfi hpd hco hro
  have hcs := (costs_send P env frame u.writer).1
  rw [hru, finalState_ok] at hcs
  rcases send_wrote P g₀ ha ht u.writer with ⟨e, w', hba, _⟩ | ⟨w', hidden, hok, hw, hhi⟩
  · rw [hru] at hba
    contradiction
  obtain rfl : w = w' := by
    rw [hru] at hok
    exact (EStateM.Result.ok.inj hok).2
  exact ⟨w, hidden, by simp only [send, hru], hw, hhi, by omega⟩

end Upload

/-! ## What the download pump does -/

/-- The download pump after it read `frame`: a Data frame is to be written out,
a Close frame ends the pump, the others leave no trace. -/
structure Took (d : Download) (frame : Frame) (r : FrameReader) (d' : Download) : Prop where
  reader : d'.reader = r
  netClosed : d'.netClosed = d.netClosed
  outbox : d'.outbox = d.outbox
  bufferSize : d'.bufferSize = d.bufferSize
  payload : d'.payload = dataOf [frame]
  phase : if frame.ty = .close then d'.result = some (.ok ()) ∧ d'.shut = true
    else d'.result = none ∧ d'.shut = d.shut

theorem recv_took (hon : d.result = none) (hpy : d.payload = [])
    (hru : (readOne P).run d.reader = .ok frame r) : Took d frame r (d.recv P) := by
  unfold Download.recv
  rw [hru]
  cases ht : frame.ty <;> dsimp only <;> constructor <;> simp [ht, hon, hpy]

end Espejismo
