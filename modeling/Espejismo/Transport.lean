import Espejismo.Protocol.Framing

/-!
# Transport

The encrypted transport of a session (`transport/mod.rs`).  One end,
`spawn_frame_transport`, is two pumps between an application stream (a duplex of
bounded size) and the network: `upload_frames` sends what the application writes as
frames, `download_frames` writes the payloads of frames to the application.

An event of a pump is one completed await of its loop, with what it returned; one
that cannot complete in the current state changes nothing.  The delays between
ticks and the counters for the log are left out.
-/

namespace Espejismo

open Binary

/-- A count of bytes between one and what is at hand: how much a read returns
or a write takes. -/
def someOf (k limit : Nat) : Nat := min (max k 1) limit

/-! ## Upload -/

structure Upload where
  bufferSize : Nat
  inbox : List UInt8
  appShut : Bool
  writer : FrameWriter
  warmup : Nat
  /-- Stealth: read from the application and not yet sent. -/
  pending : List UInt8
  /-- Stealth: `app_closed`. -/
  appClosed : Bool
  result : Option (Except Error Unit)
  frames : List Frame

inductive UploadEvent where
  /-- The read of the application stream returned up to `k` bytes; `draw`
  chose the chunk size. -/
  | read (draw k : Nat) (env : SendEnv)
  /-- The sleep elapsed: heartbeat, warmup or tick.  `budget` is what the
  padding budget's token bucket answers where it is asked. -/
  | timer (budget : Bool) (env : SendEnv)

def paddingFrameEmpty : Frame := { ty := .padding, payload := [] }
def closeFrame : Frame := { ty := .close, payload := [] }

def stealthWarmupMinFrames : Nat := 2
def stealthWarmupMaxFrames : Nat := 5

/-- `StealthPaddingBudget::allow`; the bucket itself counts in floating point
and is an answer from outside. -/
def FrameOptions.paddingAllowed (o : FrameOptions) (budget : Bool) : Bool :=
  if !o.stealthShaperEnabled then true
  else if o.stealthPaddingBudgetBps = 0 then false
  else budget

namespace Upload

def start (keys : SessionKeys) (o : FrameOptions) (bufferSize draw : Nat) : Upload :=
  { bufferSize, inbox := [], appShut := false, writer := .new keys o
    warmup := if o.isStealth then
        stealthWarmupMinFrames + draw % (stealthWarmupMaxFrames - stealthWarmupMinFrames + 1)
      else 0
    pending := [], appClosed := false
    result := if o.isStealth then
        match o.stealthPayloadCapacity with
        | .ok _ => none
        | .error e => some (.error e)
      else none
    frames := [] }

def send (P : Platform) (env : SendEnv) (frame : Frame) (u : Upload) : Upload :=
  match (FrameWriter.send P env frame).run u.writer with
  | .ok _ w => { u with writer := w, frames := u.frames ++ [frame] }
  | .error e w => { u with writer := w, result := some (.error e) }

def finish (P : Platform) (env : SendEnv) (u : Upload) : Upload :=
  let u' := u.send P env closeFrame
  if u'.result.isSome then u' else { u' with result := some (.ok ()) }

theorem finish_returned (P : Platform) (env : SendEnv) (u : Upload) :
    (u.finish P env).result.isSome = true := by
  unfold finish
  dsimp only
  split
  · assumption
  · rfl

def drained (u : Upload) : Bool := u.inbox.isEmpty && u.appShut

/-- `upload_frames`: a chunk becomes a Data frame, the end of the stream a
Close frame. -/
def readPlain (P : Platform) (draw k : Nat) (env : SendEnv) (u : Upload) : Upload :=
  if u.drained then u.finish P env
  else if u.inbox.isEmpty then u
  else
    let n := someOf k (min (u.writer.options.nextChunkSize draw) u.inbox.length)
    { u with inbox := u.inbox.drop n }.send P env { ty := .data, payload := u.inbox.take n }

def timerPlain (P : Platform) (env : SendEnv) (u : Upload) : Upload :=
  if u.writer.options.heartbeatSecs = 0 then u else u.send P env paddingFrameEmpty

/-- `upload_stealth_frames`, the read branch: bytes queue up to the limit. -/
def readStealth (capacity k : Nat) (u : Upload) : Upload :=
  if 0 < u.warmup ∨ u.appClosed ∨ capacity * 8 ≤ u.pending.length then u
  else if u.drained then { u with appClosed := true }
  else
    let n := someOf k (min capacity u.inbox.length)
    { u with inbox := u.inbox.drop n, pending := u.pending ++ u.inbox.take n }

/-- `upload_stealth_frames`, the warmup and the tick branch. -/
def timerStealth (P : Platform) (capacity : Nat) (budget : Bool) (env : SendEnv) (u : Upload) :
    Upload :=
  if 0 < u.warmup then
    let u' := { u with warmup := u.warmup - 1 }
    if u.writer.options.paddingAllowed budget then u'.send P env paddingFrameEmpty else u'
  else if u.pending ≠ [] then
    let len := min u.pending.length capacity
    { u with pending := u.pending.drop len }.send P env
      { ty := .data, payload := u.pending.take len }
  else if u.appClosed then u.finish P env
  else if u.writer.options.paddingAllowed budget then u.send P env paddingFrameEmpty
  else u

/-- One event of the pump; a pump that has returned does nothing. -/
def step (P : Platform) (u : Upload) (event : UploadEvent) : Upload :=
  if u.result.isSome then u
  else
    let o := u.writer.options
    match event with
    | .read draw k env =>
      if o.isStealth then u.readStealth o.payloadCapacity k else u.readPlain P draw k env
    | .timer budget env =>
      if o.isStealth then u.timerStealth P o.payloadCapacity budget env
      else u.timerPlain P env

theorem writer_send (P : Platform) (env : SendEnv) (frame : Frame) (u : Upload) :
    (u.send P env frame).writer = finalState ((FrameWriter.send P env frame).run u.writer) := by
  unfold send
  cases (FrameWriter.send P env frame).run u.writer <;> rfl

theorem writer_finish (P : Platform) (env : SendEnv) (u : Upload) :
    (u.finish P env).writer = (u.send P env closeFrame).writer := by
  unfold finish
  dsimp only
  split <;> rfl

theorem writer_step (P : Platform) (u : Upload) (event : UploadEvent) :
    (u.step P event).writer = u.writer ∨
      ∃ call, (u.step P event).writer = u.writer.after P call := by
  have hs : ∀ env frame (u₀ : Upload), u₀.writer = u.writer →
      ∃ call, (u₀.send P env frame).writer = u.writer.after P call := by
    intro env frame u₀ heq
    exact ⟨(env, frame), by rw [writer_send, heq]; rfl⟩
  have hfi : ∀ env, ∃ call, (u.finish P env).writer = u.writer.after P call := by
    intro env
    rw [writer_finish]
    exact hs env closeFrame u rfl
  unfold step
  split
  · exact .inl rfl
  cases event with
  | read draw k env =>
    dsimp only [readStealth, readPlain]
    split
    · split
      · exact .inl rfl
      · split <;> exact .inl rfl
    · split
      · exact .inr (hfi env)
      · split
        · exact .inl rfl
        · exact .inr (hs env _ _ rfl)
  | timer budget env =>
    dsimp only [timerStealth, timerPlain]
    split
    · split
      · split
        · exact .inr (hs env _ _ rfl)
        · exact .inl rfl
      split
      · exact .inr (hs env _ _ rfl)
      split
      · exact .inr (hfi env)
      · split
        · exact .inr (hs env _ u rfl)
        · exact .inl rfl
    · split
      · exact .inl rfl
      · exact .inr (hs env _ u rfl)

/-- The application writes; the duplex takes what it has room for. -/
def appWrite (bytes : List UInt8) (u : Upload) : Upload :=
  if u.appShut then u
  else { u with inbox := u.inbox ++ bytes.take (u.bufferSize - u.inbox.length) }

def appShutdown (u : Upload) : Upload := { u with appShut := true }

end Upload

/-! ## Download -/

structure Download where
  bufferSize : Nat
  reader : FrameReader
  netClosed : Bool
  /-- What `write_all` of the current Data frame has still to write. -/
  payload : List UInt8
  /-- Written by the pump and not yet read by the application. -/
  outbox : List UInt8
  shut : Bool
  result : Option (Except Error Unit)

namespace Download

def start (keys : SessionKeys) (o : FrameOptions) (bufferSize : Nat) : Download :=
  { bufferSize, reader := .new [] keys o, netClosed := false, payload := [], outbox := []
    shut := false, result := none }

/-- One frame read by the loop of `recv`.  A frame that has not arrived in full
leaves the read waiting, unless the connection is closed. -/
def recv (P : Platform) (d : Download) : Download :=
  if d.result.isSome ∨ d.payload ≠ [] then d
  else
    match (readOne P).run d.reader with
    | .ok frame r =>
      match frame.ty with
      | .data => { d with reader := r, payload := frame.payload }
      | .close => { d with reader := r, shut := true, result := some (.ok ()) }
      | _ => { d with reader := r }
    | .error .eof r =>
      if d.netClosed then { d with reader := r, result := some (.error .eof) } else d
    | .error e r => { d with reader := r, result := some (.error e) }

/-- `write_all` makes progress as far as the duplex has room. -/
def deliver (k : Nat) (d : Download) : Download :=
  let n := someOf k (min d.payload.length (d.bufferSize - d.outbox.length))
  { d with payload := d.payload.drop n, outbox := d.outbox ++ d.payload.take n }

def netIn (bytes : List UInt8) (d : Download) : Download :=
  { d with reader := { d.reader with input := d.reader.input ++ bytes } }

def appRead (k : Nat) (d : Download) : Download :=
  { d with outbox := d.outbox.drop (someOf k d.outbox.length) }

end Download

/-! ## One end of a session -/

structure Endpoint where
  up : Upload
  down : Download

inductive EndpointEvent where
  | appWrite (bytes : List UInt8)
  | appShutdown
  | appRead (k : Nat)
  | upload (event : UploadEvent)
  | netIn (bytes : List UInt8)
  | netClose
  | recv
  | deliver (k : Nat)

namespace Endpoint

/-- `spawn_frame_transport`: both pumps own a clone of the keys. -/
def spawn (keys : SessionKeys) (o : FrameOptions) (bufferSize draw : Nat) : Endpoint :=
  { up := .start keys o bufferSize draw, down := .start keys o bufferSize }

/-- The stream the two halves came from is closed: `shutdown` was called on it,
or both pumps have returned and dropped their halves. -/
def streamClosed (e : Endpoint) : Bool :=
  e.down.shut || (e.up.result.isSome && e.down.result.isSome)

def step (P : Platform) (e : Endpoint) : EndpointEvent → Endpoint
  | .appWrite bytes =>
    if e.up.result.isSome && e.down.result.isSome then e
    else { e with up := e.up.appWrite bytes }
  | .appShutdown => { e with up := e.up.appShutdown }
  | .appRead k => { e with down := e.down.appRead k }
  | .upload event => { e with up := e.up.step P event }
  | .netIn bytes => { e with down := e.down.netIn bytes }
  | .netClose => { e with down := { e.down with netClosed := true } }
  | .recv => { e with down := e.down.recv P }
  | .deliver k => { e with down := e.down.deliver k }

def run (P : Platform) (e : Endpoint) (events : List EndpointEvent) : Endpoint :=
  events.foldl (step P) e

end Endpoint

end Espejismo
