import Mathlib.Data.List.AList
import Espejismo.Mux.Native.Stream

/-!
# Mux.Native

A session of the native multiplexer (`mux/native.rs`): `run_session` with
`handle_command` and `handle_frame`, the task that reads frames, and the handles
of the application.

A step is what happens without a suspension in between: one call on a handle, one
command or frame handled, one write to the transport.  The phases of the task are
the places where it can be suspended.  Within one poll of the `select!` the
command channel is looked at before the frame channel, and a command may arrive
between the two looks.

`transmitted` are the frames the session has begun to write, `handled` those it
has taken from the reader and `replies` the answers to `Open`; no function reads
them.
-/

namespace Espejismo.Mux

open Binary

/-! ## Configuration -/

structure NativeMuxConfig where
  maxStreams : Nat := 256
  initialWindowBytes : Nat := 1024 * 1024
  streamBufferFrames : Nat := 128
  sendQueueFrames : Nat := 64
  sessionIdleTimeout : Nat := 300 * 1000
  drainTimeout : Nat := 30 * 1000
  deriving DecidableEq, Repr

def commandChannelExtraFrames : Nat := 1024

def controlPendingExtraFrames : Nat := 1024

def commandChannelLimit (config : NativeMuxConfig) : Nat :=
  max (satAdd (satMul config.maxStreams (satAdd config.sendQueueFrames 8))
    commandChannelExtraFrames) 1

def pendingFrameLimit (config : NativeMuxConfig) : Nat :=
  max (satAdd (satMul config.maxStreams (satAdd config.sendQueueFrames 4))
    controlPendingExtraFrames) 1

def sanitizeConfig (config : NativeMuxConfig) : NativeMuxConfig where
  maxStreams := max config.maxStreams 1
  initialWindowBytes := max config.initialWindowBytes 1
  streamBufferFrames := max config.streamBufferFrames 1
  sendQueueFrames := max config.sendQueueFrames 1
  sessionIdleTimeout := max config.sessionIdleTimeout 1
  drainTimeout := max config.drainTimeout 1

/-! ## State -/

abbrev Ref := Nat

/-- Where the task `run_session` is. -/
inductive Phase where
  | flushing
  /-- In `write_frame` with these bytes left to write. -/
  | writing (rest : List UInt8) (queuedStream : Option UInt32)
  /-- In the `select!` entered at this time. -/
  | selecting (since : Nat)
  | polled (since : Nat)
  /-- In `accept_tx.send(Ok(stream))`. -/
  | accepting (stream : Ref)
  /-- In `stream.tx.send(payload)`. -/
  | delivering (stream : Ref) (payload : List UInt8)
  /-- In `accept_tx.send(Err(err))`, about to leave the loop. -/
  | reporting (err : Error)
  | ended
  | aborted
  deriving DecidableEq

structure Session where
  config : NativeMuxConfig
  /-- Every stream there has been; the table refers to them by place. -/
  handles : List NativeStream
  streams : AList fun _ : UInt32 => Ref
  /-- `next_stream_id`, wider than an id. -/
  nextStreamId : Nat
  pending : PendingFrames
  pendingPings : List UInt64
  drainingSince : Option Nat
  commands : Channel Command
  accepts : Channel (Except Error Ref)
  frames : Channel (Except Error (Option Frame))
  readerDone : Bool
  phase : Phase
  clock : Nat
  transmitted : List Frame
  handled : List Frame
  replies : List (Except Error Ref)

namespace Session

def start (firstStreamId : UInt32) (config : NativeMuxConfig) : Session :=
  let config := sanitizeConfig config
  { config
    handles := []
    streams := ∅
    nextStreamId := firstStreamId.toNat
    pending := .new (pendingFrameLimit config)
    pendingPings := []
    drainingSince := none
    commands := { capacity := commandChannelLimit config }
    accepts := { capacity := config.maxStreams }
    frames := { capacity := commandChannelExtraFrames }
    readerDone := false
    phase := .flushing
    clock := 0
    transmitted := []
    handled := []
    replies := [] }

def clientSession : NativeMuxConfig → Session := start 1

def serverSession : NativeMuxConfig → Session := start 2

def Running (S : Session) : Prop := S.phase ≠ .ended ∧ S.phase ≠ .aborted

instance (S : Session) : Decidable S.Running := inferInstanceAs (Decidable (_ ∧ _))

def setHandle (S : Session) (r : Ref) (st : NativeStream) : Session :=
  { S with handles := S.handles.set r st }

def modifyFlow (S : Session) (streamId : UInt32) (f : FlowState → FlowState) : Session :=
  { S with
    handles :=
      match S.streams.lookup streamId with
      | none => S.handles
      | some r => S.handles.modify r fun st => st.mapFlow f }

def newStream (config : NativeMuxConfig) (streamId : UInt32) (priority : StreamPriority)
    (holder : Holder) : NativeStream where
  id := streamId
  priority
  rx := { capacity := config.streamBufferFrames }
  flow := .new config.initialWindowBytes config.sendQueueFrames
  holder

def insertStream (S : Session) (st : NativeStream) : Session :=
  { S with
    handles := S.handles ++ [st]
    streams := S.streams.insert st.id S.handles.length }

def enqueueControl (kind : FrameKind) (streamId : UInt32) (payload : List UInt8) :
    EStateM Error Session Unit := do
  let S ← get
  let pending ← MonadExcept.ofExcept (S.pending.pushControl ⟨⟨kind, streamId, payload⟩, none⟩)
  set { S with pending }

def enqueueData (priority : StreamPriority) (streamId : UInt32) (payload : List UInt8) :
    EStateM Error Session Unit := do
  let S ← get
  let pending ←
    MonadExcept.ofExcept (S.pending.pushData priority ⟨⟨.data, streamId, payload⟩, some streamId⟩)
  set { S with pending }

def releaseSendSlot (S : Session) (streamId : UInt32) : Session :=
  S.modifyFlow streamId .releaseSendSlot

def markStreamClosed (S : Session) (streamId : UInt32) : Session := S.modifyFlow streamId .close

/-! ## Commands -/

inductive Effect where
  | continue
  | startDrain
  deriving DecidableEq

def allocateStreamId (nextStreamId : Nat) : Option (UInt32 × Nat) :=
  if nextStreamId ≤ u32Max then some (UInt32.ofNat nextStreamId, nextStreamId + 2) else none

def sendReply (S : Session) (reply : Except Error Ref) : Session :=
  { S with replies := S.replies ++ [reply] }

/-- `handle_command`.  A stream that is opened is the application's from the
reply on. -/
def handleCommand (command : Command) : EStateM Error Session Effect := do
  match command with
  | .open priority =>
    let S ← get
    if S.drainingSince.isSome then
      set (S.sendReply (.error (.msg "native mux is draining")))
      return .continue
    if S.config.maxStreams ≤ S.streams.entries.length then
      set (S.sendReply (.error (.msg "native mux max streams reached")))
      return .continue
    match allocateStreamId S.nextStreamId with
    | none =>
      set (S.sendReply (.error (.msg "native mux stream id exhausted")))
      return .startDrain
    | some (streamId, nextStreamId) =>
      let S := { S with nextStreamId }
      if streamId ∈ S.streams then
        set (S.sendReply (.error (.msg "native mux stream id collision")))
        return .startDrain
      set (S.insertStream (newStream S.config streamId priority .application))
      enqueueControl .open streamId [priority.toByte]
      modify fun S' => S'.sendReply (.ok S.handles.length)
      return .continue
  | .data streamId priority payload =>
    let S ← get
    if streamId ∈ S.streams then
      try enqueueData priority streamId payload
      catch err =>
        modify fun S => S.releaseSendSlot streamId
        throw err
    else modify fun S => S.releaseSendSlot streamId
    return .continue
  | .fin streamId =>
    enqueueControl .fin streamId []
    return .continue
  | .rst streamId =>
    modify fun S => { S with streams := S.streams.erase streamId }
    enqueueControl .rst streamId []
    return .continue
  | .windowUpdate streamId amount =>
    enqueueControl .windowUpdate streamId (encodeBE 4 amount.toNat)
    return .continue
  | .ping nonce =>
    modify fun S => { S with pendingPings := nonce :: S.pendingPings.erase nonce }
    enqueueControl .ping 0 (encodeBE 8 nonce.toNat)
    return .continue
  | .goaway =>
    enqueueControl .goaway 0 []
    return .startDrain

/-! ## Frames -/

/-- How far `handle_frame` gets before it has to wait. -/
inductive FrameOutcome where
  | done (effect : Effect)
  | accepting (stream : Ref)
  | delivering (stream : Ref) (payload : List UInt8)

def openPriority (payload : List UInt8) : Except Error StreamPriority :=
  match payload.head? with
  | some value => StreamPriority.tryFrom value
  | none => .ok .interactive

/-- `handle_frame`, up to its first await. -/
def handleFrame (f : Frame) : EStateM Error Session FrameOutcome := do
  let S ← get
  match f.kind with
  | .open =>
    if S.drainingSince.isSome then
      enqueueControl .rst f.streamId []
      return .done .continue
    if S.config.maxStreams ≤ S.streams.entries.length then
      enqueueControl .rst f.streamId []
      return .done .continue
    let priority ← MonadExcept.ofExcept (openPriority f.payload)
    set (S.insertStream (newStream S.config f.streamId priority .session))
    return .accepting S.handles.length
  | .data =>
    match S.streams.lookup f.streamId with
    | none =>
      enqueueControl .rst f.streamId []
      return .done .continue
    | some r => return .delivering r f.payload
  | .windowUpdate =>
    if f.payload.length ≠ 4 then throw (.msg "native mux malformed window update")
    set (S.modifyFlow f.streamId fun flow => flow.addWindow (decodeBE f.payload))
    return .done .continue
  | .fin | .rst =>
    let S := S.markStreamClosed f.streamId
    set { S with streams := S.streams.erase f.streamId }
    return .done .continue
  | .ping =>
    if f.payload.length ≠ 8 then throw (.msg "native mux malformed ping")
    let nonce := UInt64.ofNat (decodeBE f.payload)
    if nonce ∈ S.pendingPings then
      set { S with pendingPings := S.pendingPings.erase nonce }
    else enqueueControl .ping 0 f.payload
    return .done .continue
  | .goaway => return .done .startDrain
  | .unknown kind _ => throw (unknownFrameType kind)

/-! ## The loop -/

def tableRefs (S : Session) : List Ref := S.streams.entries.map fun e => e.2

/-- The task is over: its end of the channels and the table are dropped. -/
def stop (S : Session) (phase : Phase) : Session :=
  { S with
    streams := ∅
    commands := S.commands.close
    frames := S.frames.close
    readerDone := true
    phase }

/-- The code after the loop, which closes and wakes every stream of the table. -/
def leave (S : Session) : Session :=
  let closed : List NativeStream :=
    S.handles.mapIdx fun r st => if r ∈ S.tableRefs then st.mapFlow .close else st
  { S with handles := closed }.stop .ended

def shouldStop (S : Session) : Bool :=
  match S.drainingSince with
  | none => false
  | some started => S.streams.entries.isEmpty || started + S.config.drainTimeout ≤ S.clock

/-- `draining_since.get_or_insert_with(Instant::now)` when the effect asks for
it, and back to the top of the loop. -/
def continueWith (S : Session) (effect : Effect) : Session :=
  match effect with
  | .continue => { S with phase := .flushing }
  | .startDrain => { S with phase := .flushing, drainingSince := S.drainingSince.or (some S.clock) }

/-- `flush_pending` takes a frame; when none is left, the check that follows. -/
def flushNext (S : Session) : Session :=
  match S.pending.popNext with
  | (some p, pending) =>
    match writeFrame p.frame with
    | .ok bytes =>
      { S with
        pending, phase := .writing bytes p.queuedStream
        transmitted := S.transmitted ++ [p.frame] }
    | .error _ => { S with pending }.leave
  | (none, pending) =>
    if S.shouldStop then { S with pending }.leave
    else { S with pending, phase := .selecting S.clock }

def finishWrite (S : Session) (queuedStream : Option UInt32) : Session :=
  let S := { S with phase := .flushing }
  match queuedStream with
  | none => S
  | some streamId => S.releaseSendSlot streamId

def flush (S : Session) : Option Session :=
  match S.phase with
  | .flushing => some S.flushNext
  | .writing [] queuedStream => some (S.finishWrite queuedStream)
  | _ => none

def afterFrame : EStateM.Result Error Session FrameOutcome → Session
  | .ok (.done effect) S => S.continueWith effect
  | .ok (.accepting r) S => { S with phase := .accepting r }
  | .ok (.delivering r payload) S => { S with phase := .delivering r payload }
  | .error err S => { S with phase := .reporting err }

def onFrame (S : Session) (f : Frame) : Session :=
  afterFrame ((handleFrame f).run { S with handled := S.handled ++ [f] })

/-- The `select!` looks for a command.  The task holds a sender of its own
command channel, so that channel never ends. -/
def selectCommand (S : Session) (since : Nat) : Session :=
  match S.commands.items with
  | [] => { S with phase := .polled since }
  | command :: items =>
    match (handleCommand command).run { S with commands := { S.commands with items } } with
    | .ok effect S => S.continueWith effect
    | .error _ S => S.leave

/-- The `select!` looks for a frame, then at its timers. -/
def selectFrame (S : Session) (since : Nat) : Session :=
  match S.frames.items with
  | result :: items =>
    let S := { S with frames := { S.frames with items } }
    match result with
    | .ok (some f) => S.onFrame f
    | .ok none => S.leave
    | .error err => { S with phase := .reporting err }
  | [] =>
    if S.streams.entries.isEmpty ∧ S.drainingSince = none ∧
        since + S.config.sessionIdleTimeout ≤ S.clock then
      -- a full queue is ignored here
      match (enqueueControl .goaway 0 []).run S with
      | .ok _ S | .error _ S => S.continueWith .startDrain
    else if S.drainingSince.isSome ∧ since + S.config.drainTimeout ≤ S.clock then S.leave
    else { S with phase := .selecting since }

def select (S : Session) : Option Session :=
  match S.phase with
  | .selecting since => some (S.selectCommand since)
  | .polled since => some (S.selectFrame since)
  | _ => none

/-! ## Handles, channels and the reader -/

def dropOne (handles : List NativeStream) (tx : Channel Command) (r : Ref) :
    List NativeStream × Channel Command :=
  match handles[r]? with
  | none => (handles, tx)
  | some st => (handles.set r (st.drop tx).1, (st.drop tx).2)

def dropHandles (S : Session) (refs : List Ref) : Session :=
  let dropped := refs.foldl (fun p r => dropOne p.1 p.2 r) (S.handles, S.commands)
  { S with handles := dropped.1, commands := dropped.2 }

def sendAccept (S : Session) (r : Ref) : Option Session :=
  if S.accepts.live = false then
    -- the stream comes back with the error and is dropped
    some { S.dropHandles [r] with phase := .reporting (.msg "native mux accept receiver dropped") }
  else (S.accepts.trySend (.ok r)).map fun accepts => { S with accepts, phase := .flushing }

def sendPayload (S : Session) (r : Ref) (payload : List UInt8) : Option Session :=
  match S.handles[r]? with
  | none => none
  | some st =>
    if st.rx.live = false then
      some { S with phase := .reporting (.msg "native mux stream receiver dropped") }
    else
      (st.rx.trySend payload).map fun rx =>
        { S.setHandle r { st with rx } with phase := .flushing }

def sendError (S : Session) (err : Error) : Option Session :=
  if S.accepts.live = false then some S.leave
  else (S.accepts.trySend (.error err)).map fun accepts => { S with accepts }.leave

def resume (S : Session) : Option Session :=
  match S.phase with
  | .accepting r => S.sendAccept r
  | .delivering r payload => S.sendPayload r payload
  | .reporting err => S.sendError err
  | _ => none

/-- Whether the channel of a stream has its sender, which is in the table. -/
def senders (S : Session) (r : Ref) (st : NativeStream) : Bool := S.streams.lookup st.id = some r

def onHandle (S : Session) (r : Ref)
    (call : NativeStream → Channel Command → α × NativeStream × Channel Command) :
    Option (α × Session) :=
  match S.handles[r]? with
  | none => none
  | some st =>
    if st.holder = .application then
      let (a, st, commands) := call st S.commands
      some (a, { S with handles := S.handles.set r st, commands })
    else none

def pollWrite (S : Session) (r : Ref) (buf : List UInt8) :
    Option (Poll (Except Error Nat) × Session) :=
  S.onHandle r (NativeStream.pollWrite buf)

def pollRead (S : Session) (r : Ref) (capacity : Nat) :
    Option (Poll (Except Error (List UInt8)) × Session) :=
  S.onHandle r fun st => st.pollRead capacity (S.senders r st)

def pollShutdown (S : Session) (r : Ref) : Option (Poll (Except Error Unit) × Session) :=
  S.onHandle r NativeStream.pollShutdown

def accept (S : Session) : Option Session :=
  match S.accepts.live, S.accepts.items with
  | true, .ok r :: items =>
    some { S with
      accepts := { S.accepts with items }
      handles := S.handles.modify r fun st => { st with holder := .application } }
  | true, .error _ :: items => some { S with accepts := { S.accepts with items } }
  | _, _ => none

/-- `NativeSession` is dropped, and the streams nobody accepted with it. -/
def dropSession (S : Session) : Session :=
  { S.dropHandles (S.accepts.items.filterMap Except.toOption) with accepts := S.accepts.close }

/-- The task is aborted where it waits; a stream on its way to the application
is dropped with it. -/
def abort (S : Session) : Option Session :=
  if S.accepts.live then none
  else
    match S.phase with
    | .accepting r => some ((S.dropHandles [r]).stop .aborted)
    | .writing _ _ | .selecting _ | .delivering _ _ | .reporting _ => some (S.stop .aborted)
    | _ => none

def Readable : Except Error (Option Frame) → Prop
  | .ok (some f) => f.payload.length ≤ maxPayload
  | _ => True

instance : (result : Except Error (Option Frame)) → Decidable (Readable result)
  | .ok (some _) => inferInstanceAs (Decidable (_ ≤ _))
  | .ok none => inferInstanceAs (Decidable True)
  | .error _ => inferInstanceAs (Decidable True)

def endsReader : Except Error (Option Frame) → Bool
  | .ok (some _) => false
  | _ => true

def arrive (S : Session) (result : Except Error (Option Frame)) : Option Session :=
  if S.readerDone ∨ ¬ Readable result then none
  else
    (S.frames.trySend result).map fun frames => { S with frames, readerDone := endsReader result }

/-! ## Steps -/

inductive Event where
  | tick (ms : Nat)
  | openStream (priority : StreamPriority)
  | pingRtt (nonce : UInt64)
  | goaway
  | accept
  | dropSession
  | write (stream : Ref) (buf : List UInt8)
  | read (stream : Ref) (capacity : Nat)
  | shutdown (stream : Ref)
  | drop (stream : Ref)
  | flush
  /-- The transport takes bytes of the frame being written. -/
  | transmit (n : Nat)
  | writeError
  | select
  | resume
  | abort
  | arrive (result : Except Error (Option Frame))
  deriving DecidableEq

def step (S : Session) : Event → Option Session
  | .tick ms => some { S with clock := S.clock + ms }
  | .openStream priority =>
    (S.commands.trySend (.open priority)).map fun commands => { S with commands }
  | .pingRtt nonce => (S.commands.trySend (.ping nonce)).map fun commands => { S with commands }
  | .goaway => (S.commands.trySend .goaway).map fun commands => { S with commands }
  | .accept => S.accept
  | .dropSession => if S.accepts.live then some S.dropSession else none
  | .write r buf => (S.pollWrite r buf).map Prod.snd
  | .read r capacity => (S.pollRead r capacity).map Prod.snd
  | .shutdown r => (S.pollShutdown r).map Prod.snd
  | .drop r =>
    match S.handles[r]? with
    | some st => if st.holder = .application then some (S.dropHandles [r]) else none
    | none => none
  | .flush => S.flush
  | .transmit n =>
    match S.phase with
    | .writing rest queuedStream =>
      if 0 < n ∧ n ≤ rest.length then
        some { S with phase := .writing (rest.drop n) queuedStream }
      else none
    | _ => none
  | .writeError =>
    match S.phase with
    | .writing _ _ => some S.leave
    | _ => none
  | .select => S.select
  | .resume => S.resume
  | .abort => S.abort
  | .arrive result => S.arrive result

end Session

end Espejismo.Mux
