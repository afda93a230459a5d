import Espejismo.Data.Channel
import Espejismo.Mux.Native.Pending

/-!
# Mux.Native.Stream

A stream of the native multiplexer as its handle sees it (`mux/native.rs`:
`FlowState`, `NativeStream` with `poll_read`, `poll_write`, `poll_shutdown` and
`Drop`).

The flow state and the receive channel, which the session's table shares, are in
one record with the handle's own fields.  A waker is a flag: set while a writer is
parked.  `written` and `obtained` record what the handle's user has had accepted
and has been given; no function reads them.
-/

namespace Espejismo.Mux

open Binary

/-! ## Flow state -/

structure FlowState where
  available : Nat
  queuedSendFrames : Nat := 0
  sendQueueLimit : Nat
  closed : Bool := false
  waker : Bool := false
  deriving DecidableEq, Repr

namespace FlowState

def new (window sendQueueLimit : Nat) : FlowState := { available := window, sendQueueLimit }

def wake (flow : FlowState) : FlowState := { flow with waker := false }

def addWindow (flow : FlowState) (amount : Nat) : FlowState :=
  { flow with available := satAdd flow.available amount }.wake

def reserveSendSlot (flow : FlowState) : Option FlowState :=
  if flow.closed then none
  else if flow.sendQueueLimit ≤ flow.queuedSendFrames then none
  else some { flow with queuedSendFrames := flow.queuedSendFrames + 1 }

def releaseSendSlot (flow : FlowState) : FlowState :=
  { flow with queuedSendFrames := flow.queuedSendFrames - 1 }.wake

def close (flow : FlowState) : FlowState := { flow with closed := true }.wake

end FlowState

/-! ## Commands -/

/-- What the handles and the control ask of the session; the reply channels of
`Open` and `Ping` are left out. -/
inductive Command where
  | open (priority : StreamPriority)
  | data (streamId : UInt32) (priority : StreamPriority) (payload : List UInt8)
  | fin (streamId : UInt32)
  | rst (streamId : UInt32)
  | windowUpdate (streamId : UInt32) (amount : UInt32)
  | ping (nonce : UInt64)
  | goaway
  deriving DecidableEq, Repr

def Command.streamId? : Command → Option UInt32
  | .data id _ _ | .fin id | .rst id | .windowUpdate id _ => some id
  | .open _ | .ping _ | .goaway => none

def Command.Small : Command → Prop
  | .data _ _ payload => payload.length ≤ maxPayload
  | _ => True

/-! ## Handles -/

inductive Holder where
  /-- With the session, until the application accepts the stream. -/
  | session
  | application
  | gone
  deriving DecidableEq, Repr

structure NativeStream where
  id : UInt32
  priority : StreamPriority
  rx : Channel (List UInt8)
  flow : FlowState
  readBuf : List UInt8 := []
  readOffset : Nat := 0
  pendingWindowUpdate : Nat := 0
  remoteClosed : Bool := false
  localClosed : Bool := false
  holder : Holder
  /-- `poll_shutdown` ended the writing, rather than the drop. -/
  shutDown : Bool := false
  written : List (List UInt8) := []
  obtained : List UInt8 := []

inductive Poll (α : Type) where
  | pending
  | ready (a : α)
  deriving DecidableEq, Repr

namespace NativeStream

def mapFlow (st : NativeStream) (g : FlowState → FlowState) : NativeStream :=
  { st with flow := g st.flow }

def unread (st : NativeStream) : List UInt8 := st.readBuf.drop st.readOffset

/-- The loop of `flush_pending_window_update`; `fuel` is the amount, of which
each round takes at least one. -/
def flushLoop (id : UInt32) : Nat → Nat → Channel Command → Channel Command
  | 0, _, tx => tx
  | fuel + 1, amount, tx =>
    if amount = 0 then tx
    else
      let chunk := min amount u32Max
      -- a refused update is ignored
      flushLoop id fuel (amount - chunk)
        ((tx.trySend (.windowUpdate id (UInt32.ofNat chunk))).getD tx)

def flushPendingWindowUpdate (st : NativeStream) (tx : Channel Command) :
    NativeStream × Channel Command :=
  ({ st with pendingWindowUpdate := 0 },
    flushLoop st.id st.pendingWindowUpdate st.pendingWindowUpdate tx)

def copyOut (capacity : Nat) (st : NativeStream) (tx : Channel Command) :
    Poll (Except Error (List UInt8)) × NativeStream × Channel Command :=
  let n := min st.unread.length capacity
  let bytes := st.unread.take n
  let st :=
    { st with
      readOffset := st.readOffset + n
      pendingWindowUpdate := satAdd st.pendingWindowUpdate n
      obtained := st.obtained ++ bytes }
  if st.readOffset = st.readBuf.length then
    (.ready (.ok bytes), { st with readBuf := [], readOffset := 0 }.flushPendingWindowUpdate tx)
  else (.ready (.ok bytes), st, tx)

/-- The loop of `poll_read` into a buffer of the given capacity; `queue` are the
payloads in the channel and `senders` tells whether its sender exists. -/
def readLoop (capacity : Nat) (senders : Bool) (tx : Channel Command) :
    List (List UInt8) → NativeStream →
      Poll (Except Error (List UInt8)) × NativeStream × Channel Command
  | queue, st =>
    if st.readOffset < st.readBuf.length then st.copyOut capacity tx
    else if st.remoteClosed then (.ready (.ok []), st.flushPendingWindowUpdate tx)
    else
      match queue with
      | payload :: queue =>
        readLoop capacity senders tx queue
          { st with rx := { st.rx with items := queue }, readBuf := payload, readOffset := 0 }
      | [] =>
        if senders then (.pending, st, tx)
        else (.ready (.ok []), { st with remoteClosed := true }.flushPendingWindowUpdate tx)

def pollRead (capacity : Nat) (senders : Bool) (st : NativeStream) (tx : Channel Command) :
    Poll (Except Error (List UInt8)) × NativeStream × Channel Command :=
  readLoop capacity senders tx st.rx.items st

def pollWrite (buf : List UInt8) (st : NativeStream) (tx : Channel Command) :
    Poll (Except Error Nat) × NativeStream × Channel Command :=
  if st.localClosed then (.ready (.error (.msg "native mux stream closed")), st, tx)
  else if buf = [] then (.ready (.ok 0), st, tx)
  else if st.flow.closed then
    (.ready (.error (.msg "native mux stream closed by peer")), st, tx)
  else
    let parked := { st with flow := { st.flow with waker := true } }
    if st.flow.available = 0 then (.pending, parked, tx)
    else
      match st.flow.reserveSendSlot with
      | none => (.pending, parked, tx)
      | some flow =>
        let n := min (min buf.length maxPayload) flow.available
        let flow := { flow with available := flow.available - n }
        match tx.trySend (.data st.id st.priority (buf.take n)) with
        | some tx =>
          (.ready (.ok n), { st with flow, written := st.written ++ [buf.take n] }, tx)
        | none =>
          (.ready (.error (.msg "native mux stopped")),
            { st with flow := flow.releaseSendSlot }, tx)

def pollShutdown (st : NativeStream) (tx : Channel Command) :
    Poll (Except Error Unit) × NativeStream × Channel Command :=
  if st.localClosed then (.ready (.ok ()), st, tx)
  else
    let st := { st with localClosed := true, shutDown := true }
    match tx.trySend (.fin st.id) with
    | some tx => (.ready (.ok ()), st, tx)
    | none => (.ready (.error (.msg "native mux stopped")), st, tx)

/-- `Drop`: the receive channel goes with the handle. -/
def drop (st : NativeStream) (tx : Channel Command) : NativeStream × Channel Command :=
  let gone := { st with holder := .gone, rx := st.rx.close, localClosed := true }
  if st.localClosed then (gone, tx)
  else (gone, (tx.trySend (.rst st.id)).getD tx)

end NativeStream

end Espejismo.Mux
