import Espejismo.Data.Machine
import Espejismo.Underlay.WebSocket

/-!
# Underlay.WebSocket.Pump

The two tasks of `spawn_websocket_io` (`underlay.rs`).  The reader takes frames
off the wire and gives messages to the application; the writer puts the bytes of
the application on the wire.  The reader answers pings and closes, so both write to
the wire, under one lock that is held for a frame and for the shutdown behind the
writer's close.

The limit is the one the tasks work with (`max_frame_bytes.max(1024)`).  The wire
takes what is written until it is shut down.
-/

namespace Espejismo.Underlay

open Binary Machine

def ioBuffer : Nat := 16 * 1024

def pumpLimit (maxFrameBytes : Nat) : Nat := max maxFrameBytes 1024

inductive Task where
  | reader
  | writer
  deriving DecidableEq, Repr

/-- Where a task is: at its source, at a frame it has to send, or past its
loop. -/
inductive Phase where
  | reading
  | sending (frame : Outgoing)
  | stopped
  deriving DecidableEq, Repr

structure Sent where
  task : Task
  mask : Bytes 4
  frame : Outgoing

def Sent.bytes (role : WebSocketRole) (x : Sent) : List UInt8 := x.frame.write role x.mask

structure Pump where
  /-- What the peer sends and the reader has not taken yet. -/
  inbound : List UInt8
  seen : List WsFrame := []
  fragmentedMessage : Option (List UInt8) := none
  delivered : List UInt8 := []
  appEnded : Bool := false
  uploaded : List UInt8 := []
  reader : Phase := .reading
  writer : Phase := .reading
  /-- Who writes to the wire, with the mask of the frame. -/
  lock : Option (Task × Bytes 4) := none
  wire : List UInt8 := []
  wireShut : Bool := false
  sent : List Sent := []

/-! ## The reader -/

inductive Reaction where
  | deliver (message : List UInt8)
  | keep (message : List UInt8)
  | skip
  | reply (frame : Outgoing)
  | stop
  deriving DecidableEq, Repr

/-- The arms of the reader's loop.  A message in memory is too short for the
source's `saturating_add` to saturate. -/
def react (limit : Nat) (fragmentedMessage : Option (List UInt8)) : WsFrame → Reaction
  | .data payload => if fragmentedMessage.isSome then .stop else .deliver payload
  | .dataStart payload =>
    if fragmentedMessage.isSome || limit < payload.length then .stop else .keep payload
  | .continuation payload finalFragment =>
    match fragmentedMessage with
    | none => .stop
    | some message =>
      if limit < message.length + payload.length then .stop
      else if finalFragment then .deliver (message ++ payload)
      else .keep (message ++ payload)
  | .ping payload => .reply (.pong payload)
  | .close payload => .reply (.close payload)
  | .pong => .skip

namespace Pump

def stopReader (s : Pump) : Pump := { s with reader := .stopped, appEnded := true }

/-- The reader with the frame it has read; `appOpen` is whether the application
takes what is written to it. -/
def handle (limit : Nat) (appOpen : Bool) (s : Pump) (frame : WsFrame) : Pump :=
  match react limit s.fragmentedMessage frame with
  | .deliver message =>
    if appOpen then
      { s with fragmentedMessage := none, delivered := s.delivered ++ message }
    else { s with fragmentedMessage := none }.stopReader
  | .keep message => { s with fragmentedMessage := some message }
  | .skip => s
  | .reply frame => { s with reader := .sending frame }
  | .stop => s.stopReader

/-! ## Writing to the wire -/

def phase (s : Pump) : Task → Phase
  | .reader => s.reader
  | .writer => s.writer

def sendFailed (s : Pump) : Task → Pump
  | .reader => s.stopReader
  | .writer => { s with writer := .stopped }

/-- What a task does behind a frame: the reader goes on after a pong and stops
after a close; the writer goes on after its data, and shuts the wire down after
its close, before it gives the lock back. -/
def frameSent (s : Pump) : Task → Outgoing → Pump
  | .reader, .pong _ => { s with reader := .reading }
  | .reader, _ => s.stopReader
  | .writer, .close _ => { s with writer := .stopped, wireShut := true }
  | .writer, _ => { s with writer := .reading }

def beginFrame (role : WebSocketRole) (s : Pump) (task : Task) (mask : Bytes 4)
    (frame : Outgoing) : Pump :=
  { s with
    lock := some (task, mask)
    wire := s.wire ++ wsHeader role mask frame.opcode frame.payload.length }

def endFrame (role : WebSocketRole) (s : Pump) (task : Task) (mask : Bytes 4)
    (frame : Outgoing) : Pump :=
  { s with
    lock := none
    wire := s.wire ++ wsBody role mask frame.payload
    sent := s.sent ++ [{ task, mask, frame }] }

end Pump

inductive PumpEvent where
  /-- The reader's `read_ws_frame` returns. -/
  | frame (appOpen : Bool)
  /-- The writer's `app_reader.read` returns; no bytes are the end. -/
  | upload (bytes : List UInt8)
  | uploadFailed
  /-- A task gets the lock and writes the header of its frame. -/
  | acquire (task : Task) (mask : Bytes 4)
  /-- The holder writes the payload and gives the lock back. -/
  | release (task : Task)
  deriving DecidableEq

def Pump.step (role : WebSocketRole) (limit : Nat) (s : Pump) : PumpEvent → Option Pump
  | .frame appOpen =>
    if s.reader = .reading then
      match readWsFrame role limit s.inbound with
      | .ok (frame, rest) =>
        some ({ s with inbound := rest, seen := s.seen ++ [frame] }.handle limit appOpen frame)
      | .error _ => some s.stopReader
    else none
  | .upload bytes =>
    if s.writer = .reading ∧ bytes.length ≤ min ioBuffer limit then
      if bytes = [] then some { s with writer := .sending (.close []) }
      else some { s with uploaded := s.uploaded ++ bytes, writer := .sending (.binary bytes) }
    else none
  | .uploadFailed => if s.writer = .reading then some { s with writer := .stopped } else none
  | .acquire task mask =>
    match s.lock, s.phase task with
    | none, .sending frame =>
      if s.wireShut then some (s.sendFailed task)
      else some (s.beginFrame role task mask frame)
    | _, _ => none
  | .release task =>
    match s.lock, s.phase task with
    | some (holder, mask), .sending frame =>
      if holder = task then some ((s.endFrame role task mask frame).frameSent task frame)
      else none
    | _, _ => none

def Pump.start (inbound : List UInt8) : Pump := { inbound }

/-! ## What a step does -/

namespace Pump

inductive Transition (role : WebSocketRole) (limit : Nat) : Pump → PumpEvent → Pump → Prop
  | frame {s : Pump} {frame rest appOpen} (hp : s.reader = .reading)
      (hrd : readWsFrame role limit s.inbound = .ok (frame, rest)) :
      Transition role limit s (.frame appOpen)
        ({ s with inbound := rest, seen := s.seen ++ [frame] }.handle limit appOpen frame)
  | badFrame {s : Pump} {e appOpen} (hp : s.reader = .reading)
      (hrd : readWsFrame role limit s.inbound = .error e) :
      Transition role limit s (.frame appOpen) s.stopReader
  | upload {s : Pump} {bytes} (hp : s.writer = .reading) (hne : bytes ≠ [])
      (hlen : bytes.length ≤ min ioBuffer limit) :
      Transition role limit s (.upload bytes)
        { s with uploaded := s.uploaded ++ bytes, writer := .sending (.binary bytes) }
  | uploadEnd {s : Pump} (hp : s.writer = .reading) :
      Transition role limit s (.upload []) { s with writer := .sending (.close []) }
  | uploadFailed {s : Pump} (hp : s.writer = .reading) :
      Transition role limit s .uploadFailed { s with writer := .stopped }
  | refused {s : Pump} {task mask frame} (hlo : s.lock = none)
      (hp : s.phase task = .sending frame) (hsh : s.wireShut = true) :
      Transition role limit s (.acquire task mask) (s.sendFailed task)
  | header {s : Pump} {task mask frame} (hlo : s.lock = none)
      (hp : s.phase task = .sending frame) (hsh : s.wireShut = false) :
      Transition role limit s (.acquire task mask) (s.beginFrame role task mask frame)
  | payload {s : Pump} {task mask frame} (hlo : s.lock = some (task, mask))
      (hp : s.phase task = .sending frame) :
      Transition role limit s (.release task)
        ((s.endFrame role task mask frame).frameSent task frame)

variable {s : Pump} {frame : Outgoing}

theorem transition_of_step (h : s.step role limit e = some s') : Transition role limit s e s' := by
  cases e with
  | frame =>
    simp only [step] at h
    split at h
    · next hp =>
      split at h
      · next hrd =>
        cases h
        exact .frame hp hrd
      · next hrd =>
        cases h
        exact .badFrame hp hrd
    · contradiction
  | upload =>
    simp only [step] at h
    split at h
    · next hp =>
      split at h
      · next hni =>
        subst hni
        cases h
        exact .uploadEnd hp.1
      · next hne =>
        cases h
        exact .upload hp.1 hne hp.2
    · contradiction
  | uploadFailed =>
    simp only [step] at h
    split at h
    · next hp =>
      cases h
      exact .uploadFailed hp
    · contradiction
  | acquire =>
    simp only [step] at h
    split at h
    · next hlo hp =>
      split at h
      · next hsh =>
        cases h
        exact .refused hlo hp hsh
      · next hsh =>
        cases h
        exact .header hlo hp (Bool.eq_false_iff.mpr hsh)
    · contradiction
  | release =>
    simp only [step] at h
    split at h
    · next hlo hp =>
      split at h
      · next hho =>
        cases h
        subst hho
        exact .payload hlo hp
      · contradiction
    · contradiction

theorem step_acquire (role : WebSocketRole) (limit : Nat) (mask : Bytes 4)
    (hlo : s.lock = none) (hp : s.phase task = .sending frame) (hsh : s.wireShut = false) :
    s.step role limit (.acquire task mask) = some (s.beginFrame role task mask frame) := by
  simp only [step, hlo, hp]
  rw [if_neg (by simp [hsh])]

theorem step_release (role : WebSocketRole) (limit : Nat)
    (hlo : s.lock = some (task, mask)) (hp : s.phase task = .sending frame) :
    s.step role limit (.release task) =
      some ((s.endFrame role task mask frame).frameSent task frame) := by
  simp [step, hlo, hp]

/-! ## Who sends what -/

/-- The reader sends pongs and closes, the writer data and empty closes.  The
holder of the lock is at a frame, and the wire is shut by a writer that has
stopped. -/
structure Orderly (s : Pump) : Prop where
  reader : ∀ frame, s.reader = .sending frame →
    (∃ payload, frame = .pong payload) ∨ ∃ payload, frame = .close payload
  writer : ∀ frame, s.writer = .sending frame →
    (∃ payload, frame = .binary payload) ∨ frame = .close []
  lock : ∀ task mask, s.lock = some (task, mask) → ∃ frame, s.phase task = .sending frame
  shut : s.wireShut = true → s.writer = .stopped

theorem Orderly.start (inbound : List UInt8) : Orderly (Pump.start inbound) := by
  constructor <;> simp [Pump.start]

theorem reply_of_react {fragmentedMessage : Option (List UInt8)}
    (h : react limit fragmentedMessage f = .reply frame) :
    (∃ payload, f = .ping payload ∧ frame = .pong payload) ∨
      ∃ payload, f = .close payload ∧ frame = .close payload := by
  unfold react at h
  grind

theorem handle_wireSide (limit : Nat) (appOpen : Bool) (s : Pump) (f : WsFrame) :
    (s.handle limit appOpen f).lock = s.lock ∧ (s.handle limit appOpen f).writer = s.writer ∧
      (s.handle limit appOpen f).wireShut = s.wireShut ∧
      (s.handle limit appOpen f).wire = s.wire ∧ (s.handle limit appOpen f).sent = s.sent ∧
      (s.handle limit appOpen f).uploaded = s.uploaded := by
  unfold handle
  split
  · split <;> exact ⟨rfl, rfl, rfl, rfl, rfl, rfl⟩
  all_goals exact ⟨rfl, rfl, rfl, rfl, rfl, rfl⟩

theorem handle_reader (limit : Nat) (appOpen : Bool) (s : Pump) (f : WsFrame) :
    (s.handle limit appOpen f).reader = s.reader ∨ (s.handle limit appOpen f).reader = .stopped ∨
      (∃ payload, f = .ping payload ∧
        (s.handle limit appOpen f).reader = .sending (.pong payload)) ∨
      ∃ payload, f = .close payload ∧
        (s.handle limit appOpen f).reader = .sending (.close payload) := by
  unfold handle
  split
  · split
    · exact .inl rfl
    · exact .inr (.inl rfl)
  · exact .inl rfl
  · exact .inl rfl
  · next frame hr =>
    obtain ⟨payload, hf, rfl⟩ | ⟨payload, hf, rfl⟩ := reply_of_react hr
    · exact .inr (.inr (.inl ⟨payload, hf, rfl⟩))
    · exact .inr (.inr (.inr ⟨payload, hf, rfl⟩))
  · exact .inr (.inl rfl)

namespace Orderly

variable {s : Pump}

theorem readerMoves (hs : Orderly s) (hp : s.reader = .reading) (hlo : s'.lock = s.lock)
    (hwr : s'.writer = s.writer) (hsh : s'.wireShut = s.wireShut)
    (hre : ∀ frame, s'.reader = .sending frame →
      (∃ payload, frame = .pong payload) ∨ ∃ payload, frame = .close payload) : Orderly s' := by
  refine ⟨hre, hwr ▸ hs.writer, ?_, hsh ▸ hwr ▸ hs.shut⟩
  intro task mask hl
  obtain ⟨frame, hfr⟩ := hs.lock task mask (hlo ▸ hl)
  cases task with
  | reader => exact nomatch hp.symm.trans hfr
  | writer => exact ⟨frame, hwr.trans hfr⟩

theorem writerMoves (hs : Orderly s) (hp : s.writer = .reading) (hlo : s'.lock = s.lock)
    (hre : s'.reader = s.reader) (hsh : s'.wireShut = s.wireShut)
    (hwr : ∀ frame, s'.writer = .sending frame →
      (∃ payload, frame = .binary payload) ∨ frame = .close []) : Orderly s' := by
  refine ⟨hre ▸ hs.reader, hwr, ?_, ?_⟩
  · intro task mask hl
    obtain ⟨frame, hfr⟩ := hs.lock task mask (hlo ▸ hl)
    cases task with
    | reader => exact ⟨frame, hre.trans hfr⟩
    | writer => exact nomatch hp.symm.trans hfr
  · intro hs'
    exact nomatch hp.symm.trans (hs.shut (hsh ▸ hs'))

theorem step (hs : Orderly s) (h : s.step role limit e = some s') : Orderly s' := by
  cases transition_of_step h with
  | @frame f rest appOpen hp =>
    generalize hmi : { s with inbound := rest, seen := s.seen ++ [f] } = mid
    have hsi := handle_wireSide limit appOpen mid f
    subst hmi
    refine hs.readerMoves hp hsi.1 hsi.2.1 hsi.2.2.1 ?_
    intro frame hfr
    obtain hr | hr | ⟨payload, -, hr⟩ | ⟨payload, -, hr⟩ := handle_reader limit appOpen
      { s with inbound := rest, seen := s.seen ++ [f] } f
    · rw [hr] at hfr
      exact nomatch hp.symm.trans hfr
    · rw [hr] at hfr
      contradiction
    · rw [hr] at hfr
      exact .inl ⟨payload, (Phase.sending.inj hfr).symm⟩
    · rw [hr] at hfr
      exact .inr ⟨payload, (Phase.sending.inj hfr).symm⟩
  | badFrame hp =>
    exact hs.readerMoves hp rfl rfl rfl fun frame hfr => nomatch hfr
  | @upload bytes hp =>
    refine hs.writerMoves hp rfl rfl rfl fun frame hfr => ?_
    exact .inl ⟨bytes, (Phase.sending.inj hfr).symm⟩
  | uploadEnd hp =>
    refine hs.writerMoves hp rfl rfl rfl fun frame hfr => ?_
    exact .inr (Phase.sending.inj hfr).symm
  | uploadFailed hp =>
    exact hs.writerMoves hp rfl rfl rfl fun frame hfr => nomatch hfr
  | @refused task mask frame hl =>
    cases task with
    | reader =>
      exact
        { reader := fun _ h => nomatch h
          writer := hs.writer
          lock := fun _ _ h => nomatch hl.symm.trans h
          shut := hs.shut }
    | writer =>
      exact
        { reader := hs.reader
          writer := fun _ h => nomatch h
          lock := fun _ _ h => nomatch hl.symm.trans h
          shut := fun _ => rfl }
  | @header task mask frame hl hp =>
    refine ⟨hs.reader, hs.writer, ?_, hs.shut⟩
    intro holder mask' hhe
    obtain ⟨rfl, rfl⟩ := Prod.mk.inj (Option.some.inj hhe)
    exact ⟨frame, hp⟩
  | @payload task mask frame hl hp =>
    cases task with
    | reader =>
      obtain ⟨payload, rfl⟩ | ⟨payload, rfl⟩ := hs.reader frame hp
      all_goals exact
        { reader := fun _ h => nomatch h
          writer := hs.writer
          lock := fun _ _ h => nomatch h
          shut := hs.shut }
    | writer =>
      obtain ⟨payload, rfl⟩ | rfl := hs.writer frame hp
      · exact
          { reader := hs.reader
            writer := fun _ h => nomatch h
            lock := fun _ _ h => nomatch h
            shut := fun hsh => nomatch (hs.shut hsh).symm.trans hp }
      · exact
          { reader := hs.reader
            writer := fun _ h => nomatch h
            lock := fun _ _ h => nomatch h
            shut := fun _ => rfl }

theorem not_held (hs : s.Orderly) (hp : s.phase task = .reading) (mask : Bytes 4) :
    s.lock ≠ some (task, mask) := by
  intro hl
  obtain ⟨frame, hfr⟩ := hs.lock task mask hl
  exact nomatch hp.symm.trans hfr

end Orderly

/-! ## What is on the wire -/

/-- The frame whose header is on the wire and whose payload is not. -/
def begun (s : Pump) : Option (Bytes 4 × Outgoing) :=
  match s.lock with
  | none => none
  | some (task, mask) =>
    match s.phase task with
    | .sending frame => some (mask, frame)
    | _ => none

/-- The frames sent, and the header of one that is not complete. -/
def framed (role : WebSocketRole) (s : Pump) : List UInt8 :=
  s.sent.flatMap (·.bytes role) ++
    (s.begun.map fun b => wsHeader role b.1 b.2.opcode b.2.payload.length).getD []

structure Whole (role : WebSocketRole) (s : Pump) : Prop where
  orderly : s.Orderly
  wire : s.wire = s.framed role

variable {s' : Pump} {role : WebSocketRole}

theorem begun_of_lock_eq_none (h : s.lock = none) : s.begun = none := by
  simp [begun, h]

theorem begun_of_lock (hlo : s.lock = some (task, mask))
    (hp : s.phase task = .sending frame) : s.begun = some (mask, frame) := by
  simp [begun, hlo, hp]

theorem begun_congr (task : Task) (hlo : s'.lock = s.lock)
    (hp : ∀ other, other ≠ task → s'.phase other = s.phase other)
    (hfre : ∀ mask, s.lock ≠ some (task, mask)) : s'.begun = s.begun := by
  cases hl : s.lock with
  | none => rw [begun_of_lock_eq_none hl, begun_of_lock_eq_none (hlo.trans hl)]
  | some held =>
    obtain ⟨holder, mask⟩ := held
    have ho : holder ≠ task := by
      rintro rfl
      exact hfre mask hl
    simp [begun, hlo, hl, hp holder ho]

theorem frameSent_wireSide (s : Pump) (task : Task) (frame : Outgoing) :
    (s.frameSent task frame).lock = s.lock ∧ (s.frameSent task frame).wire = s.wire ∧
      (s.frameSent task frame).sent = s.sent := by
  cases task <;> cases frame <;> exact ⟨rfl, rfl, rfl⟩

namespace Whole

theorem start (role : WebSocketRole) (inbound : List UInt8) : Whole role (Pump.start inbound) :=
  ⟨.start inbound, rfl⟩

/-- A task that is at its source moves, and leaves the wire alone. -/
theorem moves (task : Task) (hs : Whole role s) (hp : s.phase task = .reading)
    (hlo : s'.lock = s.lock) (hw : s'.wire = s.wire) (hse : s'.sent = s.sent)
    (ho : ∀ other, other ≠ task → s'.phase other = s.phase other) :
    s'.wire = s'.framed role := by
  rw [framed, hw, hse, begun_congr task hlo ho (hs.orderly.not_held hp)]
  exact hs.wire

theorem step (hs : Whole role s) (h : s.step role limit e = some s') : Whole role s' := by
  refine ⟨hs.orderly.step h, ?_⟩
  have hre {t : Pump} (h : t.writer = s.writer) : ∀ x, x ≠ .reader → t.phase x = s.phase x :=
    fun x hx => by cases x <;> first | exact h | contradiction
  have hwr {t : Pump} (h : t.reader = s.reader) : ∀ x, x ≠ .writer → t.phase x = s.phase x :=
    fun x hx => by cases x <;> first | exact h | contradiction
  cases transition_of_step h with
  | @frame f rest appOpen hp =>
    obtain ⟨hlo, ho, -, hw, hse, -⟩ := handle_wireSide limit appOpen
      { s with inbound := rest, seen := s.seen ++ [f] } f
    exact hs.moves .reader hp hlo hw hse (hre ho)
  | badFrame hp => exact hs.moves .reader hp rfl rfl rfl (hre rfl)
  | upload hp | uploadEnd hp | uploadFailed hp =>
    exact hs.moves .writer hp rfl rfl rfl (hwr rfl)
  | @refused task mask frame hlo =>
    have hw := hs.wire
    rw [framed, begun_of_lock_eq_none hlo] at hw
    have hfre : (s.sendFailed task).begun = none := by
      cases task <;> exact begun_of_lock_eq_none hlo
    rw [framed, hfre]
    cases task <;> exact hw
  | @header task mask frame hlo hp =>
    rw [framed, begun_of_lock (s := s.beginFrame role task mask frame) rfl hp]
    simp [beginFrame, hs.wire, framed, begun_of_lock_eq_none hlo]
  | @payload task mask frame hlo hp =>
    obtain ⟨hfre, hw, hse⟩ := frameSent_wireSide (s.endFrame role task mask frame) task frame
    rw [framed, hw, hse, begun_of_lock_eq_none hfre]
    simp [endFrame, hs.wire, framed, begun_of_lock hlo hp, Sent.bytes, Outgoing.write, writeWsFrame]

end Whole

end Pump

end Espejismo.Underlay
