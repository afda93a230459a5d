import Espejismo.Data.Machine
import Espejismo.Error

/-!
# Transport.Copy

The relay between two endpoints (`metered_idle_copy_bidirectional` of
`transport/mod.rs`): one task that waits for bytes of either endpoint, has them
metered and writes them to the other.
-/

namespace Espejismo.Copy

open Option

/-! ## The endpoints -/

inductive Side where
  | a
  | b
  deriving DecidableEq

def Side.other : Side → Side
  | .a => .b
  | .b => .a

@[simp] theorem Side.other_other (side : Side) : side.other.other = side := by
  cases side <;> rfl

theorem Side.eq_or_eq_other (side x : Side) : x = side ∨ x = side.other := by
  cases side <;> cases x <;> simp [Side.other]

theorem Side.ne_other (side : Side) : side ≠ side.other := by
  cases side <;> simp [Side.other]

structure Both (X : Type) where
  a : X
  b : X
  deriving DecidableEq

namespace Both

variable {X : Type}

def of (p : Both X) : Side → X
  | .a => p.a
  | .b => p.b

def set (p : Both X) : Side → X → Both X
  | .a, x => { p with a := x }
  | .b, x => { p with b := x }

@[simp] theorem of_set (p : Both X) (side : Side) (x : X) : (p.set side x).of side = x := by
  cases side <;> rfl

@[simp] theorem of_set_other (p : Both X) (side : Side) (x : X) :
    (p.set side.other x).of side = p.of side := by
  cases side <;> rfl

@[simp] theorem of_other_set (p : Both X) (side : Side) (x : X) :
    (p.set side x).of side.other = p.of side.other := by
  cases side <;> rfl

end Both

/-! ## The task -/

def copyBufferSize : Nat := 256 * 1024

inductive Phase where
  | waiting
  | metering (side : Side)
  | writing (side : Side)
  | shutting (side : Side)
  | finished (error : Option Error)
  deriving DecidableEq

structure State where
  phase : Phase := .waiting
  done : Both Bool := ⟨false, false⟩
  received : Both (List UInt8) := ⟨[], []⟩
  pending : Both (List UInt8) := ⟨[], []⟩
  written : Both (List UInt8) := ⟨[], []⟩
  shut : Both Bool := ⟨false, false⟩
  total : Both Nat := ⟨0, 0⟩
  deriving DecidableEq

inductive Event where
  | read (side : Side) (chunk : List UInt8)
  | ended (side : Side)
  | idle (side : Side)
  | readFailed (side : Side)
  | metered (error : Option Error)
  | wrote (n : Nat)
  | writeFailed
  | shutdownReturned
  deriving DecidableEq

def readFailure : Side → String
  | .a => "read relay input stream"
  | .b => "read relay egress stream"

/-- An endpoint that has no more bytes: while the other one still may, it is told
so; the last one ends the copy. -/
def endSide (s : State) (side : Side) : State :=
  if s.done.of side.other then { s with phase := .finished none }
  else { s with
    phase := .shutting side.other
    done := s.done.set side true
    shut := s.shut.set side.other true }

def step (s : State) : Event → Option State
  | .read side chunk =>
    if s.phase = .waiting ∧ s.done.of side = false ∧ chunk ≠ [] ∧
        chunk.length ≤ copyBufferSize then
      some { s with
        phase := .metering side
        received := s.received.set side (s.received.of side ++ chunk)
        pending := s.pending.set side chunk }
    else none
  | .ended side | .idle side =>
    if s.phase = .waiting ∧ s.done.of side = false then some (endSide s side) else none
  | .readFailed side =>
    if s.phase = .waiting ∧ s.done.of side = false then
      some { s with phase := .finished (some (.msg (readFailure side))) }
    else none
  | .metered error =>
    match s.phase with
    | .metering side =>
      match error with
      | some e => some { s with phase := .finished (some e) }
      | none => some { s with
          phase := .writing side
          total := s.total.set side (s.total.of side + (s.pending.of side).length) }
    | _ => none
  | .wrote n =>
    match s.phase with
    | .writing side =>
      if 0 < n ∧ n ≤ (s.pending.of side).length then
        some { s with
          phase := if n = (s.pending.of side).length then .waiting else .writing side
          pending := s.pending.set side ((s.pending.of side).drop n)
          written := s.written.set side.other
            (s.written.of side.other ++ (s.pending.of side).take n) }
      else none
    | _ => none
  | .writeFailed =>
    match s.phase with
    | .writing _ => some { s with phase := .finished (some .io) }
    | _ => none
  | .shutdownReturned =>
    match s.phase with
    | .shutting _ => some { s with phase := .waiting }
    | _ => none

/-! ## One step -/

inductive Transition (s : State) : Event → State → Prop
  | read {side chunk} (hp : s.phase = .waiting) (hd : s.done.of side = false)
      (hn : chunk ≠ []) (hln : chunk.length ≤ copyBufferSize) :
      Transition s (.read side chunk) { s with
        phase := .metering side
        received := s.received.set side (s.received.of side ++ chunk)
        pending := s.pending.set side chunk }
  | ended {side} (hp : s.phase = .waiting) (hd : s.done.of side = false) :
      Transition s (.ended side) (endSide s side)
  | idle {side} (hp : s.phase = .waiting) (hd : s.done.of side = false) :
      Transition s (.idle side) (endSide s side)
  | readFailed {side} (hp : s.phase = .waiting) (hd : s.done.of side = false) :
      Transition s (.readFailed side)
        { s with phase := .finished (some (.msg (readFailure side))) }
  | metered {side} (hp : s.phase = .metering side) :
      Transition s (.metered none) { s with
        phase := .writing side
        total := s.total.set side (s.total.of side + (s.pending.of side).length) }
  | refused {side e} (hp : s.phase = .metering side) :
      Transition s (.metered (some e)) { s with phase := .finished (some e) }
  | wrote {side n} (hp : s.phase = .writing side) (hpo : 0 < n)
      (hle : n ≤ (s.pending.of side).length) :
      Transition s (.wrote n) { s with
        phase := if n = (s.pending.of side).length then .waiting else .writing side
        pending := s.pending.set side ((s.pending.of side).drop n)
        written := s.written.set side.other
          (s.written.of side.other ++ (s.pending.of side).take n) }
  | writeFailed {side} (hp : s.phase = .writing side) :
      Transition s .writeFailed { s with phase := .finished (some .io) }
  | shutdownReturned {side} (hp : s.phase = .shutting side) :
      Transition s .shutdownReturned { s with phase := .waiting }

theorem transition_of_step (h : step s e = some s') : Transition s e s' := by
  cases e with
  | read =>
    simp only [step, ite_none_right_eq_some, Option.some.injEq] at h
    obtain ⟨⟨hp, hd, hn, hln⟩, rfl⟩ := h
    exact .read hp hd hn hln
  | ended =>
    simp only [step, ite_none_right_eq_some, Option.some.injEq] at h
    obtain ⟨⟨hp, hd⟩, rfl⟩ := h
    exact .ended hp hd
  | idle =>
    simp only [step, ite_none_right_eq_some, Option.some.injEq] at h
    obtain ⟨⟨hp, hd⟩, rfl⟩ := h
    exact .idle hp hd
  | readFailed =>
    simp only [step, ite_none_right_eq_some, Option.some.injEq] at h
    obtain ⟨⟨hp, hd⟩, rfl⟩ := h
    exact .readFailed hp hd
  | metered error =>
    simp only [step] at h
    split at h
    · next hp =>
      cases error with
      | none =>
        cases h
        exact .metered hp
      | some =>
        cases h
        exact .refused hp
    · cases h
  | wrote =>
    simp only [step] at h
    split at h
    · next hp =>
      simp only [ite_none_right_eq_some, Option.some.injEq] at h
      obtain ⟨⟨hpo, hle⟩, rfl⟩ := h
      exact .wrote hp hpo hle
    · cases h
  | writeFailed =>
    simp only [step] at h
    split at h <;> cases h
    exact .writeFailed ‹_›
  | shutdownReturned =>
    simp only [step] at h
    split at h <;> cases h
    exact .shutdownReturned ‹_›

section EndSide

variable (s : State) (side : Side)

@[simp] theorem endSide_received : (endSide s side).received = s.received := by
  unfold endSide
  split <;> rfl

@[simp] theorem endSide_pending : (endSide s side).pending = s.pending := by
  unfold endSide
  split <;> rfl

@[simp] theorem endSide_written : (endSide s side).written = s.written := by
  unfold endSide
  split <;> rfl

end EndSide

theorem received_step (h : step s e = some s') :
    s'.received = match e with
      | .read side chunk => s.received.set side (s.received.of side ++ chunk)
      | _ => s.received := by
  cases transition_of_step h <;> simp

/-! ## Every run -/

/-- While the task waits it holds nothing, and otherwise bytes of one endpoint
only. -/
def Phase.holds : Phase → Side → Prop
  | .waiting, _ => False
  | .metering side, x => x = side
  | .writing side, x => x = side
  | .shutting _, _ => False
  | .finished _, _ => True

/-- What was read from an endpoint was written to the other one or is held. -/
structure Faithful (s : State) : Prop where
  received_eq : ∀ side, s.received.of side = s.written.of side.other ++ s.pending.of side
  held : ∀ side, s.pending.of side ≠ [] → s.phase.holds side

namespace Faithful

variable {s : State} {e : Event}

theorem pending_eq_nil (hs : Faithful s) (h : ¬s.phase.holds side) :
    s.pending.of side = [] :=
  Decidable.byContradiction fun hn => h (hs.held side hn)

theorem finished (hs : Faithful s) (error : Option Error) :
    Faithful { s with phase := .finished error } :=
  ⟨hs.received_eq, fun _ _ => trivial⟩

theorem endSide (hs : Faithful s) (hp : s.phase = .waiting) (side : Side) :
    Faithful (endSide s side) := by
  refine ⟨fun x => by simpa using hs.received_eq x, fun x hn => ?_⟩
  rw [endSide_pending] at hn
  have hh := hs.held x hn
  rw [hp] at hh
  cases hh

theorem step (hs : Faithful s) (h : step s e = some s') : Faithful s' := by
  cases transition_of_step h with
  | @read side chunk hp =>
    have hno (x : Side) : s.pending.of x = [] := hs.pending_eq_nil (by rw [hp]; exact id)
    constructor
    · intro x
      have hx := hs.received_eq x
      rcases side.eq_or_eq_other x with rfl | rfl
      · simp [hx, hno]
      · simpa using hx
    · intro x hx
      rcases side.eq_or_eq_other x with rfl | rfl
      · rfl
      · simp [hno] at hx
  | ended hp | idle hp => exact hs.endSide hp _
  | readFailed | refused | writeFailed => exact hs.finished _
  | metered hp =>
    refine ⟨hs.received_eq, fun x hx => ?_⟩
    have hh := hs.held x hx
    rw [hp] at hh
    exact hh
  | @wrote side n hp =>
    have hoh : s.pending.of side.other = [] := by
      apply hs.pending_eq_nil
      rw [hp]
      cases side <;> simp [Phase.holds, Side.other]
    constructor
    · intro x
      have hx := hs.received_eq x
      rcases side.eq_or_eq_other x with rfl | rfl
      · simp [hx]
      · simpa using hx
    · intro x hx
      rcases side.eq_or_eq_other x with rfl | rfl
      · have hlt : n ≠ (s.pending.of x).length := by
          rintro rfl
          simp at hx
        simp [hlt, Phase.holds]
      · simp [hoh] at hx
  | shutdownReturned hp =>
    refine ⟨hs.received_eq, fun x hx => ?_⟩
    have hh := hs.held x hx
    rw [hp] at hh
    cases hh

end Faithful

theorem faithful_init : Faithful {} := by
  constructor <;> intro side <;> cases side <;> simp [Both.of, Side.other]

end Espejismo.Copy
