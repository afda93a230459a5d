import Espejismo.Data.History
import Espejismo.Transport.Copy

/-!
# Transport.Copy.Trace

What the relay of `Copy` does to its endpoints and its meter, call by call.  A run
of the task is observed through a log: what a read or a write returned, what the
meter was asked and answered, which endpoint was told to shut down.
-/

namespace Espejismo.Copy

open Machine History List

/-! ## Calls -/

inductive Call where
  | read (side : Side) (chunk : List UInt8)
  | ended (side : Side)
  | idle (side : Side)
  | readFailed (side : Side)
  | account (bytes : Nat)
  | accounted (error : Option Error)
  | write (side : Side) (bytes : List UInt8)
  | writeFailed (side : Side)
  | shutdown (side : Side)
  deriving DecidableEq

/-- What an event is to those who watch the relay from outside. -/
def reported (s : State) : Event → List Call
  | .read side chunk => [.read side chunk]
  | .ended side => [.ended side]
  | .idle side => [.idle side]
  | .readFailed side => [.readFailed side]
  | .metered error => [.accounted error]
  | .wrote n =>
    match s.phase with
    | .writing side => [.write side.other ((s.pending.of side).take n)]
    | _ => []
  | .writeFailed =>
    match s.phase with
    | .writing side => [.writeFailed side.other]
    | _ => []
  | .shutdownReturned => []

def begun (s : State) : List Call :=
  match s.phase with
  | .metering side => [.account (s.pending.of side).length]
  | .shutting side => [.shutdown side]
  | _ => []

structure Observed where
  state : State := {}
  log : List Call := []
  deriving DecidableEq

def Observed.step (o : Observed) (e : Event) : Option Observed :=
  (Copy.step o.state e).map fun s =>
    { state := s, log := o.log ++ (reported o.state e ++ begun s) }

def result (s : State) : Option (Except Error (Nat × Nat)) :=
  match s.phase with
  | .finished none => some (.ok (s.total.a, s.total.b))
  | .finished (some e) => some (.error e)
  | _ => none

variable {s s' : State} {log : List Call} {side : Side} {o o' : Observed} {e : Event}

theorem of_result_eq_ok (h : result s = some (.ok (x, y))) :
    s.phase = .finished none ∧ s.total = ⟨x, y⟩ := by
  unfold result at h
  split at h <;> cases h
  exact ⟨‹_›, rfl⟩

/-! ## Reading a log -/

def Call.bytesRead (side : Side) : Call → List UInt8
  | .read x chunk => if x = side then chunk else []
  | _ => []

def Call.bytesWritten (side : Side) : Call → List UInt8
  | .write x bytes => if x = side then bytes else []
  | _ => []

def readFrom (side : Side) (log : List Call) : List UInt8 := log.flatMap (Call.bytesRead side)

def writtenTo (side : Side) (log : List Call) : List UInt8 := log.flatMap (Call.bytesWritten side)

def chunkLengths (log : List Call) : List Nat :=
  log.filterMap fun
    | .read _ chunk => some chunk.length
    | _ => none

def meterCalls (log : List Call) : List Nat :=
  log.filterMap fun
    | .account n => some n
    | _ => none

/-- The endpoint reported end of stream or went idle. -/
def EndReported (log : List Call) (side : Side) : Prop := .ended side ∈ log ∨ .idle side ∈ log

/-- A chunk that was read from the other endpoint and that the meter let through,
as the last thing before some writes of its bytes to this one. -/
def Admitted (log : List Call) (side : Side) (chunk written : List UInt8) : Prop :=
  ∃ before parts, log = before ++
    (.read side.other chunk :: .account chunk.length :: .accounted none ::
      List.map (Call.write side) parts) ∧ written = parts.flatten

theorem Admitted.write (h : Admitted log side chunk written)
    (bytes : List UInt8) : Admitted (log ++ [.write side bytes]) side chunk (written ++ bytes) := by
  obtain ⟨before, parts, rfl, rfl⟩ := h
  exact ⟨before, parts ++ [bytes], by simp, by simp⟩

/-- When a call may be made, given the calls before it. -/
def Allowed (before : List Call) : Call → Prop
  | .read side chunk => chunk ≠ [] ∧ ¬EndReported before side
  | .account n => ∃ side chunk, before.getLast? = some (.read side chunk) ∧ n = chunk.length
  | .accounted _ => ∃ n, before.getLast? = some (.account n)
  | .write side bytes =>
    (∃ chunk written, Admitted before side chunk written ∧ written ++ bytes <+: chunk) ∧
      .shutdown side ∉ before
  | .shutdown side => EndReported before side.other
  | _ => True

section Append

variable (log calls : List Call) (side : Side)

@[simp] theorem readFrom_append :
    readFrom side (log ++ calls) = readFrom side log ++ readFrom side calls :=
  flatMap_append

@[simp] theorem writtenTo_append :
    writtenTo side (log ++ calls) = writtenTo side log ++ writtenTo side calls :=
  flatMap_append

@[simp] theorem chunkLengths_append :
    chunkLengths (log ++ calls) = chunkLengths log ++ chunkLengths calls :=
  filterMap_append

@[simp] theorem meterCalls_append :
    meterCalls (log ++ calls) = meterCalls log ++ meterCalls calls :=
  filterMap_append

@[simp] theorem endReported_append :
    EndReported (log ++ calls) side ↔ EndReported log side ∨ EndReported calls side := by
  simp [EndReported, or_or_or_comm]

end Append

/-! ## One step -/

def Phase.isFinished : Phase → Bool
  | .finished _ => true
  | _ => false

theorem begun_endSide (s : State) (side : Side) :
    begun (endSide s side) = if s.done.of side.other then [] else [.shutdown side.other] := by
  unfold endSide
  split <;> rfl

def added (s : State) (e : Event) (s' : State) : List Call := reported s e ++ begun s'

theorem Observed.step_cases (h : o.step e = some o') :
    Transition o.state e o'.state ∧ o'.log = o.log ++ added o.state e o'.state := by
  rw [Observed.step, Option.map_eq_some_iff] at h
  obtain ⟨s, hs, rfl⟩ := h
  exact ⟨transition_of_step hs, rfl⟩

section Added

variable {s s' : State} {e : Event}

theorem Transition.not_finished (h : Transition s e s') : s.phase.isFinished = false := by
  cases h <;> simp_all [Phase.isFinished]

theorem added_wrote (hp : s.phase = .writing side)
    (hp' : s'.phase = if n = (s.pending.of side).length then .waiting else .writing side) :
    added s (.wrote n) s' = [.write side.other ((s.pending.of side).take n)] := by
  have hbg : begun s' = [] := by
    by_cases hal : n = (s.pending.of side).length <;> simp [begun, hp', hal]
  simp [added, reported, hp, hbg]

theorem received_added (h : Transition s e s') (x : Side) :
    s'.received.of x = s.received.of x ++ readFrom x (added s e s') := by
  cases h with
  | @read side =>
    rcases side.eq_or_eq_other x with rfl | rfl
    · simp [added, reported, begun, readFrom, Call.bytesRead]
    · simp [added, reported, begun, readFrom, Call.bytesRead, side.ne_other]
  | ended | idle =>
    simp only [added, reported, begun_endSide]
    split <;> simp [readFrom, Call.bytesRead]
  | wrote hp => simp [added_wrote hp, readFrom, Call.bytesRead]
  | _ => simp_all [added, reported, begun, readFrom, Call.bytesRead]

theorem written_added (h : Transition s e s') (x : Side) :
    s'.written.of x = s.written.of x ++ writtenTo x (added s e s') := by
  cases h with
  | ended | idle =>
    simp only [added, reported, begun_endSide]
    split <;> simp [writtenTo, Call.bytesWritten]
  | @wrote side n hp =>
    rcases side.eq_or_eq_other x with rfl | rfl
    · simp [added_wrote hp, writtenTo, Call.bytesWritten, x.ne_other.symm]
    · simp [added_wrote hp, writtenTo, Call.bytesWritten]
  | _ => simp_all [added, reported, begun, writtenTo, Call.bytesWritten]

theorem lengths_added (h : Transition s e s') :
    chunkLengths (added s e s') = meterCalls (added s e s') := by
  cases h with
  | ended | idle =>
    simp only [added, reported, begun_endSide]
    split <;> simp [chunkLengths, meterCalls]
  | wrote hp => simp [added_wrote hp, chunkLengths, meterCalls]
  | _ => simp_all [added, reported, begun, chunkLengths, meterCalls]

theorem phase_endSide (s : State) (side : Side) :
    (endSide s side).phase =
      if s.done.of side.other then .finished none else .shutting side.other := by
  unfold endSide
  split <;> rfl

theorem done_endSide (s : State) (side : Side) :
    (endSide s side).done = if s.done.of side.other then s.done else s.done.set side true := by
  unfold endSide
  split <;> rfl

theorem endReported_added (h : Transition s e s') (hon : s'.phase.isFinished = false) (x : Side) :
    s'.done.of x = true ↔ s.done.of x = true ∨ EndReported (added s e s') x := by
  cases h with
  | @ended side _ hd | @idle side _ hd =>
    cases ho : s.done.of side.other with
    | true => simp [endSide, ho, Phase.isFinished] at hon
    | false =>
      rw [added, begun_endSide, done_endSide, ho]
      rcases side.eq_or_eq_other x with rfl | rfl
      · simp [EndReported, reported]
      · simp [EndReported, reported, side.ne_other.symm]
  | wrote hp => simp [added_wrote hp, EndReported]
  | _ => simp_all [added, reported, begun, EndReported]

theorem shutdown_added (h : Transition s e s') (x : Side) :
    s'.done.of x.other = true ↔ s.done.of x.other = true ∨ .shutdown x ∈ added s e s' := by
  cases h with
  | @ended side _ hd | @idle side _ hd =>
    rw [added, begun_endSide, done_endSide]
    cases ho : s.done.of side.other with
    | true => simp [reported]
    | false =>
      rcases side.eq_or_eq_other x with rfl | rfl
      · simp [reported, x.ne_other]
      · simp
  | wrote hp => simp [added_wrote hp]
  | _ => simp_all [added, reported, begun]

end Added

/-- How the log ends while the task meters or writes a chunk. -/
def Linked (s : State) (log : List Call) : Prop :=
  match s.phase with
  | .metering side => ∃ before,
      log = before ++ [.read side (s.pending.of side), .account (s.pending.of side).length]
  | .writing side => ∃ chunk written,
      Admitted log side.other chunk written ∧ chunk = written ++ s.pending.of side
  | _ => True

def Phase.source : Phase → Option Side
  | .metering side | .writing side => some side
  | _ => none

def uncounted (s : State) (side : Side) : Nat :=
  if s.phase = .metering side then (s.pending.of side).length else 0

structure Consistent (o : Observed) : Prop where
  received_eq : ∀ side, o.state.received.of side = readFrom side o.log
  written_eq : ∀ side, o.state.written.of side = writtenTo side o.log
  lengths_eq : chunkLengths o.log = meterCalls o.log
  linked : Linked o.state o.log
  done_iff : o.state.phase.isFinished = false →
    ∀ side, EndReported o.log side ↔ o.state.done.of side = true
  shutdown_iff : ∀ side, .shutdown side ∈ o.log ↔ o.state.done.of side.other = true
  source_open : ∀ side, o.state.phase.source = some side → o.state.done.of side = false

theorem linked_added (h : Transition s e s') (hl : Linked s log) :
    Linked s' (log ++ added s e s') := by
  cases h with
  | read => exact ⟨log, by simp [added, reported, begun]⟩
  | @ended side | @idle side =>
    simp only [Linked, phase_endSide]
    cases s.done.of side.other <;> trivial
  | readFailed | refused | writeFailed | shutdownReturned => trivial
  | @metered side hp =>
    simp only [Linked, hp] at hl
    obtain ⟨before, rfl⟩ := hl
    exact ⟨_, [], ⟨before, [], by simp [added, reported, begun], rfl⟩, rfl⟩
  | @wrote side n hp =>
    rw [added_wrote hp rfl]
    simp only [Linked, hp] at hl
    obtain ⟨chunk, written, had, rfl⟩ := hl
    by_cases hal : n = (s.pending.of side).length
    · simp [Linked, hal]
    · simp only [hal]
      exact ⟨_, _, had.write ((s.pending.of side).take n), by simp⟩

theorem source_added (h : Transition s e s')
    (hso : ∀ side, s.phase.source = some side → s.done.of side = false) :
    ∀ side, s'.phase.source = some side → s'.done.of side = false := by
  intro x hx
  cases h with
  | read hp hd => 
    cases hx
    exact hd
  | ended | idle =>
    rw [phase_endSide] at hx
    split at hx <;> cases hx
  | readFailed | refused | writeFailed | shutdownReturned => cases hx
  | metered hp =>
    cases hx
    exact hso _ (by rw [hp]; rfl)
  | wrote hp =>
    split at hx <;> cases hx
    exact hso _ (by rw [hp]; rfl)

theorem Consistent.step (hc : Consistent o) (h : o.step e = some o') : Consistent o' := by
  obtain ⟨ht, hlo⟩ := Observed.step_cases h
  have hbe := ht.not_finished
  refine ⟨fun x => ?_, fun x => ?_, ?_, ?_, fun hon x => ?_, fun x => ?_, ?_⟩
  · rw [hlo, readFrom_append, ← hc.received_eq, received_added ht]
  · rw [hlo, writtenTo_append, ← hc.written_eq, written_added ht]
  · rw [hlo, chunkLengths_append, meterCalls_append, hc.lengths_eq, lengths_added ht]
  · rw [hlo]
    exact linked_added ht hc.linked
  · rw [hlo, endReported_append, hc.done_iff hbe, endReported_added ht hon]
  · rw [hlo, mem_append, hc.shutdown_iff, shutdown_added ht]
  · exact source_added ht hc.source_open

theorem consistent_init : Consistent {} where
  received_eq side := by cases side <;> rfl
  written_eq side := by cases side <;> rfl
  lengths_eq := rfl
  linked := trivial
  done_iff _ side := by cases side <;> simp [EndReported, Both.of]
  shutdown_iff side := by cases side <;> simp [Side.other, Both.of]
  source_open := nofun

theorem each_endSide (hal : Each Allowed log) (hc : Allowed log c)
    (hed : EndReported (log ++ [c]) side) (s : State) :
    Each Allowed (log ++ ([c] ++ begun (endSide s side))) := by
  rw [begun_endSide]
  split
  · exact hal.concat hc
  · refine hal.concat_pair hc ?_
    simpa [Allowed] using hed

/-- **Each call in its place**: what a step adds to the log may be added. -/
theorem Consistent.each_added (hc : Consistent o) (h : Transition o.state e s')
    (hal : Each Allowed o.log) : Each Allowed (o.log ++ added o.state e s') := by
  cases h with
  | @read side chunk hp hd hne =>
    have hrd : Allowed o.log (.read side chunk) := by
      refine ⟨hne, ?_⟩
      rw [hc.done_iff (by rw [hp]; rfl), hd]
      nofun
    have hac : Allowed (o.log ++ [.read side chunk]) (.account chunk.length) :=
      ⟨side, chunk, by simp, rfl⟩
    simpa [added, reported, begun] using hal.concat_pair hrd hac
  | @ended side => exact each_endSide (c := .ended side) hal trivial (.inl (by simp)) _
  | @idle side => exact each_endSide (c := .idle side) hal trivial (.inr (by simp)) _
  | readFailed => exact hal.concat trivial
  | @metered side hp | @refused side _ hp =>
    have hl := hc.linked
    simp only [Linked, hp] at hl
    obtain ⟨before, hlo⟩ := hl
    refine hal.concat ⟨(o.state.pending.of side).length, ?_⟩
    rw [hlo]
    simp
  | @wrote side n hp =>
    have hl := hc.linked
    simp only [Linked, hp] at hl
    obtain ⟨chunk, written, had, rfl⟩ := hl
    rw [added_wrote hp rfl]
    refine hal.concat ⟨⟨_, written, had, ?_⟩, ?_⟩
    · rw [prefix_append_right_inj]
      exact take_prefix _ _
    · rw [hc.shutdown_iff, Side.other_other, hc.source_open side (by rw [hp]; rfl)]
      nofun
  | writeFailed hp =>
    simp only [added, reported, hp]
    exact hal.concat trivial
  | shutdownReturned => simpa [added, reported, begun] using hal

structure Counted (s : State) : Prop where
  lag : ∀ side, (s.pending.of side).length ≤ copyBufferSize
  total_eq : s.phase.isFinished = false →
    ∀ side, s.total.of side + uncounted s side = (s.received.of side).length
  finished : s.phase = .finished none →
    ∀ side, s.pending.of side = [] ∧ s.total.of side = (s.received.of side).length

namespace Counted

variable {s s' : State} {e : Event}

theorem failed (hc : Counted s) (e : Error) : Counted { s with phase := .finished (some e) } := by
  refine ⟨hc.lag, fun h => ?_, fun h => ?_⟩
  · cases h
  · cases h

theorem total_of_uncounted (hc : Counted s) (hp : s.phase = .waiting) (side : Side) :
    s.total.of side = (s.received.of side).length := by
  have := hc.total_eq (by rw [hp]; rfl) side
  simpa [uncounted, hp] using this

theorem endSide (hc : Counted s) (hf : Faithful s) (hp : s.phase = .waiting) (side : Side) :
    Counted (endSide s side) := by
  have hnn (x : Side) : s.pending.of x = [] := hf.pending_eq_nil (by rw [hp]; exact id)
  unfold Copy.endSide
  split
  · exact ⟨hc.lag, nofun, fun _ x => ⟨hnn x, hc.total_of_uncounted hp x⟩⟩
  · exact ⟨hc.lag, fun _ x => hc.total_of_uncounted hp x, nofun⟩

theorem step (hc : Counted s) (hf : Faithful s) (h : step s e = some s') : Counted s' := by
  cases transition_of_step h with
  | @read side chunk hp hd hne hle =>
    refine ⟨fun x => ?_, fun _ x => ?_, nofun⟩
    · rcases side.eq_or_eq_other x with rfl | rfl
      · simpa using hle
      · simpa using hc.lag _
    · have hx := hc.total_of_uncounted hp x
      rcases side.eq_or_eq_other x with rfl | rfl
      · simp [uncounted, hx]
      · simp [uncounted, hx, side.ne_other]
  | ended hp | idle hp => exact hc.endSide hf hp _
  | readFailed | refused | writeFailed => exact hc.failed _
  | @metered side hp =>
    refine ⟨hc.lag, fun _ x => ?_, nofun⟩
    have hx := hc.total_eq (by rw [hp]; rfl) x
    rcases side.eq_or_eq_other x with rfl | rfl
    · simpa [uncounted, hp] using hx
    · simpa [uncounted, hp, side.ne_other] using hx
  | @wrote side n hp =>
    refine ⟨fun x => ?_, fun _ x => ?_, fun h => ?_⟩
    · rcases side.eq_or_eq_other x with rfl | rfl
      · have := hc.lag x
        simp only [Both.of_set, length_drop]
        omega
      · simpa using hc.lag _
    · have hx := hc.total_eq (by rw [hp]; rfl) x
      rw [← hx]
      simp only [uncounted, hp]
      split <;> rfl
    · split at h <;> cases h
  | shutdownReturned hp =>
    refine ⟨hc.lag, fun _ x => ?_, nofun⟩
    have hx := hc.total_eq (by rw [hp]; rfl) x
    simpa [uncounted, hp] using hx

end Counted

theorem counted_init : Counted {} := by
  refine ⟨fun side => ?_, fun _ side => ?_, nofun⟩ <;> cases side <;> simp [Both.of, uncounted]

/-! ## Every run -/

structure Sound (o : Observed) : Prop where
  faithful : Faithful o.state
  counted : Counted o.state
  consistent : Consistent o
  each : Each Allowed o.log

theorem Sound.step (hs : Sound o) (h : o.step e = some o') : Sound o' := by
  obtain ⟨ht, hlo⟩ := Observed.step_cases h
  obtain ⟨s, hst, rfl⟩ := Option.map_eq_some_iff.mp h
  refine ⟨hs.faithful.step hst, hs.counted.step hs.faithful hst, hs.consistent.step h, ?_⟩
  exact hs.consistent.each_added ht hs.each

theorem sound_init : Sound {} := ⟨faithful_init, counted_init, consistent_init, each_nil⟩

theorem sound_of_reach (h : Reach Observed.step Any {} o) : Sound o :=
  h.invariant sound_init fun _ _ _ hs _ hst => hs.step hst

namespace Sound

variable {o : Observed}

theorem readFrom_eq (hs : Sound o) (side : Side) :
    readFrom side o.log = writtenTo side.other o.log ++ o.state.pending.of side := by
  rw [← hs.consistent.received_eq, ← hs.consistent.written_eq]
  exact hs.faithful.received_eq side

theorem of_result_ok (hs : Sound o) (h : result o.state = some (.ok (x, y)))
    (side : Side) : (⟨x, y⟩ : Both Nat).of side = (readFrom side o.log).length ∧
      writtenTo side.other o.log = readFrom side o.log := by
  obtain ⟨hp, hco⟩ := of_result_eq_ok h
  obtain ⟨hpe, hto⟩ := hs.counted.finished hp side
  rw [hs.consistent.received_eq, hco] at hto
  have hrd := hs.readFrom_eq side
  rw [hpe, append_nil] at hrd
  exact ⟨hto, hrd.symm⟩

end Sound

/-- **The copy is faithful**, in every run: of what was read from an endpoint, a
prefix that lacks one buffer at most was written to the other one; the meter is
asked for each chunk once, right after its read; every call is made when `Allowed`
says; and the counts of a copy that returns are those of what it moved. -/
theorem copy_faithful {o : Observed} (h : Reach Observed.step Any {} o) :
    (∀ side, writtenTo side.other o.log <+: readFrom side o.log ∧
      (readFrom side o.log).length ≤ (writtenTo side.other o.log).length + copyBufferSize) ∧
    chunkLengths o.log = meterCalls o.log ∧
    Each Allowed o.log ∧
    ∀ x y, result o.state = some (.ok (x, y)) →
      ((readFrom .a o.log).length = x ∧ writtenTo .b o.log = readFrom .a o.log) ∧
      ((readFrom .b o.log).length = y ∧ writtenTo .a o.log = readFrom .b o.log) := by
  have hs := sound_of_reach h
  refine ⟨fun side => ⟨?_, ?_⟩, hs.consistent.lengths_eq, hs.each, fun x y hok => ?_⟩
  · exact ⟨_, (hs.readFrom_eq side).symm⟩
  · rw [hs.readFrom_eq side, length_append]
    have := hs.counted.lag side
    omega
  · obtain ⟨hx, ha⟩ := hs.of_result_ok hok .a
    obtain ⟨hy, hb⟩ := hs.of_result_ok hok .b
    exact ⟨⟨hx.symm, ha⟩, ⟨hy.symm, hb⟩⟩

def shortCopy : List Event :=
  [.read .a [1, 2, 3], .metered none, .wrote 2, .wrote 1, .ended .a, .shutdownReturned, .idle .b]

theorem copy_faithful_shortCopy : ∃ o, Reach Observed.step Any {} o ∧
    result o.state = some (.ok (3, 0)) ∧ writtenTo .b o.log = readFrom .a o.log := by
  obtain ⟨o, hrc, hp, hto⟩ := exists_of_run Observed.step Any {}
    (fun o => o.state.phase = .finished none ∧ o.state.total = ⟨3, 0⟩) shortCopy
    (by decide +kernel)
  have hok : result o.state = some (.ok (3, 0)) := by simp [result, hp, hto]
  exact ⟨o, hrc, hok, ((copy_faithful hrc).2.2.2 3 0 hok).1.2⟩

/-! ## Ends of stream -/

/-- The endpoint was told to shut down, after the last byte written to it. -/
def Told (log : List Call) (side : Side) : Prop :=
  ∃ before after, log = before ++ .shutdown side :: after ∧ writtenTo side after = []

theorem writtenTo_eq_nil
    (hal : Each Allowed (before ++ .shutdown side :: later)) : writtenTo side later = [] := by
  refine flatMap_eq_nil_iff.mpr fun c hc => ?_
  obtain ⟨between, rest, rfl⟩ := append_of_mem hc
  cases c with
  | write x bytes =>
    have haw := hal (before ++ .shutdown side :: between) (.write x bytes) rest (by simp)
    have hne : x ≠ side := by
      rintro rfl
      exact haw.2 (by simp)
    simp [Call.bytesWritten, hne]
  | _ => rfl

theorem told_iff_mem (hal : Each Allowed log) (side : Side) :
    Told log side ↔ .shutdown side ∈ log := by
  constructor
  · rintro ⟨before, after, rfl, -⟩
    simp
  · intro hme
    obtain ⟨before, after, rfl⟩ := append_of_mem hme
    exact ⟨before, after, rfl, writtenTo_eq_nil hal⟩

def ReturnsOnce (o : Observed) : Prop :=
  o.state.phase = .finished none → (∀ side, EndReported o.log side) ∧
    ∃ first, o.state.done.of first = true ∧ o.state.done.of first.other = false

theorem ReturnsOnce.endSide (hc : Consistent o) (hp : o.state.phase = .waiting)
    (hd : o.state.done.of side = false) (hed : EndReported (o.log ++ [c]) side) :
    ReturnsOnce ⟨endSide o.state side, o.log ++ ([c] ++ begun (endSide o.state side))⟩ := by
  intro hre
  rw [phase_endSide] at hre
  cases ho : o.state.done.of side.other with
  | false => simp [ho] at hre
  | true =>
    have hrp := (hc.done_iff (by rw [hp]; rfl) side.other).mpr ho
    refine ⟨fun x => ?_, side.other, by simp [done_endSide, ho], by simp [done_endSide, ho, hd]⟩
    rw [← append_assoc, endReported_append]
    rcases side.eq_or_eq_other x with rfl | rfl
    · exact .inl hed
    · exact .inl (by rw [endReported_append]; exact .inl hrp)

theorem Transition.of_end (h : Transition s e s') (he : e = .ended side ∨ e = .idle side) :
    s.phase = .waiting ∧ s.done.of side = false ∧ s' = endSide s side := by
  obtain rfl | rfl := he
  · cases h
    exact ⟨‹_›, ‹_›, rfl⟩
  · cases h
    exact ⟨‹_›, ‹_›, rfl⟩

theorem returnsOnce_step (hc : Consistent o) (h : o.step e = some o') : ReturnsOnce o' := by
  obtain ⟨ht, hlo⟩ := Observed.step_cases h
  obtain ⟨s', log'⟩ := o'
  dsimp only at ht hlo
  subst hlo
  cases ht with
  | @ended side hp hd => exact .endSide hc hp hd (.inl (by simp))
  | @idle side hp hd => exact .endSide hc hp hd (.inr (by simp))
  | wrote =>
    intro hre
    split at hre <;> cases hre
  | _ => nofun

theorem returnsOnce_of_reach (h : Reach Observed.step Any {} o) : ReturnsOnce o :=
  h.invariant_of (fun _ hr => (sound_of_reach hr).consistent) nofun
    fun _ _ _ hc _ _ hst => returnsOnce_step hc hst

/-- The other endpoint is told about the end of this one exactly when it has not
ended itself; so a copy that returns has told only the one that ended last. -/
theorem end_told_iff {o : Observed} (h : Reach Observed.step Any {} o) :
    (∀ side e o', e = .ended side ∨ e = .idle side → o.step e = some o' →
      (Told o'.log side.other ↔ ¬EndReported o.log side.other)) ∧
    (∀ x y, result o.state = some (.ok (x, y)) → (∀ side, EndReported o.log side) ∧
      ∃ first, Told o.log first.other ∧ .shutdown first ∉ o.log) := by
  have hs := sound_of_reach h
  refine ⟨fun side e o' he hst => ?_, fun x y hok => ?_⟩
  · have hs' := hs.step hst
    obtain ⟨hp, hd, hsta⟩ := (Observed.step_cases hst).1.of_end he
    rw [told_iff_mem hs'.each, hs'.consistent.shutdown_iff, hsta, done_endSide,
      hs.consistent.done_iff (by rw [hp]; rfl)]
    cases o.state.done.of side.other <;> simp [hd]
  · obtain ⟨hen, first, hd, hon⟩ := returnsOnce_of_reach h (of_result_eq_ok hok).1
    refine ⟨hen, first, ?_, ?_⟩
    · rw [told_iff_mem hs.each, hs.consistent.shutdown_iff, Side.other_other, hd]
    · rw [hs.consistent.shutdown_iff, hon]
      nofun

/-- The endpoint that ends first is told nothing about the end of the other one. -/
theorem returns_without_shutdown : ∃ o, Reach Observed.step Any {} o ∧
    result o.state = some (.ok (3, 0)) ∧ .shutdown .a ∉ o.log := by
  obtain ⟨o, hrc, hp, hto, hno⟩ := exists_of_run Observed.step Any {}
    (fun o => o.state.phase = .finished none ∧ o.state.total = ⟨3, 0⟩ ∧ .shutdown .a ∉ o.log)
    shortCopy (by decide +kernel)
  exact ⟨o, hrc, by simp [result, hp, hto], hno⟩

theorem end_told_iff_shortCopy : ∃ o, Reach Observed.step Any {} o ∧
    ¬EndReported o.log .b ∧ ∃ o', o.step (.ended .a) = some o' ∧ Told o'.log .b := by
  obtain ⟨o, hrc, hno, hst⟩ := exists_of_run Observed.step Any {}
    (fun o => (.ended .b ∉ o.log ∧ .idle .b ∉ o.log) ∧ (o.step (.ended .a)).isSome)
    (shortCopy.take 4) (by decide +kernel)
  obtain ⟨o', hst⟩ := Option.isSome_iff_exists.mp hst
  have hed : ¬EndReported o.log .b := by
    rintro (hen | hid)
    · exact hno.1 hen
    · exact hno.2 hid
  exact ⟨o, hrc, hed, o', hst, ((end_told_iff hrc).1 .a _ o' (.inl rfl) hst).mpr hed⟩

end Espejismo.Copy
