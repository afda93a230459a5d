import Espejismo.Transport.Copy.Trace

/-!
# Transport.Copy.Progress

The relay of `Copy` between two endpoints with bounded buffers.  An endpoint adds
bytes for the task to read and makes room for what it writes when it likes.

One task serves both directions and writes a chunk to its end before it reads
again.  So bytes of an endpoint can be relayed exactly while that endpoint has room
for what the task holds for it (`copy_able_iff`).
-/

namespace Espejismo.Copy

open Machine List Option

/-! ## Endpoints with buffers -/

/-- How many bytes each endpoint can hold for the task to read, and how many
written to it. -/
structure Capacity where
  output : Both Nat
  input : Both Nat

structure Relay where
  copy : State := {}
  incoming : Both (List UInt8) := ⟨[], []⟩
  room : Both Nat
  deriving DecidableEq

namespace Relay

inductive Event where
  | copy (e : Copy.Event)
  | produce (side : Side) (bytes : List UInt8)
  | drain (side : Side) (n : Nat)
  deriving DecidableEq

/-- What an event of the task does to the buffers.  Bytes that are there win over
an end of stream and over the idle time. -/
def exchange (s : Relay) : Copy.Event → Option Relay
  | .read side chunk =>
    if chunk <+: s.incoming.of side then
      some { s with incoming := s.incoming.set side ((s.incoming.of side).drop chunk.length) }
    else none
  | .ended side | .idle side => if s.incoming.of side = [] then some s else none
  | .wrote n =>
    match s.copy.phase with
    | .writing side =>
      if n ≤ s.room.of side.other then
        some { s with room := s.room.set side.other (s.room.of side.other - n) }
      else none
    | _ => none
  | .readFailed _ | .metered _ | .writeFailed | .shutdownReturned => some s

def step (capacity : Capacity) (s : Relay) : Event → Option Relay
  | .copy e => (s.exchange e).bind fun s' =>
    (Copy.step s.copy e).map fun copy => { s' with copy := copy }
  | .produce side bytes =>
    if (s.incoming.of side ++ bytes).length ≤ capacity.output.of side then
      some { s with incoming := s.incoming.set side (s.incoming.of side ++ bytes) }
    else none
  | .drain side n =>
    if s.room.of side + n ≤ capacity.input.of side then
      some { s with room := s.room.set side (s.room.of side + n) }
    else none

def start (capacity : Capacity) : Relay := { room := capacity.input }

/-- What the task does by itself: the endpoints take no part, and nothing fails. -/
def Own (_ : Relay) : Event → Prop
  | .copy (.metered none) | .copy (.wrote _) | .copy .shutdownReturned => True
  | _ => False

def Moves (s : Relay) (side : Side) : Copy.Event → Prop
  | .read x _ => x = side
  | .metered none | .wrote _ => s.copy.phase.source = some side
  | _ => False

/-- Without help of the endpoints, the task comes to move bytes of this one. -/
def Able (capacity : Capacity) (s : Relay) (side : Side) : Prop :=
  ∃ t e t', Reach (step capacity) Own s t ∧ t.Moves side e ∧ step capacity t (.copy e) = some t'

variable {capacity : Capacity} {s s' : Relay} {side : Side}

/-! ## The task between its endpoints -/

theorem of_step_copy (h : step capacity s (.copy e) = some s') :
    ∃ t, s.exchange e = some t ∧ Transition s.copy e s'.copy ∧ s'.incoming = t.incoming ∧
      s'.room = t.room := by
  simp only [step, bind_eq_some_iff, map_eq_some_iff] at h
  obtain ⟨t, hexchange, copy, hc, rfl⟩ := h
  exact ⟨t, hexchange, transition_of_step hc, rfl, rfl⟩

variable {e : Event}

theorem copy_of_step (h : step capacity s e = some s') :
    s'.copy = s.copy ∨ ∃ e, Copy.step s.copy e = some s'.copy := by
  cases e with
  | copy e =>
    simp only [step, bind_eq_some_iff, map_eq_some_iff] at h
    obtain ⟨_, _, copy, hc, rfl⟩ := h
    exact .inr ⟨e, hc⟩
  | produce | drain =>
    simp only [step, ite_none_right_eq_some, Option.some.injEq] at h
    obtain ⟨_, rfl⟩ := h
    exact .inl rfl

/-- The chunk in the task's hands is not empty, and its endpoint is still read. -/
def Holding (s : State) : Prop :=
  ∀ side, s.phase.source = some side → s.pending.of side ≠ [] ∧ s.done.of side = false

theorem Holding.step {s s' : State} {e : Copy.Event} (hs : Holding s)
    (h : Copy.step s e = some s') : Holding s' := by
  have ht := transition_of_step h
  refine fun x hx => ⟨?_, source_added ht (fun side hsi => (hs side hsi).2) x hx⟩
  cases ht with
  | read hp hd hne =>
    cases hx
    simpa using hne
  | ended | idle =>
    rw [phase_endSide] at hx
    split at hx <;> cases hx
  | readFailed | refused | writeFailed | shutdownReturned => cases hx
  | metered hp =>
    cases hx
    exact (hs _ (by rw [hp]; rfl)).1
  | wrote =>
    split at hx <;> cases hx
    simp
    omega

structure Invariant (s : State) : Prop where
  faithful : Faithful s
  holding : Holding s

theorem invariant_of_reach (h : Reach (step capacity) Any (start capacity) s) :
    Invariant s.copy := by
  refine h.invariant (I := fun s => Invariant s.copy) ⟨faithful_init, nofun⟩ ?_
  intro s e s' hs _ hst
  obtain heq | ⟨e, hc⟩ := copy_of_step hst
  · rwa [heq]
  · exact ⟨hs.faithful.step hc, hs.holding.step hc⟩

/-! ## When bytes move -/

theorem able_of_moves {e : Copy.Event} (hm : s.Moves side e)
    (h : (step capacity s (.copy e)).isSome = true) : Able capacity s side := by
  obtain ⟨t, ht⟩ := isSome_iff_exists.mp h
  exact ⟨s, e, t, .refl, hm, ht⟩

theorem Able.of_own (hst : step capacity s e = some s') (how : Own s e)
    (h : Able capacity s' side) : Able capacity s side := by
  obtain ⟨t, e', t', hre, hm, ht⟩ := h
  exact ⟨t, e', t', (Reach.next .refl how hst).trans hre, hm, ht⟩

theorem able_waiting (hp : s.copy.phase = .waiting) (hd : s.copy.done.of side = false)
    (hi : s.incoming.of side ≠ []) : Able capacity s side := by
  obtain ⟨b, bytes, hb⟩ := exists_cons_of_ne_nil hi
  refine able_of_moves (e := .read side [b]) rfl ?_
  simp [step, exchange, Copy.step, hb, hp, hd, copyBufferSize]

theorem able_shutting (hp : s.copy.phase = .shutting x) (hd : s.copy.done.of side = false)
    (hi : s.incoming.of side ≠ []) : Able capacity s side := by
  have hst : step capacity s (.copy .shutdownReturned) =
      some { s with copy := { s.copy with phase := .waiting } } := by
    simp [step, exchange, Copy.step, hp]
  exact .of_own hst trivial (able_waiting rfl hd hi)

theorem able_writing_other (hp : s.copy.phase = .writing side.other)
    (hne : s.copy.pending.of side.other ≠ []) (hd : s.copy.done.of side = false)
    (hi : s.incoming.of side ≠ [])
    (hr : (s.copy.pending.of side.other).length ≤ s.room.of side) :
    Able capacity s side := by
  have hpo := length_pos_iff.mpr hne
  have hst : ∃ t, step capacity s (.copy (.wrote (s.copy.pending.of side.other).length)) = some t ∧
      t.copy.phase = .waiting ∧ t.copy.done = s.copy.done ∧ t.incoming = s.incoming := by
    simp [step, exchange, Copy.step, hp, hr, hpo]
  obtain ⟨t, hst, hwa, hd', hi'⟩ := hst
  exact .of_own hst trivial (able_waiting hwa (by rwa [hd']) (by rwa [hi']))

theorem able_metering_other (hp : s.copy.phase = .metering side.other)
    (hne : s.copy.pending.of side.other ≠ []) (hd : s.copy.done.of side = false)
    (hi : s.incoming.of side ≠ [])
    (hr : (s.copy.pending.of side.other).length ≤ s.room.of side) :
    Able capacity s side := by
  have hst : ∃ t, step capacity s (.copy (.metered none)) = some t ∧
      t.copy.phase = .writing side.other ∧ t.copy.pending = s.copy.pending ∧
      t.copy.done = s.copy.done ∧ t.incoming = s.incoming ∧ t.room = s.room := by
    simp [step, exchange, Copy.step, hp]
  obtain ⟨t, hst, hw, hpe, hd', hi', hr'⟩ := hst
  refine .of_own hst trivial (able_writing_other hw ?_ ?_ ?_ ?_)
  · rwa [hpe]
  · rwa [hd']
  · rwa [hi']
  · rwa [hpe, hr']

/-- The task holds more for an endpoint than this one has room for. -/
structure Blocked (s : Relay) (side : Side) : Prop where
  source : s.copy.phase.source = some side.other
  short : s.room.of side < (s.copy.pending.of side.other).length

namespace Blocked

theorem wrote {n : Nat} (hs : Blocked s side)
    (h : Relay.step capacity s (.copy (.wrote n)) = some s') : Blocked s' side := by
  obtain ⟨t, hexchange, ht, -, hr⟩ := of_step_copy h
  generalize hc : s'.copy = copy at ht
  cases ht with
  | @wrote x _ hp =>
    obtain rfl : x = side.other := by simpa [hp, Phase.source] using hs.source
    have hsh := hs.short
    simp only [exchange, hp, Side.other_other, ite_none_right_eq_some,
      Option.some.injEq] at hexchange
    obtain ⟨hn, rfl⟩ := hexchange
    have hrs : n ≠ (s.copy.pending.of side.other).length := by omega
    constructor
    · rw [hc]
      simp [hrs, Phase.source]
    · rw [hc, hr]
      simp only [Both.of_set, length_drop]
      omega

theorem step (hs : Blocked s side) (how : Own s e)
    (h : Relay.step capacity s e = some s') : Blocked s' side := by
  match e, how with
  | .copy (.wrote n), _ => exact hs.wrote h
  | .copy (.metered none), _ =>
    obtain ⟨t, hexchange, ht, -, hr⟩ := of_step_copy h
    cases hexchange
    generalize hc : s'.copy = copy at ht
    cases ht with
    | metered hp =>
      have hso := hs.source
      rw [hp] at hso
      exact ⟨by rw [hc]; exact hso, by rw [hc, hr]; exact hs.short⟩
  | .copy .shutdownReturned, _ =>
    obtain ⟨t, -, ht, -, -⟩ := of_step_copy h
    generalize s'.copy = copy at ht
    cases ht with
    | shutdownReturned hp =>
      have hso := hs.source
      rw [hp] at hso
      cases hso

theorem not_moves {e : Copy.Event} (hs : Blocked s side)
    (h : Relay.step capacity s (.copy e) = some s') : ¬s.Moves side e := by
  intro hm
  have hso := hs.source
  obtain ⟨t, -, ht, -, -⟩ := of_step_copy h
  match e, hm with
  | .read x chunk, _ =>
    generalize s'.copy = copy at ht
    cases ht with
    | read hp =>
      rw [hp] at hso
      cases hso
  | .metered none, hm | .wrote _, hm =>
    rw [show s.copy.phase.source = some side from hm] at hso
    exact side.ne_other (Option.some.inj hso)

end Blocked

theorem not_able_of_blocked (hs : Blocked s side) : ¬Able capacity s side := by
  rintro ⟨t, e, t', hre, hm, ht⟩
  have hbl : Blocked t side :=
    hre.invariant (I := fun s => Blocked s side) hs fun _ _ _ hs how h => hs.step how h
  exact hbl.not_moves ht hm

theorem done_of_own (how : Own s e) (h : step capacity s e = some s') :
    s'.copy.done = s.copy.done := by
  match e, how with
  | .copy (.wrote n), _ | .copy (.metered none), _ | .copy .shutdownReturned, _ =>
    obtain ⟨t, -, ht, -, -⟩ := of_step_copy h
    generalize s'.copy = copy at ht
    cases ht <;> rfl

theorem not_able_of_done (hs : Holding s.copy) (hd : s.copy.done.of side = true) :
    ¬Able capacity s side := by
  rintro ⟨t, e, t', hre, hm, ht⟩
  obtain ⟨hh, hd⟩ : Holding t.copy ∧ t.copy.done.of side = true := by
    refine hre.invariant (I := fun s => Holding s.copy ∧ s.copy.done.of side = true) ⟨hs, hd⟩ ?_
    rintro s e s' ⟨hs, hd⟩ how h
    rw [done_of_own how h]
    obtain heq | ⟨e, hc⟩ := copy_of_step h
    · exact ⟨by rwa [heq], hd⟩
    · exact ⟨hs.step hc, hd⟩
  obtain ⟨_, -, ht, -, -⟩ := of_step_copy ht
  match e, hm with
  | .read x chunk, hm =>
    obtain rfl : x = side := hm
    generalize t'.copy = copy at ht
    cases ht with
    | read _ ho => rw [hd] at ho; cases ho
  | .metered none, hm | .wrote _, hm =>
    have ho := (hh side hm).2
    rw [hd] at ho
    cases ho

theorem source_of_pending {s : State} (hs : Faithful s) (ho : s.phase.isFinished = false)
    (hne : s.pending.of x ≠ []) : s.phase.source = some x := by
  have hhe := hs.held x hne
  cases hp : s.phase with
  | metering | writing =>
    rw [hp] at hhe
    exact congrArg some hhe.symm
  | finished => simp [hp, Phase.isFinished] at ho
  | waiting | shutting =>
    rw [hp] at hhe
    cases hhe

/-- **Progress**: with bytes to read from an endpoint and room for them at the other
one, the task can move them exactly when the endpoint is not done and has room
for what the task holds for it. -/
theorem copy_able_iff (h : Reach (step capacity) Any (start capacity) s)
    (ho : s.copy.phase.isFinished = false) (hi : s.incoming.of side ≠ [])
    (hou : 0 < s.room.of side.other) :
    Able capacity s side ↔ s.copy.done.of side = false ∧
      (s.copy.pending.of side.other).length ≤ s.room.of side := by
  obtain ⟨hfa, hh⟩ := invariant_of_reach h
  constructor
  · intro hab
    refine ⟨?_, ?_⟩
    · cases hd : s.copy.done.of side with
      | false => rfl
      | true => exact absurd hab (not_able_of_done hh hd)
    · apply Nat.le_of_not_lt
      intro hsh
      have hne : s.copy.pending.of side.other ≠ [] := ne_nil_of_length_pos (by omega)
      exact not_able_of_blocked ⟨source_of_pending hfa ho hne, hsh⟩ hab
  · rintro ⟨hd, hr⟩
    cases hp : s.copy.phase with
    | waiting => exact able_waiting hp hd hi
    | shutting => exact able_shutting hp hd hi
    | finished => simp [hp, Phase.isFinished] at ho
    | metering x =>
      obtain rfl | rfl := side.eq_or_eq_other x
      · exact able_of_moves (e := .metered none) (by simp [Moves, hp, Phase.source])
          (by simp [step, exchange, Copy.step, hp])
      · exact able_metering_other hp (hh _ (by rw [hp]; rfl)).1 hd hi hr
    | writing x =>
      have hne := (hh x (by rw [hp]; rfl)).1
      obtain rfl | rfl := side.eq_or_eq_other x
      · have hpo := length_pos_iff.mpr hne
        refine able_of_moves (e := .wrote 1) (by simp [Moves, hp, Phase.source]) ?_
        have hon : 1 ≤ (s.copy.pending.of x).length := hpo
        have hon' : 1 ≤ s.room.of x.other := hou
        simp [step, exchange, Copy.step, hp, hon, hon']
      · exact able_writing_other hp hne hd hi hr

/-! ## An endpoint that waits for its output to be read -/

/-- The endpoint `side` reads only when all its output is gone, and nothing fails. -/
def OutputFirst (side : Side) (s : Relay) : Event → Prop
  | .drain x _ => x = side → s.incoming.of side = []
  | .copy .writeFailed => False
  | _ => True

/-- The task waits for the endpoint to read, and the endpoint for the task. -/
structure Deadlock (s : Relay) (side : Side) : Prop where
  writing : s.copy.phase = .writing side.other
  full : s.room.of side = 0
  unread : s.incoming.of side ≠ []

theorem Deadlock.step (hs : Deadlock s side) (hok : OutputFirst side s e)
    (h : Relay.step capacity s e = some s') : s'.copy = s.copy ∧ Deadlock s' side := by
  cases e with
  | produce x =>
    simp only [Relay.step, ite_none_right_eq_some, Option.some.injEq] at h
    obtain ⟨-, rfl⟩ := h
    refine ⟨rfl, hs.writing, hs.full, ?_⟩
    obtain rfl | rfl := side.eq_or_eq_other x
    · simp [hs.unread]
    · simp [hs.unread]
  | drain x =>
    simp only [Relay.step, ite_none_right_eq_some, Option.some.injEq] at h
    obtain ⟨-, rfl⟩ := h
    obtain rfl | rfl := side.eq_or_eq_other x
    · exact absurd (hok rfl) hs.unread
    · exact ⟨rfl, hs.writing, by simp [hs.full], hs.unread⟩
  | copy =>
    obtain ⟨t, hexchange, ht, -, -⟩ := of_step_copy h
    have hw := hs.writing
    generalize s'.copy = copy at ht
    cases ht with
    | writeFailed => cases hok
    | wrote =>
      simp only [exchange, hw, Side.other_other, ite_none_right_eq_some] at hexchange
      have := hs.full
      omega
    | _ => simp_all

/-- An endpoint that reads only after its own output is read stops the relay for
good, whatever room the other endpoint has. -/
theorem relay_deadlocks : ∃ capacity s, Reach (step capacity) Any (start capacity) s ∧
    s.copy.phase.isFinished = false ∧ s.incoming.of .b ≠ [] ∧ 0 < s.room.of .a ∧
    ¬Able capacity s .b ∧
    ∀ t, Reach (step capacity) (OutputFirst .b) s t → t.copy = s.copy := by
  obtain ⟨s, hre, hs⟩ := exists_of_run (step ⟨⟨4, 4⟩, ⟨4, 1⟩⟩) Any (start ⟨⟨4, 4⟩, ⟨4, 1⟩⟩)
    (fun s => (s.copy.phase = .writing .a ∧ s.room.of .b = 0 ∧ s.incoming.of .b ≠ []) ∧
      s.copy.pending.of .a ≠ [] ∧ 0 < s.room.of .a)
    [.produce .a [1, 2], .copy (.read .a [1, 2]), .copy (.metered none), .copy (.wrote 1),
      .produce .b [3]]
    (by decide +kernel)
  obtain ⟨⟨hw, hfu, hun⟩, hne, hr⟩ := hs
  have hbl : Blocked s .b := ⟨by rw [hw]; rfl, by rw [hfu]; exact length_pos_iff.mpr hne⟩
  refine ⟨_, s, hre, by rw [hw]; rfl, hun, hr, not_able_of_blocked hbl, ?_⟩
  intro t ht
  have hde : t.copy = s.copy ∧ Deadlock t .b := by
    refine ht.invariant (I := fun t => t.copy = s.copy ∧ Deadlock t .b) ⟨rfl, hw, hfu, hun⟩ ?_
    rintro t e t' ⟨hc, hde⟩ hok hst
    obtain ⟨hc', hde'⟩ := hde.step hok hst
    exact ⟨hc'.trans hc, hde'⟩
  exact hde.1

theorem copy_able_iff_metering : ∃ capacity s,
    Reach (step capacity) Any (start capacity) s ∧ s.copy.phase = .metering .a ∧
      s.incoming.of .b ≠ [] ∧ Able capacity s .b := by
  obtain ⟨s, hre, hp, hi, hou, hd, hr⟩ :=
    exists_of_run (step ⟨⟨4, 4⟩, ⟨4, 1⟩⟩) Any (start ⟨⟨4, 4⟩, ⟨4, 1⟩⟩)
      (fun s => s.copy.phase = .metering .a ∧ s.incoming.of .b ≠ [] ∧ 0 < s.room.of .a ∧
        s.copy.done.of .b = false ∧ (s.copy.pending.of .a).length ≤ s.room.of .b)
      [.produce .a [1], .produce .b [3], .copy (.read .a [1])] (by decide +kernel)
  refine ⟨_, s, hre, hp, hi, ?_⟩
  exact (copy_able_iff hre (by rw [hp]; rfl) hi hou).mpr ⟨hd, hr⟩

end Relay

end Espejismo.Copy
