import Espejismo.Transport.Link.Invariant
import Espejismo.Data.Fairness

/-!
# Transport.Link.Progress

A link whose tasks are scheduled again and again delivers the whole stream and
then its end.  The argument is two descents (`Fairness.Descent`): the sender's
backlog shrinks until the upload pump has returned, and then what remains to be
carried, read and delivered shrinks until the application has seen the end.
-/

namespace Espejismo

open Binary StreamCodec Fairness List

inductive Task where
  | write
  | read
  | timer
  | carry
  | recv
  | deliver
  | appRead
  deriving DecidableEq

def LinkEvent.task : LinkEvent → Task
  | .write _ => .write
  | .upload (.read _ _ _) => .read
  | .upload (.timer _ _) => .timer
  | .carry _ => .carry
  | .recv => .recv
  | .deliver _ => .deliver
  | .appRead _ => .appRead

/-! ## The sender's backlog -/

structure Backlog where
  toWrite : Nat
  inbox : Nat
  pending : Nat
  warmup : Nat
  shut : Bool
  closed : Bool
  returned : Bool

namespace Backlog

def weight (b : Backlog) : Nat :=
  3 * b.toWrite + 2 * b.inbox + b.pending + b.warmup + (!b.shut).toNat + (!b.closed).toNat

def size (b : Backlog) : Nat := if b.returned then 0 else b.weight + 1

def Can (o : FrameOptions) (room : Nat) (b : Backlog) : Task → Prop
  | .write => b.returned = false ∧ if b.toWrite = 0 then b.shut = false else b.inbox < room
  | .read => b.returned = false ∧ (0 < b.inbox ∨ b.shut = true) ∧
      (o.isStealth = true → b.warmup = 0 ∧ b.closed = false ∧ b.pending < o.payloadCapacity * 8)
  | .timer => b.returned = false ∧ o.isStealth = true ∧
      (0 < b.warmup ∨ 0 < b.pending ∨ b.closed = true)
  | _ => False

variable {b : Backlog}

theorem size_lt {b' : Backlog} (hre : b.returned = false)
    (h : b'.weight < b.weight ∨ b'.returned = true) : b'.size < b.size := by
  simp only [size, hre]
  cases hr : b'.returned with
  | true => simp
  | false => simpa [hr] using h

def Shrinks (b b' : Backlog) : Prop := b' = b ∨ b'.size < b.size

theorem shrinks_returned (returned : Bool) (hre : b.returned = false) :
    b.Shrinks { b with returned := returned } := by
  cases returned with
  | true => exact .inr (size_lt hre (.inr rfl))
  | false => exact .inl (by rw [← hre])

theorem exists_can (hcp : 0 < o.payloadCapacity)
    (hro : 0 < b.toWrite → 0 < room) (h : 0 < b.size) : ∃ task, b.Can o room task := by
  have hre : b.returned = false := by
    cases hr : b.returned with
    | true => simp [size, hr] at h
    | false => rfl
  by_cases hin : 0 < b.inbox ∨ b.shut = true
  · cases hs : o.isStealth with
    | false => exact ⟨.read, hre, hin, by simp [hs]⟩
    | true =>
      by_cases ht : 0 < b.warmup ∨ 0 < b.pending ∨ b.closed = true
      · exact ⟨.timer, hre, hs, ht⟩
      · refine ⟨.read, hre, hin, fun _ =>
          ⟨by omega, by simpa using fun hc => ht (.inr (.inr hc)), ?_⟩⟩
        omega
  · refine ⟨.write, hre, ?_⟩
    split
    · simpa using fun hs => hin (.inr hs)
    · omega

end Backlog

namespace Link

def backlog (s : Link) : Backlog :=
  { toWrite := s.toWrite.length, inbox := s.up.inbox.length, pending := s.up.pending.length
    warmup := s.up.warmup, shut := s.up.appShut, closed := s.up.appClosed
    returned := s.up.result.isSome }

theorem backlog_send (P : Platform) (s : Link) (u : Upload) (env : SendEnv) (frame : Frame) :
    ({ s with up := u.send P env frame } : Link).backlog =
      { ({ s with up := u } : Link).backlog with
        returned := (u.send P env frame).result.isSome } := by
  unfold Upload.send
  cases (FrameWriter.send P env frame).run u.writer <;> rfl

variable {P : Platform} {s : Link}

variable {room : Nat}

theorem backlog_takes (h : s.up.Takes frame u) :
    u = s.up ∨ ({ s with up := u } : Link).backlog.weight < s.backlog.weight := by
  cases h with
  | padding => exact .inl rfl
  | warmup =>
    simp only [Backlog.weight, backlog]
    omega
  | chunk | tick =>
    simp only [Backlog.weight, backlog, length_drop]
    omega

theorem backlog_sent (hre : s.backlog.returned = false)
    (h : ({ s with up := u } : Link).backlog.weight < s.backlog.weight) :
    ({ s with up := u.send P env frame } : Link).backlog.size < s.backlog.size := by
  rw [backlog_send]
  exact Backlog.size_lt hre (.inl h)

theorem backlog_finish (env : SendEnv) (hre : s.backlog.returned = false) :
    ({ s with up := s.up.finish P env } : Link).backlog.size < s.backlog.size :=
  Backlog.size_lt hre (.inr (Upload.finish_returned P env s.up))

theorem backlog_moves (hre : s.backlog.returned = false) (h : s.up.Moves P u) :
    s.backlog.Shrinks ({ s with up := u } : Link).backlog := by
  cases h with
  | idle => exact .inl rfl
  | closed hs hd hc =>
    refine .inr (Backlog.size_lt hre (.inl ?_))
    simp [Backlog.weight, backlog, hc]
  | queued =>
    refine .inr (Backlog.size_lt hre (.inl ?_))
    simp only [Backlog.weight, backlog, length_drop, length_append, length_take]
    omega
  | warmed =>
    refine .inr (Backlog.size_lt hre (.inl ?_))
    simp only [Backlog.weight, backlog]
    omega
  | sent ha ht =>
    rcases backlog_takes ht with rfl | hl
    · rw [backlog_send]
      exact Backlog.shrinks_returned _ hre
    · exact .inr (backlog_sent hre hl)
  | finished => exact .inr (backlog_finish _ hre)

theorem backlog_write
    (h : Sending o g₀ data s.toWrite s.up) (hre : s.backlog.returned = false) (k : Nat) :
    s.backlog.Shrinks (s.write k).backlog ∧
      (s.backlog.Can o s.up.bufferSize .write → (s.write k).backlog.size < s.backlog.size) := by
  by_cases hni : s.toWrite = []
  · have hwt : s.write k = { s with up := s.up.appShutdown } := by rw [write, if_pos hni]
    cases hs : s.up.appShut with
    | true =>
      refine ⟨.inl ?_, fun hca => ?_⟩
      · simp [hwt, backlog, Upload.appShutdown, hs]
      · simp [Backlog.Can, backlog, hni, hs] at hca
    | false =>
      have hl : (s.write k).backlog.size < s.backlog.size := by
        refine Backlog.size_lt hre (.inl ?_)
        simp [hwt, Backlog.weight, backlog, Upload.appShutdown, hs]
      exact ⟨.inr hl, fun _ => hl⟩
  · have hon : s.up.appShut = false := by
      cases hs : s.up.appShut with
      | true => exact absurd (h.shut hs) hni
      | false => rfl
    obtain ⟨n, hn, hpo, hwt⟩ := write_open hni hon k
    have hl (h0 : 0 < n) : (s.write k).backlog.size < s.backlog.size := by
      refine Backlog.size_lt hre (.inl ?_)
      simp only [hwt, Backlog.weight, backlog, length_drop, length_append, length_take]
      omega
    refine ⟨?_, fun hca => hl (hpo ?_)⟩
    · rcases Nat.eq_zero_or_pos n with rfl | h0
      · exact .inl (by simp [hwt])
      · exact .inr (hl h0)
    · have hln : s.backlog.toWrite ≠ 0 := by simpa [backlog] using hni
      have hro := hca.2
      rw [if_neg hln] at hro
      exact hro

theorem backlog_read (hca : s.backlog.Can s.up.writer.options room .read) (draw k : Nat)
    (env : SendEnv) :
    ({ s with up := s.up.step P (.read draw k env) } : Link).backlog.size < s.backlog.size := by
  obtain ⟨hre, hrd, hst⟩ := hca
  have hon : s.up.result.isSome = false := hre
  have hpo (hd : s.up.drained ≠ true) : 0 < s.up.inbox.length := by
    simp only [Upload.drained, ne_eq, Bool.and_eq_true, List.isEmpty_iff, not_and] at hd
    rcases hrd with hin | hsh
    · exact hin
    · exact List.length_pos_iff.mpr fun hni => hd hni hsh
  cases hs : s.up.writer.options.isStealth with
  | false =>
    simp only [Upload.step, hon, hs, Upload.readPlain]
    by_cases hd : s.up.drained = true
    · rw [if_pos hd]
      exact backlog_finish env hre
    have hin := hpo hd
    have hne : s.up.inbox.isEmpty = false := by simpa using List.length_pos_iff.mp hin
    have hb := nextChunkSize_bounds hs draw
    have hn := someOf_pos (k := k)
      (show 0 < min (s.up.writer.options.nextChunkSize draw) s.up.inbox.length by omega)
    rw [if_neg hd, hne]
    refine backlog_sent hre ?_
    simp only [Backlog.weight, backlog, List.length_drop]
    omega
  | true =>
    obtain ⟨hwa, hcl, hpe⟩ := hst hs
    simp only [backlog] at hwa hcl hpe
    have hgo : ¬ (0 < s.up.warmup ∨ s.up.appClosed = true ∨
        s.up.writer.options.payloadCapacity * 8 ≤ s.up.pending.length) := by
      simp only [hwa, hcl]
      simpa using hpe
    simp only [Upload.step, hon, hs, if_true, Upload.readStealth, hgo]
    refine Backlog.size_lt hre (.inl ?_)
    by_cases hd : s.up.drained = true
    · simp [hd, Backlog.weight, backlog, hcl]
    have hin := hpo hd
    have hn := someOf_pos (k := k)
      (show 0 < min s.up.writer.options.payloadCapacity s.up.inbox.length by omega)
    simp only [hd, Backlog.weight, backlog, Bool.false_eq_true, if_false, List.length_drop,
      List.length_append, List.length_take]
    omega

theorem backlog_timer (ho : s.up.writer.options.Usable)
    (hca : s.backlog.Can s.up.writer.options room .timer) (budget : Bool) (env : SendEnv) :
    ({ s with up := s.up.step P (.timer budget env) } : Link).backlog.size < s.backlog.size := by
  obtain ⟨hre, hs, hrd⟩ := hca
  have hon : s.up.result.isSome = false := hre
  have hcp := payloadCapacity_pos ho
  simp only [Upload.step, hon, hs, Bool.false_eq_true, if_false, if_true, Upload.timerStealth]
  by_cases hwa : 0 < s.up.warmup
  · have hl : ({ s with up := { s.up with warmup := s.up.warmup - 1 } } : Link).backlog.weight <
        s.backlog.weight := by
      simp only [Backlog.weight, backlog]
      omega
    rw [if_pos hwa]
    split
    · exact backlog_sent hre hl
    · exact Backlog.size_lt hre (.inl hl)
  · rw [if_neg hwa]
    by_cases hpe : s.up.pending = []
    · have hcl : s.up.appClosed = true := by simpa [backlog, hwa, hpe] using hrd
      rw [if_neg (by simp [hpe]), if_pos hcl]
      exact backlog_finish env hre
    · have hpo := length_pos_iff.mpr hpe
      rw [if_pos hpe]
      refine backlog_sent hre ?_
      simp only [Backlog.weight, backlog, length_drop]
      omega

section SenderSteps

variable {o : FrameOptions} {g₀ sizeA sizeB : Nat} {data : List UInt8}

theorem returned_step (h : s.backlog.returned = true) :
    (s.step P event).backlog.returned = true ∧ (s.step P event).up.writer = s.up.writer := by
  have hre : s.up.result.isSome = true := h
  cases event with
  | write =>
    simp only [step, write, Upload.appWrite]
    split
    · exact ⟨h, rfl⟩
    · split <;> exact ⟨h, rfl⟩
  | upload event =>
    have hsa : s.up.step P event = s.up := by simp [Upload.step, hre]
    simpa [step, hsa] using h
  | carry | recv | deliver => exact ⟨h, rfl⟩
  | appRead =>
    simp only [step, appRead]
    split <;> exact ⟨h, rfl⟩

theorem backlog_step (h : s.Inv P o g₀ sizeA sizeB data) (ho : o.Usable) (ha : event.Accepts)
    (hre : s.backlog.returned = false) : s.backlog.Shrinks (s.step P event).backlog := by
  cases event with
  | write k => exact (backlog_write h.sending hre k).1
  | upload =>
    exact backlog_moves hre (Upload.step_moves P (h.sending.options ▸ ho) ha)
  | carry | recv | deliver => exact .inl rfl
  | appRead =>
    simp only [step, appRead]
    split <;> exact .inl rfl

theorem backlog_lowers (h : s.Inv P o g₀ sizeA sizeB data) (ho : o.Usable)
    (hca : s.backlog.Can o sizeA event.task) : (s.step P event).backlog.size < s.backlog.size := by
  have hopt := h.sending.options
  rw [← hopt] at ho hca
  cases event with
  | write k =>
    rw [← h.sizes.1] at hca
    exact (backlog_write (hopt ▸ h.sending) hca.1 k).2 hca
  | upload event =>
    cases event with
    | read draw k env => exact backlog_read hca draw k env
    | timer budget env => exact backlog_timer ho hca budget env
  | carry | recv | deliver | appRead => exact hca.elim

end SenderSteps

end Link

/-! ## What remains to be received -/

/-- What the connection and the receiver have still to do. -/
structure Remainder where
  uncarried : Nat
  input : Nat
  payload : Nat
  outbox : Nat
  returned : Bool
  eof : Bool

namespace Remainder

def weight (m : Remainder) : Nat :=
  5 * m.uncarried + 4 * m.input + 2 * m.payload + m.outbox + (!m.returned).toNat

def size (m : Remainder) : Nat := if m.eof then 0 else m.weight + 1

def Can (room : Nat) (m : Remainder) : Task → Prop
  | .carry => m.eof = false ∧ 0 < m.uncarried
  | .recv => m.eof = false ∧ m.uncarried = 0 ∧ m.payload = 0 ∧ m.returned = false
  | .deliver => m.eof = false ∧ 0 < m.payload ∧ m.outbox < room
  | .appRead => m.eof = false ∧ (0 < m.outbox ∨ m.returned = true)
  | _ => False

variable {m : Remainder}

theorem size_lt {m' : Remainder} (he : m.eof = false) (h : m'.weight < m.weight ∨ m'.eof = true) :
    m'.size < m.size := by
  simp only [size, he]
  cases hr : m'.eof with
  | true => simp
  | false => simpa [hr] using h

def Shrinks (m m' : Remainder) : Prop := m' = m ∨ m'.size < m.size

theorem exists_can (hro : 0 < m.payload → 0 < room) (h : 0 < m.size) : ∃ task, m.Can room task := by
  have he : m.eof = false := by
    cases hr : m.eof with
    | true => simp [size, hr] at h
    | false => rfl
  by_cases hcr : 0 < m.uncarried
  · exact ⟨.carry, he, hcr⟩
  by_cases hou : 0 < m.outbox ∨ m.returned = true
  · exact ⟨.appRead, he, hou⟩
  · by_cases hpa : 0 < m.payload
    · exact ⟨.deliver, he, hpa, by have := hro hpa; omega⟩
    · exact ⟨.recv, he, by omega, by omega, by simpa using fun hr => hou (.inr hr)⟩

end Remainder

namespace Link

def remainder (s : Link) : Remainder :=
  { uncarried := s.up.writer.wire.length - s.carried, input := s.down.reader.input.length
    payload := s.down.payload.length, outbox := s.down.outbox.length
    returned := s.down.result.isSome, eof := s.eof }

section ReceiverSteps

variable {P : Platform} {s : Link} {o : FrameOptions} {g₀ sizeA sizeB : Nat} {data : List UInt8}

theorem remainder_carry (he : s.eof = false) (k : Nat) :
    s.remainder.Shrinks (s.carry k).remainder ∧
      (0 < s.remainder.uncarried → (s.carry k).remainder.size < s.remainder.size) := by
  have hl (h0 : 0 < s.up.writer.wire.length - s.carried) :
      (s.carry k).remainder.size < s.remainder.size := by
    have hn := someOf_pos (k := k) h0
    refine Remainder.size_lt he (.inl ?_)
    simp only [Remainder.weight, remainder, carry, Download.netIn, length_append,
      length_take, length_drop]
    omega
  refine ⟨?_, hl⟩
  rcases Nat.eq_zero_or_pos (s.up.writer.wire.length - s.carried) with h0 | h0
  · refine .inl ?_
    simp [carry, Download.netIn, h0, someOf]
  · exact .inr (hl h0)

theorem items_ne_nil (h : s.Inv P o g₀ sizeA sizeB data) (hu : s.up.result.isSome = true)
    (hdw : s.down.result = none)
    (hr : Receiving P o s.up.writer s.up.frames s.carried s.down s.received got items) :
    items ≠ [] := by
  rintro rfl
  have hno : NoClose got := by
    rcases hr.phase with hp | hp
    · exact hp.2.2
    · rw [hdw] at hp
      simp at hp
  rcases h.sending.phase with hp | ⟨_, _, _, pre, hpr, _⟩
  · rw [hp.1] at hu
    simp at hu
  have hcs : closeFrame ∈ got.filter Frame.visible := by
    have hfr := hr.frames
    rw [map_nil, append_nil] at hfr
    simp [hfr, hpr, closeFrame, Frame.visible]
  exact hno closeFrame (mem_of_mem_filter hcs) rfl

theorem remainder_recv (h : s.Inv P o g₀ sizeA sizeB data) (ho : o.Usable) (he : s.eof = false) :
    s.remainder.Shrinks ({ s with down := s.down.recv P } : Link).remainder ∧
      (s.up.result.isSome = true → s.remainder.Can sizeB .recv →
        ({ s with down := s.down.recv P } : Link).remainder.size < s.remainder.size) := by
  obtain ⟨got, items, hr⟩ := h.receiving
  by_cases hbu : s.down.result.isSome ∨ s.down.payload ≠ []
  · have hsa : s.down.recv P = s.down := by rw [Download.recv, if_pos hbu]
    refine ⟨.inl (by rw [hsa]), ?_⟩
    rintro - ⟨-, -, hpa, hre⟩
    simp only [remainder] at hpa hre
    rcases hbu with hb | hb
    · rw [hre] at hb
      contradiction
    · exact absurd (eq_nil_of_length_eq_zero hpa) hb
  · have hon : s.down.result = none := by simpa using fun hs => hbu (.inl hs)
    have hpa : s.down.payload = [] := by simpa using fun hs => hbu (.inr hs)
    rcases hr.flight.read ho with ⟨⟨r, hru⟩, hwai⟩ | ⟨x, rest, r, rfl, hru, _, hl, hle⟩
    · have hsa : s.down.recv P = s.down := by
        simp [Download.recv, hru, hr.connected]
      refine ⟨.inl (by rw [hsa]), fun hu hca => ?_⟩
      have hall : s.up.writer.wire.length - s.carried = 0 := hca.2.1
      rcases hwai with hni | hmor
      · exact absurd hni (items_ne_nil h hu hon hr)
      · omega
    · have hto := recv_took hon hpa hru
      have hbyt : (dataOf [x.1]).length ≤ x.1.payload.length := by
        rw [dataOf_singleton]
        split <;> simp
      have hdr : ({ s with down := s.down.recv P } : Link).remainder.size < s.remainder.size := by
        refine Remainder.size_lt he (.inl ?_)
        have hbit := Bool.toNat_le (!(s.down.recv P).result.isSome)
        simp only [Remainder.weight, remainder, hto.reader, hto.payload, hto.outbox]
        omega
      exact ⟨.inr hdr, fun _ _ => hdr⟩

theorem remainder_deliver (he : s.eof = false) (k : Nat) :
    s.remainder.Shrinks ({ s with down := s.down.deliver k } : Link).remainder ∧
      (s.remainder.Can s.down.bufferSize .deliver →
        ({ s with down := s.down.deliver k } : Link).remainder.size < s.remainder.size) := by
  have hl (h0 : 0 < min s.down.payload.length (s.down.bufferSize - s.down.outbox.length)) :
      ({ s with down := s.down.deliver k } : Link).remainder.size < s.remainder.size := by
    have hn := someOf_pos (k := k) h0
    refine Remainder.size_lt he (.inl ?_)
    simp only [Remainder.weight, remainder, Download.deliver, length_append, length_take,
      length_drop]
    omega
  refine ⟨?_, fun hca => hl ?_⟩
  · rcases Nat.eq_zero_or_pos
      (min s.down.payload.length (s.down.bufferSize - s.down.outbox.length)) with h0 | h0
    · refine .inl ?_
      simp only [Download.deliver, h0, someOf]
      simp
    · exact .inr (hl h0)
  · obtain ⟨_, hpa, hro⟩ := hca
    simp only [remainder] at hpa hro
    omega

theorem remainder_appRead (h : s.Inv P o g₀ sizeA sizeB data) (he : s.eof = false) (k : Nat) :
    s.remainder.Shrinks (s.appRead k).remainder ∧
      (s.remainder.Can sizeB .appRead → (s.appRead k).remainder.size < s.remainder.size) := by
  obtain ⟨_, _, hr⟩ := h.receiving
  by_cases hou : s.down.outbox = []
  · have hrea : s.appRead k = { s with eof := s.eof || s.down.shut } := by
      rw [appRead, if_pos hou]
    cases hsh : s.down.shut with
    | true =>
      have hl : (s.appRead k).remainder.size < s.remainder.size :=
        Remainder.size_lt he (.inr (by simp [hrea, remainder, hsh]))
      exact ⟨.inr hl, fun _ => hl⟩
    | false =>
      have hon : s.down.result = none := by
        rcases hr.phase with hp | hp
        · exact hp.1
        · rw [hsh] at hp
          simp at hp
      refine ⟨.inl (by simp [hrea, hsh]), fun hca => ?_⟩
      simp [Remainder.Can, remainder, hou, hon] at hca
  · have hpo := length_pos_iff.mpr hou
    have hn := someOf_pos (k := k) hpo
    have hl : (s.appRead k).remainder.size < s.remainder.size := by
      refine Remainder.size_lt he (.inl ?_)
      simp only [appRead, hou, if_false, Remainder.weight, remainder, Download.appRead, length_drop]
      omega
    exact ⟨.inr hl, fun _ => hl⟩

theorem eof_step (he : s.eof = true) (event : LinkEvent) : (s.step P event).eof = true := by
  cases event with
  | write =>
    simp only [step, write]
    split <;> exact he
  | appRead =>
    simp only [step, appRead]
    split <;> simp [he]
  | _ => exact he

theorem remainder_step (h : s.Inv P o g₀ sizeA sizeB data) (ho : o.Usable)
    (hu : s.backlog.returned = true) (he : s.eof = false) (event : LinkEvent) :
    s.remainder.Shrinks (s.step P event).remainder := by
  cases event with
  | write k =>
    refine .inl ?_
    have hwr := (@returned_step P _ (.write k) hu).2
    simp only [step] at hwr
    have hrs : (s.write k).down = s.down ∧ (s.write k).carried = s.carried ∧
        (s.write k).eof = s.eof := by
      unfold write
      split <;> simp
    simp [step, remainder, hwr, hrs]
  | upload event =>
    have hsa : s.up.step P event = s.up := by
      have : s.up.result.isSome = true := hu
      simp [Upload.step, this]
    exact .inl (by simp [step, hsa])
  | carry k => exact (remainder_carry he k).1
  | recv => exact (remainder_recv h ho he).1
  | deliver k => exact (remainder_deliver he k).1
  | appRead k => exact (remainder_appRead h he k).1

theorem remainder_lowers (h : s.Inv P o g₀ sizeA sizeB data) (ho : o.Usable)
    (hu : s.backlog.returned = true) (hca : s.remainder.Can sizeB event.task) :
    (s.step P event).remainder.size < s.remainder.size := by
  cases event with
  | write => exact hca.elim
  | upload event => cases event <;> exact hca.elim
  | carry k => exact (remainder_carry hca.1 k).2 hca.2
  | recv => exact (remainder_recv h ho hca.1).2 hu hca
  | deliver k =>
    rw [← h.sizes.2] at hca
    exact (remainder_deliver hca.1 k).2 hca
  | appRead k => exact (remainder_appRead h hca.1 k).2 hca

end ReceiverSteps

end Link

/-! ## Delivery -/

/-- Every task is scheduled again and again; the timer matters to the stealth
pump only. -/
def Fair (o : FrameOptions) (events : Nat → LinkEvent) : Prop :=
  ∀ task, (task = .timer → o.isStealth = true) → Recurs fun n => (events n).task = task

def Scheduled (o : FrameOptions) (events : Nat → LinkEvent) (task : Task) (n : Nat) : Prop :=
  (events n).task = task ∨ task = .timer ∧ o.isStealth = false

variable {o : FrameOptions} {events : Nat → LinkEvent}

theorem Fair.recurs (h : Fair o events) (task : Task) : Recurs (Scheduled o events task) := by
  intro n
  by_cases hti : task = .timer ∧ o.isStealth = false
  · exact ⟨n, Nat.le_refl n, .inr hti⟩
  · obtain ⟨m, hm, hh⟩ := h task (by grind) n
    exact ⟨m, hm, .inl hh⟩

section Delivery

variable {P : Platform} {o : FrameOptions} {g₀ sizeA sizeB : Nat} {data : List UInt8}
  {events : Nat → LinkEvent} {s : Nat → Link}
  (hs : ∀ n, s (n + 1) = (s n).step P (events n)) (ho : o.Usable)
  (ha : ∀ n, (events n).Accepts) (hi : ∀ n, (s n).Inv P o g₀ sizeA sizeB data)
  (hfa : Fair o events)

include hs ho hi

include ha in
theorem backlog_descent (hsi : data ≠ [] → 0 < sizeA) :
    Descent (fun n => (s n).backlog.size) (fun task n => (s n).backlog.Can o sizeA task)
      (Scheduled o events) 0 where
  mono := by
    intro n _
    cases hre : (s n).backlog.returned with
    | true =>
      have hdo := (@Link.returned_step P _ (events n) hre).1
      simp [hs n, Backlog.size, hdo]
    | false =>
      rcases Link.backlog_step (hi n) ho (ha n) hre with heq | hl
      · simp [hs n, heq]
      · rw [hs n]
        exact Nat.le_of_lt hl
  some_enabled := by
    intro n _ hpo
    refine Backlog.exists_can (payloadCapacity_pos ho) (fun hw => hsi ?_) hpo
    rw [← (hi n).sending.stream]
    have : (s n).toWrite ≠ [] := length_pos_iff.mp hw
    simp [this]
  persists := by
    intro n _ task hca hsa
    have hre : (s n).backlog.returned = false := by
      cases task <;> first | exact hca.1 | exact hca.elim
    rcases Link.backlog_step (hi n) ho (ha n) hre with heq | hl
    · rw [hs n, heq]
      exact hca
    · rw [hs n] at hsa
      omega
  lowers := by
    intro n _ task hca hh
    rcases hh with rfl | ⟨rfl, hpl⟩
    · rw [hs n]
      exact Link.backlog_lowers (hi n) ho hca
    · have hst := hca.2.1
      rw [hpl] at hst
      contradiction

theorem remainder_descent (hsi : data ≠ [] → 0 < sizeB)
    (hre : (s start).backlog.returned = true) :
    Descent (fun n => (s n).remainder.size) (fun task n => (s n).remainder.Can sizeB task)
      (Scheduled o events) start := by
  have hdo : ∀ n, start ≤ n → (s n).backlog.returned = true := by
    intro n hn
    obtain ⟨d, rfl⟩ := Nat.exists_eq_add_of_le hn
    clear hn
    induction d with
    | zero => exact hre
    | succ d ih =>
      rw [← Nat.add_assoc, hs (start + d)]
      exact (Link.returned_step ih).1
  refine ⟨?_, ?_, ?_, ?_⟩
  · intro n hn
    cases he : (s n).eof with
    | true =>
      have := Link.eof_step (P := P) he (events n)
      simp [hs n, Remainder.size, Link.remainder, this]
    | false =>
      rcases Link.remainder_step (hi n) ho (hdo n hn) he (events n) with heq | hl
      · simp [hs n, heq]
      · rw [hs n]
        exact Nat.le_of_lt hl
  · intro n _ hpo
    refine Remainder.exists_can (fun hp => hsi ?_) hpo
    obtain ⟨got, items, hr⟩ := (hi n).receiving
    have : (s n).down.payload ≠ [] := length_pos_iff.mp hp
    rw [← (hi n).sending.stream, hr.dataOf_eq, ← hr.bytes]
    simp [this]
  · intro n hn task hca hsa
    have he : (s n).eof = false := by
      cases task <;> first | exact hca.1 | exact hca.elim
    rcases Link.remainder_step (hi n) ho (hdo n hn) he (events n) with heq | hl
    · rw [hs n, heq]
      exact hca
    · rw [hs n] at hsa
      omega
  · intro n hn task hca hh
    rcases hh with rfl | ⟨rfl, _⟩
    · rw [hs n]
      exact Link.remainder_lowers (hi n) ho (hdo n hn) hca
    · exact hca.elim

include ha hfa

/-- **Delivery**: a fair run reaches the end of the stream. -/
theorem exists_eof (hsi : data ≠ [] → 0 < sizeA ∧ 0 < sizeB) : ∃ n, (s n).eof = true := by
  obtain ⟨start, _, hze⟩ := (backlog_descent hs ho ha hi fun h => (hsi h).1).exists_zero hfa.recurs
  have hre : (s start).backlog.returned = true := by
    simpa [Backlog.size] using hze
  obtain ⟨n, _, hze⟩ := (remainder_descent hs ho hi (fun h => (hsi h).2) hre).exists_zero hfa.recurs
  have heo : (s n).remainder.eof = true := by
    simpa [Remainder.size] using hze
  exact ⟨n, heo⟩

end Delivery

/-- **The encrypted transport is a byte pipe.**  In every state of a run the receiving
application has read a prefix of the stream, and all of it once it has seen its end;
the Close frame is the last one, after every byte; the stealth queue is bounded.  In a
fair run the application does see the end.

`hroom` keeps the run below `2 ^ 64` frames, where the counters end; with `hsize` the
application streams can hold a byte if there is one. -/
theorem transport_byte_pipe (P : Platform) {wkeys rkeys : SessionKeys}
    (hke : SessionKeys.Mirrors wkeys rkeys) {o : FrameOptions} (ho : o.Usable)
    (hpd : o.maxPadding ≤ 262127) (sizeA sizeB draw : Nat) (data : List UInt8)
    (hsi : data ≠ [] → 0 < sizeA ∧ 0 < sizeB) (events : Nat → LinkEvent)
    (ha : ∀ n, (events n).Accepts)
    (hro : ∀ n, wkeys.txGeneration + (((Link.start wkeys rkeys o sizeA sizeB draw data).runs P
      events n).up.writer.sent.length + 3) < 2 ^ 64) :
    (∀ n s, s = (Link.start wkeys rkeys o sizeA sizeB draw data).runs P events n →
      s.received <+: data ∧ (s.eof = true → s.received = data) ∧
      (∀ before after, s.up.frames = before ++ closeFrame :: after →
        after = [] ∧ dataOf before = data ∧ s.up.pending = []) ∧
      ∀ capacity, o.isStealth = true → o.stealthPayloadCapacity = .ok capacity →
        s.up.pending.length ≤ 9 * capacity) ∧
    (Fair o events → ∃ n,
      ((Link.start wkeys rkeys o sizeA sizeB draw data).runs P events n).eof = true ∧
      ((Link.start wkeys rkeys o sizeA sizeB draw data).runs P events n).received = data) := by
  have hsr : Link.Inv P o wkeys.txGeneration sizeA sizeB data
    (Link.start wkeys rkeys o sizeA sizeB draw data) := Link.start_inv hke ho draw
  have hi := Link.runs_inv hsr ho hpd ha fun n => by have := hro n; omega
  refine ⟨?_, fun hfa => ?_⟩
  · rintro n s rfl
    refine ⟨(hi n).received_isPrefix, (hi n).received_all,
      fun before after hf => (hi n).sending.close_last hf, fun capacity hst hcp => ?_⟩
    rw [FrameOptions.stealthPayloadCapacity_eq hst (ho hst)] at hcp
    rw [← Except.ok.inj hcp]
    exact (hi n).sending.pending_le
  · obtain ⟨n, heo⟩ := exists_eof (fun _ => rfl) ho ha hi hfa hsi
    exact ⟨n, heo, (hi n).received_all heo⟩

def roundRobin (n : Nat) : LinkEvent :=
  match n % 8 with
  | 0 | 1 => .write 8
  | 2 | 3 => .upload (.read 0 8 .instant)
  | 4 => .carry 64
  | 5 => .recv
  | 6 => .deliver 8
  | _ => .appRead 8

theorem roundRobin_fair (hs : o.isStealth = false) : Fair o roundRobin := by
  intro task hti n
  have hsl (i : Nat) (h : (roundRobin i).task = task) : ∃ m, n ≤ m ∧ (roundRobin m).task =
      task := by
    have hmo : (8 * n + i) % 8 = i % 8 := by omega
    refine ⟨8 * n + i, by omega, ?_⟩
    rw [← h, roundRobin, hmo, roundRobin]
  cases task with
  | write => exact hsl 0 rfl
  | read => exact hsl 2 rfl
  | timer => exact absurd (hti rfl) (by simp [hs])
  | carry => exact hsl 4 rfl
  | recv => exact hsl 5 rfl
  | deliver => exact hsl 6 rfl
  | appRead => exact hsl 7 rfl

theorem roundRobin_accepts (n : Nat) : (roundRobin n).Accepts := by
  unfold roundRobin
  split <;> simp [LinkEvent.Accepts, UploadEvent.env, SendEnv.Accepts, SendEnv.instant,
    WriteEnv.instant]

theorem roundRobin_sent (n : Nat) :
    ((Link.start (sampleKeys .client) (sampleKeys .server) unpaddedOptions 1024 1024 0
      (ascii "hello")).runs (.reference .release) roundRobin n).up.writer.sent.length ≤ 12 := by
  let s := Link.start (sampleKeys .client) (sampleKeys .server) unpaddedOptions 1024 1024 0
    (ascii "hello")
  have hfi : (∀ m < 5, (s.runs (.reference .release) roundRobin m).up.writer.sent.length ≤ 12) ∧
      (s.runs (.reference .release) roundRobin 4).backlog.returned = true := by decide +kernel
  by_cases hn : n < 5
  · exact hfi.1 n hn
  obtain ⟨d, rfl⟩ : ∃ d, n = 4 + d := ⟨n - 4, by omega⟩
  have hkp : (s.runs (.reference .release) roundRobin (4 + d)).backlog.returned = true ∧
      (s.runs (.reference .release) roundRobin (4 + d)).up.writer =
        (s.runs (.reference .release) roundRobin 4).up.writer := by
    clear hn
    induction d with
    | zero => exact ⟨hfi.2, rfl⟩
    | succ d ih =>
      obtain ⟨hre, hwr⟩ := @Link.returned_step _ _ (roundRobin (4 + d)) ih.1
      exact ⟨hre, hwr.trans ih.2⟩
  rw [hkp.2]
  exact hfi.1 4 (by decide)

theorem transport_byte_pipe_sample :
    ∃ n, ((Link.start (sampleKeys .client) (sampleKeys .server) unpaddedOptions 1024 1024 0
        (ascii "hello")).runs (.reference .release) roundRobin n).eof = true ∧
      ((Link.start (sampleKeys .client) (sampleKeys .server) unpaddedOptions 1024 1024 0
        (ascii "hello")).runs (.reference .release) roundRobin n).received = ascii "hello" := by
  have hke : SessionKeys.Mirrors (sampleKeys .client) (sampleKeys .server) :=
    (mirrored_deriveKeys _ _ _ _).1
  refine (transport_byte_pipe (.reference .release) hke
    (fun hs => absurd hs (by decide)) (by decide) 1024 1024 0 (ascii "hello")
    (fun _ => ⟨by decide, by decide⟩) roundRobin roundRobin_accepts fun n => ?_).2
    (roundRobin_fair (by decide))
  have hsen := roundRobin_sent n
  have hgen : (sampleKeys .client).txGeneration = 0 := rfl
  omega

end Espejismo
