import Espejismo.Mux.Native.Closing

/-!
# Mux.Native.Pair

Two sessions joined by a pipe of bytes in each direction.  The pipe keeps what
was written in order; it ends when the session that writes to it has ended, or
when the network cuts it at some byte.

The FIFO law (`Fifo`) holds in every run: the frames one side has taken from
its reader are the first frames the other side has begun to write.
-/

namespace Espejismo.Mux

open Binary List

inductive Side where
  | client
  | server
  deriving DecidableEq, Repr

instance {p : Side → Prop} [DecidablePred p] : Decidable (∀ x, p x) :=
  decidable_of_iff (p .client ∧ p .server)
    ⟨fun h x => by cases x <;> simp [h], fun h => ⟨h .client, h .server⟩⟩

namespace Side

def peer : Side → Side
  | .client => .server
  | .server => .client

@[simp] theorem peer_peer (x : Side) : x.peer.peer = x := by
  cases x <;> rfl

@[simp] theorem peer_ne (x : Side) : x.peer ≠ x := by
  cases x <;> simp [peer]

@[simp] theorem ne_peer (x : Side) : x ≠ x.peer := (peer_ne x).symm

theorem eq_or_eq_peer (x y : Side) : y = x ∨ y = x.peer := by
  cases x <;> cases y <;> simp [peer]

def parity : Side → Nat
  | .client => 1
  | .server => 0

theorem parity_peer (x : Side) : x.peer.parity = 1 - x.parity := by
  cases x <;> rfl

end Side

structure Wire where
  bytes : List UInt8 := []
  closed : Bool := false

def Wire.put (w : Wire) (bytes : List UInt8) : Wire :=
  if w.closed then w else { w with bytes := w.bytes ++ bytes }

namespace Session

def writing (S : Session) : List UInt8 :=
  match S.phase with
  | .writing rest _ => rest
  | _ => []

def flowing (S : Session) : Event → List UInt8
  | .transmit n => S.writing.take n
  | _ => []

def framesIn (results : List (Except Error (Option Frame))) : List Frame :=
  results.filterMap fun
    | .ok (some f) => some f
    | _ => none

def arrived (S : Session) : List Frame := S.handled ++ framesIn S.frames.items

def Event.isLocal : Event → Bool
  | .arrive _ => false
  | _ => true

end Session

structure Pair where
  session : Side → Session
  wire : Side → Wire

namespace Pair

def connect (config : Side → NativeMuxConfig) : Pair where
  session
    | .client => Session.clientSession (config .client)
    | .server => Session.serverSession (config .server)
  wire _ := {}

inductive Event where
  /-- A step of one side that is not the arrival of a frame. -/
  | act (side : Side) (e : Session.Event)
  | receive (side : Side)
  /-- A session that has ended drops its end of the transport. -/
  | hangup (side : Side)
  /-- The network delivers `n` more bytes of a side and then its end. -/
  | cut (side : Side) (n : Nat)
  deriving DecidableEq

def step (P : Pair) : Event → Option Pair
  | .act x e =>
    if e.isLocal then
      ((P.session x).step e).map fun S =>
        { session := Function.update P.session x S
          wire := Function.update P.wire x ((P.wire x).put ((P.session x).flowing e)) }
    else none
  | .receive x =>
    match readFrame (P.wire x.peer).closed (P.wire x.peer).bytes with
    | .pending => none
    | .done result rest =>
      ((P.session x).step (.arrive result)).map fun S =>
        { session := Function.update P.session x S
          wire := Function.update P.wire x.peer { P.wire x.peer with bytes := rest } }
  | .hangup x =>
    if (P.session x).Running then none
    else some { P with wire := Function.update P.wire x { P.wire x with closed := true } }
  | .cut x n =>
    some { P with
      wire := Function.update P.wire x { bytes := (P.wire x).bytes.take n, closed := true } }

inductive Step (P : Pair) : Event → Pair → Prop
  | acted {x : Side} {e : Session.Event} {S : Session} (hlo : e.isLocal = true)
      (h : (P.session x).step e = some S) :
      Step P (.act x e)
        { session := Function.update P.session x S
          wire := Function.update P.wire x ((P.wire x).put ((P.session x).flowing e)) }
  | received {x : Side} {result : Except Error (Option Frame)} {rest : List UInt8} {S : Session}
      (hrd : readFrame (P.wire x.peer).closed (P.wire x.peer).bytes = .done result rest)
      (h : (P.session x).step (.arrive result) = some S) :
      Step P (.receive x)
        { session := Function.update P.session x S
          wire := Function.update P.wire x.peer { P.wire x.peer with bytes := rest } }
  | closed {x : Side} {e : Event} {w : Wire} (hb : w.bytes <+: (P.wire x).bytes)
      (hcl : w.closed = true)
      (he : (e = .hangup x ∧ ¬ (P.session x).Running) ∨ ∃ n, e = .cut x n) :
      Step P e { P with wire := Function.update P.wire x w }

variable {P : Pair} {e : Event}

theorem step_cases (h : P.step e = some P') : Step P e P' := by
  cases e with
  | act =>
    simp only [step] at h
    split at h
    · rw [Option.map_eq_some_iff] at h
      obtain ⟨S, hst, rfl⟩ := h
      exact .acted ‹_› hst
    · contradiction
  | receive =>
    simp only [step] at h
    split at h
    · contradiction
    · rw [Option.map_eq_some_iff] at h
      obtain ⟨S, hst, rfl⟩ := h
      exact .received ‹_› hst
  | hangup =>
    simp only [step] at h
    split at h
    · contradiction
    · cases h
      exact .closed (prefix_refl _) rfl (.inl ⟨rfl, ‹_›⟩)
  | cut x n =>
    cases h
    refine .closed ?_ rfl (.inr ⟨n, rfl⟩)
    exact take_prefix ..

end Pair

/-! ## The FIFO law -/

namespace Session

variable {S : Session} {e : Session.Event}

theorem running_of_step (h : Step S e S') (hru : S'.Running) : S.Running := by
  cases h with
  | tick | asked | accepted | errorAccepted | sessionDropped | called | arrived => exact hru
  | aborted _ hru' => exact hru'
  | popped hph | stopped hph | entered hph | written hph | transmitted hph
  | writeFailed hph | polled hph | idled hph | expired hph | repolled hph
  | readerEnded hph | readerFailed hph | openFailed hph | opened hph | dataSent hph
  | dataDiscarded hph | controlSent hph | resetSent hph | refused hph | admitted hph
  | dataTaken hph | granted hph | closed hph | pinged hph | ponged hph
  | goneAway hph | rejected hph | acceptSent hph | acceptFailed hph | delivered hph
  | deliveryFailed hph | reported hph | acceptAborted _ hph =>
    simp [Running, hph]

theorem transmitted_step (hs : S.Sane) (h : Step S e S') :
    (∃ f : Frame, f.payload.length ≤ maxPayload ∧ S.writing = [] ∧ S.flowing e = [] ∧
      S'.transmitted = S.transmitted ++ [f] ∧ S'.writing = f.encode) ∨
    (S'.transmitted = S.transmitted ∧ (S.flowing e = [] ∨ S'.Running) ∧
      (S'.Running → S.flowing e ++ S'.writing = S.writing)) := by
  cases h with
  | @popped p _ hph hp =>
    left
    refine ⟨p.frame, hs.pending_small p (by simp [hp]), ?_, rfl, rfl, rfl⟩
    simp [writing, hph]
  | transmitted hph =>
    exact .inr ⟨rfl, .inr (by simp [Running]), fun _ => by simp [flowing, writing, hph]⟩
  | asked hc | called hc =>
    have hn : S.flowing e = [] := by cases e <;> cases hc <;> rfl
    exact .inr ⟨rfl, .inl hn, fun _ => by rw [hn]; rfl⟩
  | tick | accepted | errorAccepted | sessionDropped | arrived =>
    exact .inr ⟨rfl, .inl rfl, fun _ => rfl⟩
  | stopped | writeFailed | expired | readerEnded | reported | aborted | acceptAborted =>
    exact .inr ⟨rfl, .inl rfl, fun hru => by simp [Running, leave, stop] at hru⟩
  | written hph =>
    rename_i queuedStream
    right
    cases queuedStream <;>
      exact ⟨rfl, .inl rfl, fun _ => by simp [flowing, writing, hph, releaseSendSlot, modifyFlow]⟩
  | entered hph | polled hph | idled hph | repolled hph | readerFailed hph
  | openFailed hph | opened hph | dataSent hph | dataDiscarded hph | controlSent hph
  | resetSent hph | refused hph | admitted hph | dataTaken hph | granted hph
  | closed hph | pinged hph | ponged hph | goneAway hph | rejected hph
  | acceptSent hph | acceptFailed hph | delivered hph | deliveryFailed hph =>
    exact .inr ⟨rfl, .inl rfl, fun _ => by simp [flowing, writing, hph, queue]⟩

theorem arrived_step (h : Step S e S') (hlo : e.isLocal = true) :
    (S'.arrived = S.arrived ∧ S'.readerDone = S.readerDone) ∨
      (S'.arrived <+: S.arrived ∧ S'.readerDone = true) := by
  -- a frame goes from the channel to those handled
  have hta : ∀ {f : Frame} {items : List (Except Error (Option Frame))},
      S.frames.items = .ok (some f) :: items →
        S.handled ++ [f] ++ framesIn items = S.handled ++ framesIn S.frames.items := by
    intro f items him
    rw [him, append_assoc]
    rfl
  have hsp : S.handled ++ framesIn [] <+: S.arrived := by
    simp [arrived, framesIn]
  cases h with
  | arrived => simp [Event.isLocal] at hlo
  | stopped | writeFailed | expired | readerEnded | reported | aborted | acceptAborted =>
    exact .inr ⟨hsp, rfl⟩
  | written =>
    rename_i queuedStream _
    cases queuedStream <;> exact .inl ⟨rfl, rfl⟩
  | readerFailed _ hfr =>
    refine .inl ⟨?_, rfl⟩
    rw [arrived, arrived, hfr]
    rfl
  | refused _ hfr | admitted _ hfr | dataTaken _ hfr | granted _ hfr
  | closed _ hfr | pinged _ hfr | ponged _ hfr | goneAway _ hfr
  | rejected _ hfr => exact .inl ⟨hta hfr, rfl⟩
  | _ => exact .inl ⟨rfl, rfl⟩

theorem arrive_step (h : S.step (.arrive result) = some S') :
    Readable result ∧ S.readerDone = false ∧ S'.readerDone = endsReader result ∧
      S'.arrived = S.arrived ++ framesIn [result] ∧ S'.transmitted = S.transmitted ∧
        S'.phase = S.phase := by
  simp only [step, arrive] at h
  split at h
  · contradiction
  rename_i hco
  rw [not_or] at hco
  rw [Option.map_eq_some_iff] at h
  obtain ⟨frames, hse, rfl⟩ := h
  obtain ⟨-, rfl⟩ := Channel.trySend_eq_some hse
  refine ⟨not_not.mp hco.2, by simpa using hco.1, rfl, ?_, rfl, rfl⟩
  simp [arrived, framesIn]

end Session

structure Fifo (S : Session) (w : Wire) (T : Session) : Prop where
  small : ∀ f ∈ S.transmitted, f.payload.length ≤ maxPayload
  readable : ∀ f ∈ T.arrived, f.payload.length ≤ maxPayload
  isPrefix : T.arrived.flatMap Frame.encode <+: S.transmitted.flatMap Frame.encode
  flowing : T.readerDone = false →
    T.arrived.flatMap Frame.encode ++ w.bytes <+: S.transmitted.flatMap Frame.encode
  whole : T.readerDone = false → w.closed = false → S.Running →
    T.arrived.flatMap Frame.encode ++ w.bytes ++ S.writing = S.transmitted.flatMap Frame.encode

namespace Fifo

variable {S T : Session} {w : Wire} {e : Session.Event}

/-- **FIFO**: what was read is the beginning of what was written. -/
theorem arrived_isPrefix (h : Fifo S w T) : T.arrived <+: S.transmitted := by
  have hb : T.arrived.flatMap Frame.encode ++ [] <+: S.transmitted.flatMap Frame.encode := by
    rw [append_nil]
    exact h.isPrefix
  exact isPrefix_of_encode_isPrefix h.small h.readable hb

theorem write (hf : Fifo S w T) (hs : S.Sane) (h : Session.Step S e S') :
    Fifo S' (w.put (S.flowing e)) T := by
  have hru := Session.running_of_step h
  rcases Session.transmitted_step hs h with
    ⟨f, hsm, hid, hn, ht, hwr⟩ | ⟨ht, hfl, hwr⟩
  · have hpu : w.put (S.flowing e) = w := by
      rw [hn]
      unfold Wire.put
      split <;> simp
    have hgr : S.transmitted.flatMap Frame.encode <+: S'.transmitted.flatMap Frame.encode := by
      rw [ht, flatMap_append]
      exact prefix_append ..
    rw [hpu]
    refine ⟨?_, hf.readable, hf.isPrefix.trans hgr, fun hr => (hf.flowing hr).trans hgr, ?_⟩
    · intro g hg
      rw [ht, mem_append, mem_singleton] at hg
      rcases hg with hg | rfl
      · exact hf.small g hg
      · exact hsm
    · intro hr hc hru'
      have hw := hf.whole hr hc (hru hru')
      rw [hid, append_nil] at hw
      rw [hwr, ht, hw]
      simp
  · refine ⟨ht ▸ hf.small, hf.readable, ht ▸ hf.isPrefix, ?_, ?_⟩
    · intro hr
      rw [ht]
      unfold Wire.put
      cases hc : w.closed with
      | true => exact hf.flowing hr
      | false =>
        rcases hfl with hn | hru'
        · rw [hn, append_nil]
          exact hf.flowing hr
        have hw := hf.whole hr hc (hru hru')
        rw [← hwr hru'] at hw
        rw [← hw]
        exact ⟨S'.writing, by simp⟩
    · intro hr hc hru'
      have hon : w.closed = false := by
        unfold Wire.put at hc
        split at hc
        · exact hc
        · simpa using ‹_›
      have hw := hf.whole hr hon (hru hru')
      rw [← hwr hru'] at hw
      rw [Wire.put, if_neg (by simp [hon]), ht, ← hw]
      simp

theorem stop (hf : Fifo S w T) (ha : T'.arrived <+: T.arrived)
    (hd : T'.readerDone = true) :
    Fifo S w' T' where
  small := hf.small
  readable := fun f hme => hf.readable f (ha.subset hme)
  isPrefix := by
    obtain ⟨rest, hrs⟩ := ha
    refine List.IsPrefix.trans ?_ hf.isPrefix
    rw [← hrs, flatMap_append]
    exact prefix_append ..
  flowing := by simp [hd]
  whole := by simp [hd]

theorem read_nothing (hf : Fifo S w T) (hlo : e.isLocal = true) (h : Session.Step T e T') :
    Fifo S w T' := by
  rcases Session.arrived_step h hlo with ⟨ha, hd⟩ | ⟨ha, hd⟩
  · constructor
    · exact hf.small
    · exact ha ▸ hf.readable
    · exact ha ▸ hf.isPrefix
    · exact ha ▸ hd ▸ hf.flowing
    · exact ha ▸ hd ▸ hf.whole
  · exact hf.stop ha hd

theorem read (hf : Fifo S w T) {result : Except Error (Option Frame)} {rest : List UInt8}
    (hrd : readFrame w.closed w.bytes = .done result rest)
    (h : T.step (.arrive result) = some T') : Fifo S { w with bytes := rest } T' := by
  obtain ⟨hrea, hd, hd', ha, -, -⟩ := Session.arrive_step h
  cases hre : result with
  | error =>
    subst hre
    have hsa : T'.arrived = T.arrived := by simpa [Session.framesIn] using ha
    exact hf.stop (hsa ▸ prefix_refl _) hd'
  | ok frame =>
    cases frame with
    | none =>
      subst hre
      have hsa : T'.arrived = T.arrived := by simpa [Session.framesIn] using ha
      exact hf.stop (hsa ▸ prefix_refl _) hd'
    | some f =>
      subst hre
      have hne : T'.arrived = T.arrived ++ [f] := by simpa [Session.framesIn] using ha
      obtain ⟨hb, hsm⟩ := readFrame_eq_frame hrd
      have hmo : T'.arrived.flatMap Frame.encode ++ rest =
          T.arrived.flatMap Frame.encode ++ w.bytes := by
        rw [hne, hb]
        simp
      constructor
      · exact hf.small
      · intro g hg
        rw [hne, mem_append, mem_singleton] at hg
        rcases hg with hg | rfl
        · exact hf.readable g hg
        · exact hsm
      · refine List.IsPrefix.trans ?_ (hf.flowing hd)
        rw [← hmo]
        exact prefix_append ..
      · rw [hmo]
        exact fun _ => hf.flowing hd
      · rw [hmo]
        exact fun _ => hf.whole hd

theorem close (hf : Fifo S w T) (hb : w'.bytes <+: w.bytes) (hcl : w'.closed = true) :
    Fifo S w' T where
  small := hf.small
  readable := hf.readable
  isPrefix := hf.isPrefix
  flowing := fun hr =>
    List.IsPrefix.trans ((prefix_append_right_inj _).mpr hb) (hf.flowing hr)
  whole := by simp [hcl]

end Fifo

end Espejismo.Mux
