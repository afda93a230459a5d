import Espejismo.Mux.Native.Stream

/-!
# Mux.Native.Call

What one call on a handle can do.  `Call` lists the outcomes of `poll_write`,
`poll_read`, `poll_shutdown` and of dropping the handle, with what each of them
leaves in the command channel; everything about calls is derived from it.

`Tidy` is the invariant of the read side: credit is returned when a payload is
used up, so the credit not yet returned is what was read of the current one.
-/

namespace Espejismo.Mux

open Binary List

namespace NativeStream

variable {st : NativeStream} {tx tx' : Channel Command} {senders : Bool}

structure Tidy (st : NativeStream) : Prop where
  credit : st.pendingWindowUpdate = st.readOffset
  offset : st.readOffset ≤ st.readBuf.length
  used : st.readOffset = st.readBuf.length → st.readBuf = []
  buffer : st.readBuf.length ≤ maxPayload
  queue : ∀ payload ∈ st.rx.items, payload.length ≤ maxPayload

def held (st : NativeStream) : List UInt8 := st.unread ++ st.rx.items.flatten

/-- The payload the next bytes come from: the current one, or the first that is
not empty in the channel. -/
inductive Refill : NativeStream → NativeStream → Prop
  | current {st : NativeStream} (h : st.readOffset < st.readBuf.length) : Refill st st
  | next {st : NativeStream} {skipped rest : List (List UInt8)} {payload : List UInt8}
      (h : st.unread = []) (ho : st.remoteClosed = false)
      (hi : st.rx.items = skipped ++ payload :: rest)
      (hsk : ∀ p ∈ skipped, p = []) (hne : payload ≠ []) :
      Refill st
        { st with rx := { st.rx with items := rest }, readBuf := payload, readOffset := 0 }

inductive Op where
  | write
  | read
  | shutdown
  | drop
  deriving DecidableEq

inductive Call (senders : Bool) (st : NativeStream) (tx : Channel Command) :
    Op → NativeStream → Channel Command → Prop
  /-- Nothing was done: an error, an empty write, a second shutdown. -/
  | nothing (op : Op) : Call senders st tx op st tx
  | wrote {chunk : List UInt8} (hl : st.localClosed = false) (hfl : st.flow.closed = false)
      (hne : chunk ≠ []) (hma : chunk.length ≤ maxPayload)
      (hav : chunk.length ≤ st.flow.available)
      (hsl : st.flow.queuedSendFrames < st.flow.sendQueueLimit) (hro : tx.HasRoom) :
      Call senders st tx .write
        { st with
          flow :=
            { st.flow with
              available := st.flow.available - chunk.length
              queuedSendFrames := st.flow.queuedSendFrames + 1 }
          written := st.written ++ [chunk] }
        (tx.push (.data st.id st.priority chunk))
  | parked (hl : st.localClosed = false) (hfl : st.flow.closed = false) :
      Call senders st tx .write { st with flow := { st.flow with waker := true } } tx
  /-- The credit of a write that the command channel refused is gone. -/
  | writeRefused {n : Nat} (hl : st.localClosed = false) (hfl : st.flow.closed = false)
      (hav : n ≤ st.flow.available) (hro : ¬ tx.HasRoom) :
      Call senders st tx .write
        { st with flow := { st.flow with available := st.flow.available - n, waker := false } } tx
  | copied {st₁ : NativeStream} {n : Nat} (hf : Refill st st₁) (hn : n < st₁.unread.length) :
      Call senders st tx .read
        { st₁ with
          readOffset := st₁.readOffset + n
          pendingWindowUpdate := st₁.pendingWindowUpdate + n
          obtained := st₁.obtained ++ st₁.unread.take n } tx
  | finished {st₁ : NativeStream} (hf : Refill st st₁) :
      Call senders st tx .read
        { st₁ with
          readBuf := [], readOffset := 0, pendingWindowUpdate := 0
          obtained := st₁.obtained ++ st₁.unread }
        ((tx.trySend (.windowUpdate st₁.id (UInt32.ofNat st₁.readBuf.length))).getD tx)
  | drained (ho : st.remoteClosed = false) (hun : st.unread = [])
      (hi : ∀ p ∈ st.rx.items, p = []) (hsn : senders = true) :
      Call senders st tx .read
        { st with rx := { st.rx with items := [] }, readBuf := [], readOffset := 0 } tx
  | eof (ho : st.remoteClosed = false) (hun : st.unread = [])
      (hi : ∀ p ∈ st.rx.items, p = []) (hsn : senders = false) :
      Call senders st tx .read
        { st with
          rx := { st.rx with items := [] }, readBuf := [], readOffset := 0
          pendingWindowUpdate := 0, remoteClosed := true } tx
  | shut (hl : st.localClosed = false) :
      Call senders st tx .shutdown { st with localClosed := true, shutDown := true }
        ((tx.trySend (.fin st.id)).getD tx)
  | dropped :
      Call senders st tx .drop
        { st with holder := .gone, rx := st.rx.close, localClosed := true }
        (if st.localClosed then tx else (tx.trySend (.rst st.id)).getD tx)

/-! ## Writing -/

theorem reserveSendSlot_eq_some {flow : FlowState} (h : flow.reserveSendSlot = some flow') :
    flow.closed = false ∧ flow.queuedSendFrames < flow.sendQueueLimit ∧
      flow' = { flow with queuedSendFrames := flow.queuedSendFrames + 1 } := by
  unfold FlowState.reserveSendSlot at h
  grind

theorem call_pollWrite (h : (st.pollWrite buf tx).2 = (st', tx')) :
    Call senders st tx .write st' tx' := by
  unfold pollWrite at h
  by_cases hl : st.localClosed
  · rw [if_pos hl] at h
    cases h
    exact .nothing _
  rw [if_neg hl] at h
  by_cases hb : buf = []
  · rw [if_pos hb] at h
    cases h
    exact .nothing _
  rw [if_neg hb] at h
  by_cases hfl : st.flow.closed
  · rw [if_pos hfl] at h
    cases h
    exact .nothing _
  rw [if_neg hfl] at h
  have hl' : st.localClosed = false := by simpa using hl
  have hfl' : st.flow.closed = false := by simpa using hfl
  by_cases hav : st.flow.available = 0
  · rw [if_pos hav] at h
    cases h
    exact .parked hl' hfl'
  rw [if_neg hav] at h
  cases hsl : st.flow.reserveSendSlot with
  | none =>
    simp only [hsl] at h
    cases h
    exact .parked hl' hfl'
  | some =>
    obtain ⟨-, hli, rfl⟩ := reserveSendSlot_eq_some hsl
    simp only [hsl] at h
    generalize hn : min (min buf.length maxPayload) st.flow.available = n at h
    cases hse : tx.trySend (.data st.id st.priority (buf.take n)) with
    | some =>
      obtain ⟨hro, rfl⟩ := Channel.trySend_eq_some hse
      have hln : (buf.take n).length = n := by
        rw [length_take]
        omega
      have hpo : 0 < buf.length := length_pos_iff.mpr hb
      have hne : buf.take n ≠ [] := by
        rw [← length_pos_iff, hln, ← hn, maxPayload]
        omega
      simp only [hse] at h
      cases h
      have hca := @Call.wrote senders st tx (buf.take n) hl' hfl' hne (by omega) (by omega) hli hro
      rwa [hln] at hca
    | none =>
      have hro : ¬ tx.HasRoom := by
        intro hro
        rw [Channel.trySend_of_hasRoom hro] at hse
        contradiction
      simp only [hse] at h
      cases h
      exact .writeRefused hl' hfl' (by omega) hro

/-! ## Reading -/

theorem flushLoop_of_le (id : UInt32) (hpo : 0 < amount) (hle : amount ≤ u32Max)
    (tx : Channel Command) :
    flushLoop id amount amount tx =
      (tx.trySend (.windowUpdate id (UInt32.ofNat amount))).getD tx := by
  obtain ⟨n, rfl⟩ : ∃ n, amount = n + 1 := ⟨amount - 1, by omega⟩
  have hch : min (n + 1) u32Max = n + 1 := Nat.min_eq_left hle
  have hdo : ∀ tx, flushLoop id n 0 tx = tx := by
    cases n <;> simp [flushLoop]
  rw [flushLoop, if_neg (by omega)]
  simp [hch, hdo]

theorem flushLoop_zero (id : UInt32) (tx : Channel Command) : flushLoop id 0 0 tx = tx := rfl

namespace Tidy

theorem empty_of_unread (h : st.Tidy) (hu : st.unread = []) :
    st.readBuf = [] ∧ st.readOffset = 0 ∧ st.pendingWindowUpdate = 0 := by
  have hle : st.readBuf.length ≤ st.readOffset := drop_eq_nil_iff.mp hu
  have he : st.readOffset = st.readBuf.length := Nat.le_antisymm h.offset hle
  have hni := h.used he
  have hcr := h.credit
  simp only [hni, length_nil] at he
  exact ⟨hni, he, by omega⟩

theorem refill (h : st.Tidy) (hr : Refill st st') : st'.Tidy ∧ st'.held = st.held := by
  cases hr with
  | current => exact ⟨h, rfl⟩
  | next hu ho hi hsk hne =>
    rename_i skipped rest payload
    obtain ⟨-, -, hcr⟩ := h.empty_of_unread hu
    have hft : skipped.flatten = [] := flatten_eq_nil_iff.mpr hsk
    refine ⟨⟨hcr, Nat.zero_le _, ?_, ?_, ?_⟩, ?_⟩
    · intro h0
      exact length_eq_zero_iff.mp h0.symm
    · exact h.queue payload (by simp [hi])
    · intro p hp
      exact h.queue p (by simp [hi, hp])
    · rw [held, held, hu, hi]
      simp [unread, hft]

end Tidy

theorem unread_of_refill (hr : Refill st st') : st'.unread ≠ [] := by
  cases hr with
  | current h => simpa [unread] using h
  | next _ _ _ _ hne => simpa [unread] using hne

private theorem call_copyOut (ht : st₁.Tidy) (hr : Refill st st₁)
    (h : st₁.copyOut capacity tx = (res, st', tx')) : Call senders st tx .read st' tx' := by
  have hln : st₁.unread.length = st₁.readBuf.length - st₁.readOffset := by simp [unread]
  have hpo : 0 < st₁.unread.length := length_pos_iff.mpr (unread_of_refill hr)
  have hb := ht.buffer
  have hsa : ∀ n ≤ st₁.unread.length,
      satAdd st₁.pendingWindowUpdate n = st₁.pendingWindowUpdate + n := by
    intro n hn
    apply satAdd_of_le
    rw [ht.credit, usizeMax]
    unfold maxPayload at hb
    omega
  unfold copyOut at h
  simp only at h
  generalize hn : min st₁.unread.length capacity = n at h
  have hle : n ≤ st₁.unread.length := by omega
  rw [hsa n hle] at h
  by_cases hen : st₁.readOffset + n = st₁.readBuf.length
  · have hal : n = st₁.unread.length := by omega
    have ham : st₁.pendingWindowUpdate + n = st₁.readBuf.length := by rw [ht.credit, hen]
    rw [if_pos hen] at h
    simp only [flushPendingWindowUpdate, ham] at h
    rw [flushLoop_of_le st₁.id (by omega) (by unfold maxPayload at hb; unfold u32Max; omega)] at h
    simp only [hal, take_length] at h
    obtain ⟨-, rfl, rfl⟩ := h
    exact .finished hr
  · rw [if_neg hen] at h
    obtain ⟨-, rfl, rfl⟩ := h
    exact .copied hr (by omega)

section Loop

variable {queue : List (List UInt8)}

theorem readLoop_current (h : st.readOffset < st.readBuf.length) :
    readLoop capacity senders tx queue st = st.copyOut capacity tx := by
  cases queue <;> exact if_pos h

theorem readLoop_closed (h : ¬ st.readOffset < st.readBuf.length) (hc : st.remoteClosed = true) :
    readLoop capacity senders tx queue st = (.ready (.ok []), st.flushPendingWindowUpdate tx) := by
  cases queue <;> exact (if_neg h).trans (if_pos hc)

theorem readLoop_cons (h : ¬ st.readOffset < st.readBuf.length) (hc : st.remoteClosed = false)
    (payload : List UInt8) :
    readLoop capacity senders tx (payload :: queue) st =
      readLoop capacity senders tx queue
        { st with rx := { st.rx with items := queue }, readBuf := payload, readOffset := 0 } :=
  (if_neg h).trans (if_neg (by simp [hc]))

theorem readLoop_nil (h : ¬ st.readOffset < st.readBuf.length) (hc : st.remoteClosed = false) :
    readLoop capacity senders tx [] st =
      if senders then (.pending, st, tx)
      else (.ready (.ok []), { st with remoteClosed := true }.flushPendingWindowUpdate tx) :=
  (if_neg h).trans (if_neg (by simp [hc]))

private theorem call_readLoop (ht : st.Tidy) (hu : st.unread = []) (ho : st.remoteClosed = false)
    (hi : st.rx.items = skipped ++ queue) (hsk : ∀ p ∈ skipped, p = [])
    (hst₁ : st₁ = { st with rx := { st.rx with items := queue }, readBuf := [], readOffset := 0 })
    (h : readLoop capacity senders tx queue st₁ = (res, st', tx')) :
    Call senders st tx .read st' tx' := by
  obtain ⟨-, -, hcr⟩ := ht.empty_of_unread hu
  have hen : ¬ st₁.readOffset < st₁.readBuf.length := by simp [hst₁]
  have ho₁ : st₁.remoteClosed = false := by rw [hst₁, ← ho]
  induction queue generalizing skipped st₁ with
  | nil =>
    have hal : ∀ p ∈ st.rx.items, p = [] := by simpa [hi] using hsk
    rw [readLoop_nil hen ho₁] at h
    subst hst₁
    cases hs : senders with
    | true =>
      rw [if_pos hs] at h
      obtain ⟨-, rfl, rfl⟩ := h
      exact .drained ho hu hal rfl
    | false =>
      rw [if_neg (by simp [hs])] at h
      simp only [hcr] at h
      obtain ⟨-, rfl, rfl⟩ := h
      exact .eof ho hu hal rfl
  | cons payload queue ih =>
    rw [readLoop_cons hen ho₁] at h
    by_cases hne : payload = []
    · have hsk' : ∀ p ∈ skipped ++ [payload], p = [] := by
        intro p hp
        rcases mem_append.mp hp with hp | hp
        · exact hsk p hp
        · rw [mem_singleton.mp hp, hne]
      refine ih (by simp [hi]) hsk' ?_ h ?_ ho₁
      · simp [hst₁, hne]
      · simp [hne]
    · have hf := Refill.next hu ho hi hsk hne
      have hpo : 0 < payload.length := length_pos_iff.mpr hne
      subst hst₁
      rw [readLoop_current hpo] at h
      exact call_copyOut (ht.refill hf).1 hf h

theorem call_pollRead (ht : st.Tidy) (h : st.pollRead capacity senders tx = (res, st', tx')) :
    Call senders st tx .read st' tx' := by
  unfold pollRead at h
  by_cases hcu : st.readOffset < st.readBuf.length
  · rw [readLoop_current hcu] at h
    exact call_copyOut ht (.current hcu) h
  have hu : st.unread = [] := drop_eq_nil_iff.mpr (by omega)
  obtain ⟨hb, hof, hcr⟩ := ht.empty_of_unread hu
  cases ho : st.remoteClosed with
  | true =>
    rw [readLoop_closed hcu ho, flushPendingWindowUpdate, hcr, flushLoop_zero] at h
    simp only [← hcr] at h
    obtain ⟨-, rfl, rfl⟩ := h
    exact .nothing _
  | false =>
    apply call_readLoop ht hu ho (nil_append _).symm (by simp) _ h
    rw [← hb, ← hof]

end Loop

/-! ## Closing -/

theorem call_pollShutdown
    (h : st.pollShutdown tx = (res, st', tx')) : Call senders st tx .shutdown st' tx' := by
  unfold pollShutdown at h
  by_cases hl : st.localClosed
  · rw [if_pos hl] at h
    obtain ⟨-, rfl, rfl⟩ := h
    exact .nothing _
  rw [if_neg hl] at h
  have hca := @Call.shut senders st tx (by simpa using hl)
  cases hse : tx.trySend (.fin st.id) with
  | none =>
    simp only [hse] at h
    obtain ⟨-, rfl, rfl⟩ := h
    simpa only [hse, Option.getD_none] using hca
  | some =>
    simp only [hse] at h
    obtain ⟨-, rfl, rfl⟩ := h
    simpa only [hse, Option.getD_some] using hca

theorem call_drop (senders : Bool) (st : NativeStream) (tx : Channel Command) :
    Call senders st tx .drop (st.drop tx).1 (st.drop tx).2 := by
  have hca := @Call.dropped senders st tx
  unfold drop
  by_cases hl : st.localClosed
  · rw [if_pos hl] at hca ⊢
    exact hca
  · rw [if_neg hl] at hca ⊢
    exact hca

/-! ## What calls keep -/

def Appends (id : UInt32) (tx tx' : Channel Command) : Prop :=
  ∃ sent : List Command, tx' = { tx with items := tx.items ++ sent } ∧
    ∀ c ∈ sent, c.streamId? = some id ∧ c.Small

namespace Appends

variable {id : UInt32} {c : Command}

theorem refl : Appends id tx tx := ⟨[], by rw [append_nil], by simp⟩

theorem getD_trySend (hc : c.streamId? = some id) (hsm : c.Small) :
    Appends id tx ((tx.trySend c).getD tx) := by
  obtain ⟨sent, he, hsen⟩ := tx.getD_trySend c
  refine ⟨sent, he, ?_⟩
  rcases hsen with ⟨rfl, -⟩ | ⟨rfl, -⟩
  · simpa using ⟨hc, hsm⟩
  · simp

end Appends

namespace Call

variable {op : Op}

theorem id_eq (h : Call senders st tx op st' tx') : st'.id = st.id := by
  cases h with
  | copied hf | finished hf => cases hf <;> rfl
  | _ => rfl

theorem appends (h : Call senders st tx op st' tx') : Appends st.id tx tx' := by
  cases h with
  | wrote _ _ _ hma => exact ⟨_, rfl, by simp [Command.streamId?, Command.Small, hma]⟩
  | finished hf =>
    have hid := (@Call.finished senders st tx _ hf).id_eq
    exact .getD_trySend (by simpa [Command.streamId?] using hid) trivial
  | shut => exact .getD_trySend rfl trivial
  | dropped =>
    by_cases hl : st.localClosed
    · simpa only [hl, if_true] using Appends.refl
    · simpa only [hl, Bool.false_eq_true, if_false] using
        Appends.getD_trySend (c := Command.rst st.id) rfl trivial
  | _ => exact .refl

theorem tidy (h : Call senders st tx op st' tx') (ht : st.Tidy) : st'.Tidy := by
  cases h with
  | nothing => exact ht
  | wrote | parked | writeRefused | shut =>
    exact ⟨ht.credit, ht.offset, ht.used, ht.buffer, ht.queue⟩
  | copied hf hn =>
    rename_i st₁ n
    have ht₁ := (ht.refill hf).1
    have hcr := ht₁.credit
    have hln : st₁.unread.length = st₁.readBuf.length - st₁.readOffset := by simp [unread]
    refine ⟨by simp only; omega, by simp only; omega, ?_, ht₁.buffer, ht₁.queue⟩
    intro he
    simp only at he
    omega
  | finished hf =>
    have ht₁ := (ht.refill hf).1
    exact ⟨rfl, Nat.zero_le _, fun _ => rfl, Nat.zero_le _, ht₁.queue⟩
  | drained _ hu =>
    exact ⟨(ht.empty_of_unread hu).2.2, Nat.zero_le _, fun _ => rfl, Nat.zero_le _, by simp⟩
  | eof => exact ⟨rfl, Nat.zero_le _, fun _ => rfl, Nat.zero_le _, by simp⟩
  | dropped => exact ⟨ht.credit, ht.offset, ht.used, ht.buffer, by simp⟩

end Call

end NativeStream

end Espejismo.Mux
