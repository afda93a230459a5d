import Espejismo.Protocol.Framing

/-!
# Protocol.Framing.Wire

What one call of `write_one` and one call of `read_one` do.

A direction of a session is a `Cursor`: its key material, generation and
sequence number.  The writer and the reader of the direction each hold one, and
they are in step when the cursors are equal.  `writeOne_cases` says everything a
write can do; `readOne_emits` says that reading a frame back moves the reader's
cursor as writing it moved the writer's.
-/

namespace Espejismo

open Binary List EStateM

/-! ## Cursors -/

structure Cursor where
  key : Bytes 32
  lenMask : Bytes 32
  label : List UInt8
  nonceTag : Bytes 8
  generation : Nat
  seq : Nat
  deriving DecidableEq

def FrameWriter.cursor (w : FrameWriter) : Cursor :=
  { key := w.keys.txKey, lenMask := w.keys.txLenMask, label := w.keys.txUpdateLabel
    nonceTag := w.keys.nonceTag, generation := w.keys.txGeneration, seq := w.txSeq }

def FrameReader.cursor (r : FrameReader) : Cursor :=
  { key := r.keys.rxKey, lenMask := r.keys.rxLenMask, label := r.keys.rxUpdateLabel
    nonceTag := r.keys.nonceTag, generation := r.keys.rxGeneration, seq := r.rxSeq }

theorem cursor_new_eq (h : SessionKeys.Mirrors wkeys rkeys)
    (o : FrameOptions) (input : List UInt8) :
    (FrameReader.new input rkeys o).cursor = (FrameWriter.new wkeys o).cursor := by
  simp [FrameReader.cursor, FrameReader.new, FrameWriter.cursor, FrameWriter.new, h.key,
    h.lenMask, h.label, h.generation, h.nonceTag]

namespace Cursor

def rotate (P : Platform) (c : Cursor) : Cursor :=
  { c with
    key := (updateSecret P c.key c.label (c.generation + 1)).1
    lenMask := (updateSecret P c.key c.label (c.generation + 1)).2
    generation := c.generation + 1
    seq := 0 }

/-- The cursor after a frame of type `ty`; a KEY_UPDATE closes the generation. -/
def after (P : Platform) (c : Cursor) (ty : FrameType) : Cursor :=
  if ty = .keyUpdate then c.rotate P else { c with seq := c.seq + 1 }

end Cursor

theorem nextKeyGeneration_of_lt (h : g + 1 < 2 ^ 64) : nextKeyGeneration g = .ok (g + 1) := by
  rw [nextKeyGeneration, if_pos h]

theorem updateTx_eq (P : Platform) (w : FrameWriter) (h : w.keys.txGeneration + 1 < 2 ^ 64) :
    ∃ keys, w.keys.updateTx P = .ok keys ∧
      ({ w with keys, txSeq := 0 } : FrameWriter).cursor = w.cursor.rotate P := by
  rw [SessionKeys.updateTx, nextKeyGeneration_of_lt h]
  exact ⟨_, rfl, rfl⟩

theorem updateRx_eq (P : Platform) (r : FrameReader) (h : r.keys.rxGeneration + 1 < 2 ^ 64) :
    ∃ keys, r.keys.updateRx P = .ok keys ∧
      ({ r with keys, rxSeq := 0 } : FrameReader).cursor = r.cursor.rotate P := by
  rw [SessionKeys.updateRx, nextKeyGeneration_of_lt h]
  exact ⟨_, rfl, rfl⟩

variable {P : Platform} {o : FrameOptions} {frame : Frame} {bytes : List UInt8} {c c' : Cursor}
  {r : FrameReader} {k k' : SessionKeys} {w : FrameWriter} {cipher : List UInt8}

theorem txGeneration_updateTx (h : k.updateTx P = .ok k') :
    k'.txGeneration = k.txGeneration + 1 := by
  unfold SessionKeys.updateTx at h
  cases hg : nextKeyGeneration k.txGeneration with
  | error => rw [hg] at h; contradiction
  | ok =>
    rw [hg] at h
    obtain rfl := Except.ok.inj h
    unfold nextKeyGeneration at hg
    by_cases hlt : k.txGeneration + 1 < 2 ^ 64
    · rw [if_pos hlt] at hg
      exact (Except.ok.inj hg).symm
    · rw [if_neg hlt] at hg; contradiction

theorem nonceTag_updateTx (h : k.updateTx P = .ok k') : k'.nonceTag = k.nonceTag := by
  unfold SessionKeys.updateTx at h
  cases hg : nextKeyGeneration k.txGeneration with
  | error => rw [hg] at h; contradiction
  | ok =>
    rw [hg] at h
    obtain rfl := Except.ok.inj h
    rfl

/-! ## The bytes of a frame -/

def framePlain (o : FrameOptions) (fill : Nat → UInt8) (frame : Frame) : List UInt8 :=
  if o.isStealth then stealthPlain fill (o.stealthFrameSize - aeadTagLen) frame
  else frame.ty.toByte :: frame.payload

/-- The bytes of a ciphertext on the wire: as it is in the stealth profile,
behind its masked length otherwise. -/
def frameWire (P : Platform) (o : FrameOptions) (lenMask : Bytes 32) (seq : Nat)
    (cipher : List UInt8) : List UInt8 :=
  if o.isStealth then cipher
  else encodeBE 4 ((cipher.length % 2 ^ 32) ^^^ lengthMask P lenMask seq) ++ cipher

def Fits (o : FrameOptions) (frame : Frame) : Prop :=
  o.Usable ∧ frame.payload.length ≤ o.payloadCapacity

theorem fits_of_plain (hs : o.isStealth = false)
    (h : frame.payload.length ≤ normalPayloadCapacity) :
    Fits o frame := by
  refine ⟨fun hst => absurd hst (by simp [hs]), ?_⟩
  simpa [FrameOptions.payloadCapacity, hs] using h

theorem FrameOptions.validateStealth_eq_ok (h : o.validateStealth = .ok ()) :
    aeadTagLen + stealthHeaderLen < o.stealthFrameSize ∧ o.stealthFrameSize ≤ stealthMaxFrame := by
  unfold validateStealth at h
  split at h
  · contradiction
  · split at h
    · contradiction
    · omega

theorem FrameOptions.validateStealth_eq_error (h : o.validateStealth = .error e) :
    ∃ text, e = .msg text := by
  unfold validateStealth at h
  grind

theorem FrameOptions.stealthPayloadCapacity_eq (hs : o.isStealth = true)
    (h : o.validateStealth = .ok ()) : o.stealthPayloadCapacity = .ok o.payloadCapacity := by
  simp [stealthPayloadCapacity, h, payloadCapacity, hs]

theorem length_stealthPlain (h : stealthHeaderLen + frame.payload.length ≤ size) :
    (stealthPlain fill size frame).length = size := by
  simp only [stealthPlain, stealthHeaderLen, length_cons, length_append,
    length_encodeBE, length_drop, length_fillBytes] at *
  omega

theorem length_framePlain (h : Fits o frame) (fill : Nat → UInt8) :
    (framePlain o fill frame).length =
      if o.isStealth then o.stealthFrameSize - aeadTagLen else frame.payload.length + 1 := by
  unfold framePlain
  cases hs : o.isStealth with
  | true =>
    have hv := FrameOptions.validateStealth_eq_ok (h.1 hs)
    have hf := h.2
    simp only [FrameOptions.payloadCapacity, hs, if_true] at hf ⊢
    exact length_stealthPlain (by omega)
  | false => simp

theorem length_framePlain_le (h : Fits o frame) (fill : Nat → UInt8) :
    (framePlain o fill frame).length ≤ normalMaxFrame - aeadTagLen := by
  have hl := length_framePlain h fill
  cases hs : o.isStealth with
  | true =>
    have hv := FrameOptions.validateStealth_eq_ok (h.1 hs)
    simp only [hs, if_true, stealthMaxFrame, normalMaxFrame] at *
    omega
  | false =>
    have hf := h.2
    simp only [FrameOptions.payloadCapacity, hs, Bool.false_eq_true, if_false,
      normalPayloadCapacity, normalMaxFrame, aeadTagLen] at *
    omega

theorem encrypt_framePlain (P : Platform) (h : Fits o frame) (fill : Nat → UInt8) (key : Bytes 32)
    (nonce : Bytes 24) :
    ∃ cipher, P.aead.encrypt key nonce (framePlain o fill frame) = some cipher := by
  have hle := length_framePlain_le h fill
  refine Option.isSome_iff_exists.mp (P.aead.encrypt_isSome key nonce _ ?_)
  simp only [normalMaxFrame] at hle
  omega

/-! ## `write_one` -/

def FrameWriter.handed (P : Platform) (env : WriteEnv) (closing : Bool) (frame : Frame)
    (cipher : List UInt8) (next : Nat) (w : FrameWriter) : FrameWriter :=
  { w with
    txSeq := next
    wire := w.wire ++ env.taken (frameWire P w.options w.keys.txLenMask w.txSeq cipher)
    sent := w.sent ++ [w.entry frame.ty closing cipher]
    aeadLog := w.aeadLog ++ [AeadCall.encrypt w.keys.txKey (sessionNonce w.txSeq w.keys.nonceTag)
      (framePlain w.options env.fill frame)] }

theorem run_encryptNext (P : Platform) (plain cipher : List UInt8) (w : FrameWriter)
    (h : P.aead.encrypt w.keys.txKey (sessionNonce w.txSeq w.keys.nonceTag) plain = some cipher) :
    (encryptNext P plain).run w =
      .ok cipher { w with aeadLog := w.aeadLog ++
        [AeadCall.encrypt w.keys.txKey (sessionNonce w.txSeq w.keys.nonceTag) plain] } := by
  simp only [encryptNext, encrypt, run_bind, run_get, run_set, h, run_pure]

theorem run_advanceTxSeq (P : Platform) (w : FrameWriter) :
    (advanceTxSeq P).run w =
      match addU64 P.build w.txSeq 1 with
      | some next => .ok () { w with txSeq := next }
      | none => .error .panic w := by
  unfold advanceTxSeq
  cases h : addU64 P.build w.txSeq 1 <;> simp [h]

theorem run_handOver (env : WriteEnv) (entry : Sent) (bytes : List UInt8) (w : FrameWriter) :
    (handOver env entry bytes).run w =
      if env.failsAfter.isSome then
        .error .io { w with sent := w.sent ++ [entry], wire := w.wire ++ env.taken bytes }
      else .ok () { w with sent := w.sent ++ [entry], wire := w.wire ++ env.taken bytes } := by
  unfold handOver
  cases h : env.failsAfter <;> simp

theorem writeOne_refused (P : Platform) (env : WriteEnv) (closing : Bool)
    (h : ¬ Fits w.options frame) :
    ∃ text, (writeOne P env closing frame).run w = .error (.msg text) w := by
  cases hs : w.options.isStealth with
  | true =>
    cases hv : w.options.validateStealth with
    | error =>
      obtain ⟨text, rfl⟩ := FrameOptions.validateStealth_eq_error hv
      refine ⟨text, ?_⟩
      simp only [writeOne, writeStealthOne, run_bind, run_get, hs, if_true,
        FrameOptions.stealthPayloadCapacity, hv]
      rfl
    | ok =>
      have hca := FrameOptions.stealthPayloadCapacity_eq hs hv
      have hbi : w.options.payloadCapacity < frame.payload.length := by
        by_contra hle
        exact h ⟨fun _ => hv, by omega⟩
      simp [writeOne, writeStealthOne, hs, hca, hbi]
  | false =>
    have hbi : normalPayloadCapacity < frame.payload.length := by
      by_contra hle
      exact h (fits_of_plain hs (by omega))
    simp [writeOne, hs, hbi]

theorem writeOne_fits (P : Platform) (env : WriteEnv) (closing : Bool) (h : Fits w.options frame)
    (hc : P.aead.encrypt w.keys.txKey (sessionNonce w.txSeq w.keys.nonceTag)
      (framePlain w.options env.fill frame) = some cipher) :
    (writeOne P env closing frame).run w =
      match addU64 P.build w.txSeq 1 with
      | none => .error .panic { w with aeadLog := w.aeadLog ++
          [AeadCall.encrypt w.keys.txKey (sessionNonce w.txSeq w.keys.nonceTag)
            (framePlain w.options env.fill frame)] }
      | some next =>
        if env.failsAfter.isSome then .error .io (w.handed P env closing frame cipher next)
        else .ok env.elapsed (w.handed P env closing frame cipher next) := by
  have hl := P.aead.length_encrypt _ _ _ _ hc
  have hle := length_framePlain_le h env.fill
  have hsi := length_framePlain h env.fill
  cases hs : w.options.isStealth with
  | true =>
    have hca := FrameOptions.stealthPayloadCapacity_eq hs (h.1 hs)
    have hv := FrameOptions.validateStealth_eq_ok (h.1 hs)
    have hp : framePlain w.options env.fill frame =
        stealthPlain env.fill (w.options.stealthFrameSize - aeadTagLen) frame := by
      simp [framePlain, hs]
    have hf : ¬ w.options.payloadCapacity < frame.payload.length := by have := h.2; omega
    have hexact : cipher.length = w.options.stealthFrameSize := by
      simp only [hs, if_true, aeadTagLen] at *
      omega
    rw [hp] at hc ⊢
    simp only [writeOne, writeStealthOne, hs, hca, hf, if_true, if_false, run_bind,
      run_get, run_encryptNext P _ _ _ hc, hexact, ne_eq, not_true_eq_false,
      run_advanceTxSeq, run_handOver]
    cases addU64 P.build w.txSeq 1 with
    | none => rfl
    | some =>
      cases env.failsAfter <;> simp [FrameWriter.handed, frameWire, hs, hp]
  | false =>
    have hp : framePlain w.options env.fill frame = frame.ty.toByte :: frame.payload := by
      simp [framePlain, hs]
    have hf : ¬ normalPayloadCapacity < frame.payload.length := by
      have := h.2
      simp only [FrameOptions.payloadCapacity, hs, Bool.false_eq_true, if_false] at this
      omega
    have hmx : ¬ normalMaxFrame < cipher.length := by
      simp only [normalMaxFrame, aeadTagLen] at hle ⊢
      omega
    rw [hp] at hc ⊢
    simp only [writeOne, hs, Bool.false_eq_true, if_false, hf, run_bind, run_get,
      run_encryptNext P _ _ _ hc, run_advanceTxSeq, hmx, run_handOver]
    cases addU64 P.build w.txSeq 1 with
    | none => rfl
    | some =>
      cases env.failsAfter <;> simp [FrameWriter.handed, frameWire, hs, hp]

/-- **Everything a write can do**: refuse the frame and change nothing, panic on
an exhausted sequence number, or hand the encrypted frame to the transport. -/
theorem writeOne_cases (P : Platform) (env : WriteEnv) (closing : Bool) (frame : Frame)
    (w : FrameWriter) :
    (∃ text, ¬ Fits w.options frame ∧ (writeOne P env closing frame).run w = .error (.msg text) w) ∨
    (∃ calls, addU64 P.build w.txSeq 1 = none ∧
      (writeOne P env closing frame).run w =
        .error .panic { w with aeadLog := w.aeadLog ++ calls }) ∨
    ∃ cipher next, Fits w.options frame ∧
      P.aead.encrypt w.keys.txKey (sessionNonce w.txSeq w.keys.nonceTag)
        (framePlain w.options env.fill frame) = some cipher ∧
      addU64 P.build w.txSeq 1 = some next ∧
      (writeOne P env closing frame).run w =
        if env.failsAfter.isSome then .error .io (w.handed P env closing frame cipher next)
        else .ok env.elapsed (w.handed P env closing frame cipher next) := by
  by_cases hf : Fits w.options frame
  · obtain ⟨cipher, hc⟩ := encrypt_framePlain P hf env.fill w.keys.txKey
      (sessionNonce w.txSeq w.keys.nonceTag)
    have hru := writeOne_fits P env closing hf hc
    cases had : addU64 P.build w.txSeq 1 with
    | none => exact .inr (.inl ⟨_, rfl, by rw [hru, had]⟩)
    | some next => exact .inr (.inr ⟨cipher, next, hf, hc, rfl, by rw [hru, had]⟩)
  · obtain ⟨text, hru⟩ := writeOne_refused P env closing hf
    exact .inl ⟨text, hf, hru⟩

/-! ## `read_one` -/

/-- One frame on the wire: from `c` to `c'` the direction carried `frame` as
`bytes`. -/
structure Emits (P : Platform) (o : FrameOptions) (c : Cursor) (frame : Frame)
    (bytes : List UInt8) (c' : Cursor) : Prop where
  fits : Fits o frame
  seq_lt : c.seq + 1 < 2 ^ 64
  generation_lt : frame.ty = .keyUpdate → c.generation + 1 < 2 ^ 64
  bytes_eq : ∃ fill cipher, P.aead.encrypt c.key (sessionNonce c.seq c.nonceTag)
    (framePlain o fill frame) = some cipher ∧ bytes = frameWire P o c.lenMask c.seq cipher
  next : c' = c.after P frame.ty

/-- The reader stands at `c` with `bytes` left to read. -/
structure InStep (o : FrameOptions) (c : Cursor) (bytes : List UInt8) (r : FrameReader) :
    Prop where
  input : r.input = bytes
  options : r.options = o
  cursor : r.cursor = c

theorem run_readBytes (r : FrameReader) (hn : bytes.length = n) (h : r.input = bytes ++ rest) :
    (readBytes n).run r = .ok bytes { r with input := rest } := by
  have hta : takeExact n r.input = some (bytes, rest) := by
    rw [h, ← hn, takeExact_append rfl]
  simp only [readBytes, run_bind, run_get, hta, run_set, run_pure]

theorem run_readBytes_short (r : FrameReader) (h : r.input.length < n) :
    (readBytes n).run r = .error .eof r := by
  have hta : takeExact n r.input = none := by
    rw [takeExact, if_neg (by omega)]
  simp only [readBytes, run_bind, run_get, hta]
  rfl

theorem run_decryptNext (P : Platform) (r : FrameReader)
    (h : P.aead.encrypt r.keys.rxKey (sessionNonce r.rxSeq r.keys.nonceTag) plain = some cipher) :
    (decryptNext P cipher).run r =
      .ok plain { r with aeadLog := r.aeadLog ++
        [AeadCall.decrypt r.keys.rxKey (sessionNonce r.rxSeq r.keys.nonceTag) cipher] } := by
  have hd := P.aead.decrypt_encrypt _ _ _ _ h
  simp only [decryptNext, decrypt, run_bind, run_get, run_set, hd, run_pure]

theorem run_advanceRxSeq (P : Platform) (r : FrameReader) (h : r.rxSeq + 1 < 2 ^ 64) :
    (advanceRxSeq P).run r = .ok () { r with rxSeq := r.rxSeq + 1 } := by
  simp [advanceRxSeq, addU64_of_lt P.build h]

theorem run_rotateRx (P : Platform) (ty : FrameType) (o : FrameOptions) (c : Cursor)
    (rest : List UInt8) (r : FrameReader) (hr : InStep o { c with seq := c.seq + 1 } rest r)
    (hge : ty = .keyUpdate → c.generation + 1 < 2 ^ 64) :
    ∃ r', (rotateRx P ty).run r = .ok () r' ∧ InStep o (c.after P ty) rest r' := by
  by_cases ht : ty = .keyUpdate
  · have hg : r.keys.rxGeneration + 1 < 2 ^ 64 := by
      have hsa : r.keys.rxGeneration = c.generation := congrArg Cursor.generation hr.cursor
      rw [hsa]
      exact hge ht
    obtain ⟨keys, hke, hcu⟩ := updateRx_eq P r hg
    refine ⟨{ r with keys, rxSeq := 0 }, ?_, hr.input, hr.options, ?_⟩
    · simp [rotateRx, ht, hke]
    · rw [hcu, hr.cursor, Cursor.after, if_pos ht]
      rfl
  · refine ⟨r, ?_, ?_⟩
    · simp [rotateRx, ht]
    · rw [Cursor.after, if_neg ht]
      exact hr

theorem stealthPlain_fields (fill : Nat → UInt8) (size : Nat) (frame : Frame)
    (h : frame.payload.length < 2 ^ 16) :
    (stealthPlain fill size frame).headD 0 = frame.ty.toByte ∧
      decodeBE (((stealthPlain fill size frame).drop 1).take 2) = frame.payload.length ∧
      ((stealthPlain fill size frame).drop stealthHeaderLen).take frame.payload.length =
        frame.payload := by
  refine ⟨rfl, ?_, ?_⟩
  · rw [stealthPlain, drop_one, tail_cons, append_assoc, take_left' (length_encodeBE 2 _)]
    exact decodeBE_encodeBE (by omega)
  · rw [stealthPlain, stealthHeaderLen, drop_succ_cons, append_assoc,
      drop_left' (length_encodeBE 2 _), take_left' rfl]

theorem readStealthOne_emits (P : Platform) (hs : o.isStealth = true)
    (he : Emits P o c frame bytes c') (hr : InStep o c (bytes ++ rest) r) :
    ∃ r', (readStealthOne P).run r = .ok frame r' ∧ InStep o c' rest r' := by
  obtain ⟨hi, rfl, rfl⟩ := hr
  obtain ⟨fill, cipher, hc, rfl⟩ := he.bytes_eq
  have hl := P.aead.length_encrypt _ _ _ _ hc
  have hsi := length_framePlain he.fits fill
  have hok := he.fits.1 hs
  have hv := FrameOptions.validateStealth_eq_ok hok
  have hf := he.fits.2
  have hp : framePlain r.options fill frame =
      stealthPlain fill (r.options.stealthFrameSize - aeadTagLen) frame := by
    simp [framePlain, hs]
  rw [hs, if_pos rfl] at hsi
  rw [hsi] at hl
  rw [hp] at hc hsi
  have hca : r.options.payloadCapacity =
      r.options.stealthFrameSize - aeadTagLen - stealthHeaderLen := by
    simp [FrameOptions.payloadCapacity, hs]
  rw [hca] at hf
  simp only [stealthMaxFrame, aeadTagLen, stealthHeaderLen] at hv hf hl
  obtain ⟨ht, hpl, hpa⟩ :=
    stealthPlain_fields fill (r.options.stealthFrameSize - aeadTagLen) frame (by omega)
  have hci : cipher.length = r.options.stealthFrameSize := by omega
  have hi' : r.input = cipher ++ rest := by rw [hi, frameWire, hs, if_pos rfl]
  have hsh : ¬ (stealthPlain fill (r.options.stealthFrameSize - aeadTagLen) frame).length <
      stealthHeaderLen := by
    rw [hsi]
    simp only [aeadTagLen, stealthHeaderLen]
    omega
  have hb : ¬ (r.options.payloadCapacity < frame.payload.length ∨
      (stealthPlain fill (r.options.stealthFrameSize - aeadTagLen) frame).length <
        stealthHeaderLen + frame.payload.length) := by
    rw [hsi, hca]
    simp only [aeadTagLen, stealthHeaderLen]
    omega
  obtain ⟨r', hro, hr'⟩ := run_rotateRx P frame.ty r.options r.cursor rest
    { r with input := rest, rxSeq := r.rxSeq + 1, aeadLog := r.aeadLog ++
      [AeadCall.decrypt r.keys.rxKey (sessionNonce r.rxSeq r.keys.nonceTag) cipher] }
    ⟨rfl, rfl, rfl⟩ he.generation_lt
  rw [← he.next] at hr'
  have hse : r.rxSeq + 1 < 2 ^ 64 := he.seq_lt
  refine ⟨r', ?_, hr'⟩
  simp only [readStealthOne, run_bind, run_get, hok, run_readBytes r hci hi']
  rw [run_decryptNext P { r with input := rest } hc]
  simp only [run_advanceRxSeq, hse, hsh, if_false, hpl,
    FrameOptions.stealthPayloadCapacity_eq hs hok, hb, ht, FrameType.tryFrom_toByte,
    run_bind, hro, hpa, run_pure]

theorem unmask_length (P : Platform) (lenMask : Bytes 32) (seq : Nat) (h : n < 2 ^ 32) :
    decodeBE (encodeBE 4 ((n % 2 ^ 32) ^^^ lengthMask P lenMask seq)) ^^^
      lengthMask P lenMask seq = n := by
  have hlt : (n % 2 ^ 32) ^^^ lengthMask P lenMask seq < 2 ^ 32 :=
    Nat.xor_lt_two_pow (Nat.mod_lt _ (by decide)) (lengthMask_lt P _ _)
  rw [decodeBE_encodeBE (by omega), Nat.xor_assoc, Nat.xor_self, Nat.xor_zero, Nat.mod_eq_of_lt h]

theorem readPlainOne_emits (P : Platform) (hs : o.isStealth = false)
    (he : Emits P o c frame bytes c') (hr : InStep o c (bytes ++ rest) r) :
    ∃ r', (readOne P).run r = .ok frame r' ∧ InStep o c' rest r' := by
  obtain ⟨hi, rfl, rfl⟩ := hr
  obtain ⟨fill, cipher, hc, rfl⟩ := he.bytes_eq
  have hl := P.aead.length_encrypt _ _ _ _ hc
  have hp : framePlain r.options fill frame = frame.ty.toByte :: frame.payload := by
    simp [framePlain, hs]
  have hle := length_framePlain_le he.fits fill
  rw [hp] at hl hc hle
  simp only [normalMaxFrame, aeadTagLen] at hl hle
  have hma := unmask_length P r.keys.rxLenMask r.rxSeq (n := cipher.length) (by omega)
  have hi' : r.input = encodeBE 4 ((cipher.length % 2 ^ 32) ^^^
      lengthMask P r.keys.rxLenMask r.rxSeq) ++ (cipher ++ rest) := by
    rw [hi, frameWire, hs]
    rfl
  have hb : ¬ (cipher.length = 0 ∨ normalMaxFrame < cipher.length) := by
    simp only [normalMaxFrame]
    omega
  obtain ⟨r', hro, hr'⟩ := run_rotateRx P frame.ty r.options r.cursor rest
    { r with input := rest, rxSeq := r.rxSeq + 1, aeadLog := r.aeadLog ++
      [AeadCall.decrypt r.keys.rxKey (sessionNonce r.rxSeq r.keys.nonceTag) cipher] }
    ⟨rfl, rfl, rfl⟩ he.generation_lt
  rw [← he.next] at hr'
  have hse : r.rxSeq + 1 < 2 ^ 64 := he.seq_lt
  refine ⟨r', ?_, hr'⟩
  simp only [readOne, run_bind, run_get, hs, Bool.false_eq_true, if_false,
    run_readBytes r (length_encodeBE 4 _) hi', hma, hb]
  rw [run_readBytes { r with input := cipher ++ rest } rfl rfl]
  dsimp only
  rw [run_decryptNext P { r with input := rest } hc]
  simp only [run_advanceRxSeq, hse, FrameType.tryFrom_toByte, run_bind, hro, run_pure]

/-- **Reading back a frame**: `read_one` returns the frame and follows the
writer's cursor. -/
theorem readOne_emits (P : Platform) (o : FrameOptions) :
    StreamCodec.Lockstep (Emits P o) (readOne P) (InStep o) := by
  intro c frame bytes c' rest r he hr
  cases hs : o.isStealth with
  | true =>
    obtain ⟨r', hru, hr'⟩ := readStealthOne_emits P hs he hr
    refine ⟨r', ?_, hr'⟩
    have hs' : r.options.isStealth = true := by rw [hr.options, hs]
    simpa only [readOne, run_bind, run_get, hs', if_true] using hru
  | false => exact readPlainOne_emits P hs he hr

theorem readOne_nil (P : Platform) (ho : o.Usable) (hr : InStep o c [] r) :
    (readOne P).run r = .error .eof r := by
  obtain ⟨hi, rfl, rfl⟩ := hr
  cases hs : r.options.isStealth with
  | true =>
    have hv := FrameOptions.validateStealth_eq_ok (ho hs)
    have hru := run_readBytes_short r (n := r.options.stealthFrameSize) (by simp [hi]; omega)
    simp [readOne, readStealthOne, hs, ho hs, hru]
  | false =>
    have hru := run_readBytes_short r (n := 4) (by simp [hi])
    simp [readOne, hs, hru]

theorem readOne_incomplete (P : Platform) (hre : rest ≠ [])
    (he : Emits P o c frame (r.input ++ rest) c') (ho : r.options = o) (hc : r.cursor = c) :
    ∃ r', (readOne P).run r = .error .eof r' := by
  subst ho hc
  obtain ⟨fill, cipher, hen, hby⟩ := he.bytes_eq
  have hl := P.aead.length_encrypt _ _ _ _ hen
  have hle := length_framePlain_le he.fits fill
  have hsi := length_framePlain he.fits fill
  have hpar := congrArg List.length hby
  have hpos := length_pos_iff.mpr hre
  simp only [normalMaxFrame, aeadTagLen] at hle
  cases hs : r.options.isStealth with
  | true =>
    have hv := FrameOptions.validateStealth_eq_ok (he.fits.1 hs)
    have hru := run_readBytes_short r (n := r.options.stealthFrameSize) (by
      simp only [hs, if_true, frameWire, length_append, aeadTagLen] at *
      omega)
    refine ⟨r, ?_⟩
    simp [readOne, readStealthOne, hs, he.fits.1 hs, hru]
  | false =>
    by_cases hsh : r.input.length < 4
    · refine ⟨r, ?_⟩
      simp [readOne, hs, run_readBytes_short r hsh]
    simp only [frameWire, hs] at hby
    -- the length field has arrived; the ciphertext has not
    obtain ⟨part, hi, hci⟩ : ∃ part, r.input = encodeBE 4 ((cipher.length % 2 ^ 32) ^^^
        lengthMask P r.keys.rxLenMask r.rxSeq) ++ part ∧ part ++ rest = cipher := by
      obtain ⟨part, hi, hci⟩ | ⟨part, hfi, hre'⟩ := append_eq_append_iff.mp hby
      · have := congrArg List.length hi
        rw [length_encodeBE, length_append] at this
        obtain rfl : part = [] := eq_nil_of_length_eq_zero (by omega)
        rw [append_nil] at hi
        exact ⟨[], by rw [append_nil]; exact hi.symm, hci⟩
      · exact ⟨part, hfi, hre'.symm⟩
    have hma := unmask_length P r.keys.rxLenMask r.rxSeq (n := cipher.length) (by omega)
    have hb : ¬ (cipher.length = 0 ∨ normalMaxFrame < cipher.length) := by
      simp only [normalMaxFrame]
      omega
    have hsh' := run_readBytes_short { r with input := part } (n := cipher.length) (by
      rw [← hci, length_append]
      dsimp only
      omega)
    refine ⟨{ r with input := part }, ?_⟩
    simp only [readOne, run_bind, run_get, hs, Bool.false_eq_true, if_false,
      run_readBytes r (length_encodeBE 4 _) hi, hma, hb, hsh']

theorem Emits.payload_le (h : Emits P o c frame bytes c') :
    frame.payload.length ≤ bytes.length := by
  obtain ⟨fill, cipher, hc, rfl⟩ := h.bytes_eq
  have hl := P.aead.length_encrypt _ _ _ _ hc
  have hsi := length_framePlain h.fits fill
  have hf := h.fits.2
  unfold FrameOptions.payloadCapacity at hf
  unfold frameWire
  cases hs : o.isStealth with
  | true =>
    simp only [hs, if_true] at *
    omega
  | false =>
    simp only [hs, Bool.false_eq_true, if_false, length_append] at *
    omega

theorem Emits.length_pos (h : Emits P o c frame bytes c') : 0 < bytes.length := by
  obtain ⟨fill, cipher, hc, rfl⟩ := h.bytes_eq
  have hl := P.aead.length_encrypt _ _ _ _ hc
  unfold frameWire
  split
  · omega
  · rw [length_append]
    omega

end Espejismo
