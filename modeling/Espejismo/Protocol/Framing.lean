import Espejismo.Crypto.Keys
import Espejismo.Data.StreamCodec

/-!
# Protocol.Framing

Encrypted frames (`protocol/framing.rs`).  A `FrameWriter` turns frames into
bytes and a `FrameReader` turns them back; both keep a sequence number and ratchet
their keys at a KEY_UPDATE frame.  A send may put up to three frames on the wire: a
KEY_UPDATE when the rotation is due, a random padding frame, and the frame itself.

What is drawn at random or read from a clock is an argument (`WriteEnv`,
`SendEnv`).  Jitter and pacing only delay a write and are left out.  The writer
keeps two logs for the proofs: the frames handed to the transport (`sent`) and the
calls of the cipher (`aeadLog`).
-/

namespace Espejismo

open Binary

def normalMaxFrame : Nat := 256 * 1024
def stealthMaxFrame : Nat := 64 * 1024
def aeadTagLen : Nat := 16
def stealthHeaderLen : Nat := 3
def normalPayloadCapacity : Nat := normalMaxFrame - aeadTagLen - 1
def defaultStealthFrameSize : Nat := 4096

/-! ## Frames -/

inductive FrameType where
  | target
  | data
  | close
  | padding
  | keyUpdate
  deriving DecidableEq, Repr

namespace FrameType

def toByte : FrameType → UInt8
  | .target => 1
  | .data => 2
  | .close => 3
  | .padding => 4
  | .keyUpdate => 5

def tryFrom (value : UInt8) : Except Error FrameType :=
  match value.toNat with
  | 1 => .ok .target
  | 2 => .ok .data
  | 3 => .ok .close
  | 4 => .ok .padding
  | 5 => .ok .keyUpdate
  | n => .error (.msg s!"unknown frame type {n}")

@[simp] theorem tryFrom_toByte (ty : FrameType) : tryFrom ty.toByte = .ok ty := by
  cases ty <;> rfl

end FrameType

structure Frame where
  ty : FrameType
  payload : List UInt8
  deriving DecidableEq

/-! ## Options -/

inductive ObfuscationProfile where
  | lowLatency
  | balanced
  | highEntropy
  | bulk
  | stealth
  deriving DecidableEq, Repr

inductive ChunkPolicy where
  | lowLatency
  | balanced
  | bulk
  | stealth
  | custom
  deriving DecidableEq, Repr

def ChunkPolicy.bounds (policy : ChunkPolicy) (fallbackMin fallbackMax stealthCapacity : Nat) :
    Nat × Nat :=
  match policy with
  | .lowLatency => (2 * 1024, 8 * 1024)
  | .balanced => (4 * 1024, 16 * 1024)
  | .bulk =>
    let min := max fallbackMin (64 * 1024)
    (min, max fallbackMax min)
  | .stealth => (stealthCapacity, stealthCapacity)
  | .custom => (fallbackMin, fallbackMax)

/-- The options the frame layer reads, less those that only time writes. -/
structure FrameOptions where
  maxPadding : Nat
  paddingChancePercent : Nat
  backpressureThresholdMs : Nat
  backpressureCooldownMs : Nat
  obfuscationProfile : ObfuscationProfile
  chunkPolicy : ChunkPolicy
  randomizeChunks : Bool
  minChunk : Nat
  maxChunk : Nat
  stealthFrameSize : Nat
  stealthFrameSizeCandidates : List Nat
  stealthTickMs : Nat
  stealthShaperEnabled : Bool
  stealthPaddingBudgetBps : Nat
  pacingEnabled : Bool
  pacingMinWriteBytes : Nat
  heartbeatSecs : Nat
  keyUpdateFrames : Nat
  deriving DecidableEq

namespace FrameOptions

def default : FrameOptions :=
  { maxPadding := 64, paddingChancePercent := 35
    backpressureThresholdMs := 40, backpressureCooldownMs := 1000
    obfuscationProfile := .balanced, chunkPolicy := .balanced, randomizeChunks := true
    minChunk := 1024, maxChunk := 16 * 1024
    stealthFrameSize := defaultStealthFrameSize, stealthFrameSizeCandidates := []
    stealthTickMs := 50, stealthShaperEnabled := false, stealthPaddingBudgetBps := 0
    pacingEnabled := true, pacingMinWriteBytes := 1024
    heartbeatSecs := 30, keyUpdateFrames := 16384 }

def isStealth (o : FrameOptions) : Bool := decide (o.obfuscationProfile = .stealth)

def validateStealth (o : FrameOptions) : Except Error Unit :=
  if o.stealthFrameSize ≤ aeadTagLen + stealthHeaderLen then
    .error (.msg "shared.stealth.frame_size must leave room for frame metadata")
  else if stealthMaxFrame < o.stealthFrameSize then
    .error (.msg s!"shared.stealth.frame_size must be <= {stealthMaxFrame}")
  else if o.stealthTickMs = 0 then
    .error (.msg "shared.stealth.tick_ms must be greater than 0")
  else .ok ()

def stealthPayloadCapacity (o : FrameOptions) : Except Error Nat :=
  match o.validateStealth with
  | .error e => .error e
  | .ok () => .ok (o.stealthFrameSize - aeadTagLen - stealthHeaderLen)

def normalizedChunkBounds (o : FrameOptions) : Nat × Nat :=
  if o.isStealth then
    let capacity := o.stealthPayloadCapacity.toOption.getD 1
    (capacity, capacity)
  else
    let stealthCapacity := o.stealthPayloadCapacity.toOption.getD defaultStealthFrameSize
    let policy := o.chunkPolicy.bounds o.minChunk o.maxChunk stealthCapacity
    let requestedMin := if o.pacingEnabled then max policy.1 o.pacingMinWriteBytes else policy.1
    let lower := min (max requestedMin 1) normalPayloadCapacity
    let upper := min (max policy.2 lower) normalPayloadCapacity
    if o.randomizeChunks then (lower, upper) else (upper, upper)

def nextChunkSize (o : FrameOptions) (draw : Nat) : Nat :=
  let bounds := o.normalizedChunkBounds
  if bounds.1 = bounds.2 then bounds.2
  else bounds.1 + draw % (bounds.2 - bounds.1 + 1)

def selectStealthFrameSize (o : FrameOptions) (width : PointerWidth) (selector : Nat) : Nat :=
  if o.stealthFrameSizeCandidates.isEmpty then o.stealthFrameSize
  else
    let index := width.usize selector % o.stealthFrameSizeCandidates.length
    o.stealthFrameSizeCandidates.getD index 0

def payloadCapacity (o : FrameOptions) : Nat :=
  if o.isStealth then o.stealthFrameSize - aeadTagLen - stealthHeaderLen
  else normalPayloadCapacity

/-- Options a session can run with: the plain profile, or a stealth profile
whose frame size passes its check. -/
def Usable (o : FrameOptions) : Prop := o.isStealth = true → o.validateStealth = .ok ()

end FrameOptions

/-! ## What a write draws from outside -/

/-- What one `write_one` meets: the random fill of a stealth frame, how the
transport takes the bytes (`some n`: it fails after `n` of them), how many
milliseconds the write took and the clock after it. -/
structure WriteEnv where
  fill : Nat → UInt8
  failsAfter : Option Nat
  elapsed : Nat
  now : Nat

/-- What one `send` meets: its up to three writes, and the draws that decide
on and fill the padding frame. -/
structure SendEnv where
  rotation : WriteEnv
  padding : WriteEnv
  frame : WriteEnv
  paddingNow : Nat
  paddingCoin : Nat
  paddingLen : Nat
  paddingBytes : Nat → UInt8

def WriteEnv.instant : WriteEnv :=
  { fill := fun _ => 0, failsAfter := none, elapsed := 0, now := 0 }

def SendEnv.instant : SendEnv :=
  { rotation := .instant, padding := .instant, frame := .instant, paddingNow := 0
    paddingCoin := 0, paddingLen := 0, paddingBytes := fun _ => 0 }

/-! ## Writer and reader -/

inductive AeadCall where
  | encrypt (key : Bytes 32) (nonce : Bytes 24) (plain : List UInt8)
  | decrypt (key : Bytes 32) (nonce : Bytes 24) (cipher : List UInt8)

/-- A frame handed to the transport: what it was encrypted under, and whether
it is the KEY_UPDATE that closes its generation. -/
structure Sent where
  generation : Nat
  seq : Nat
  key : Bytes 32
  nonce : Bytes 24
  ty : FrameType
  closing : Bool
  ciphertext : List UInt8

structure FrameWriter where
  wire : List UInt8
  txSeq : Nat
  keys : SessionKeys
  options : FrameOptions
  paddingDisabledUntil : Option Nat
  sent : List Sent
  aeadLog : List AeadCall

def FrameWriter.new (keys : SessionKeys) (options : FrameOptions) : FrameWriter :=
  { wire := [], txSeq := 0, keys, options, paddingDisabledUntil := none, sent := [], aeadLog := [] }

structure FrameReader where
  input : List UInt8
  rxSeq : Nat
  keys : SessionKeys
  options : FrameOptions
  aeadLog : List AeadCall

def FrameReader.new (input : List UInt8) (keys : SessionKeys) (options : FrameOptions) :
    FrameReader :=
  { input, rxSeq := 0, keys, options, aeadLog := [] }

abbrev Writing := EStateM Error FrameWriter
abbrev Reading := EStateM Error FrameReader

/-! ## Writing one frame -/

/-- `encrypt(&keys.tx, seq, &keys.nonce_tag, plain)`, logged. -/
def encryptNext (P : Platform) (plain : List UInt8) : Writing (List UInt8) := do
  let w ← get
  set { w with aeadLog :=
    w.aeadLog ++ [AeadCall.encrypt w.keys.txKey (sessionNonce w.txSeq w.keys.nonceTag) plain] }
  match encrypt P w.keys.txKey w.txSeq w.keys.nonceTag plain with
  | .ok cipher => return cipher
  | .error e => throw e

def advanceTxSeq (P : Platform) : Writing Unit := do
  let w ← get
  match addU64 P.build w.txSeq 1 with
  | some next => set { w with txSeq := next }
  | none => throw .panic

def WriteEnv.taken (env : WriteEnv) (bytes : List UInt8) : List UInt8 :=
  match env.failsAfter with
  | none => bytes
  | some n => bytes.take n

/-- `stream.write_all(bytes)`, with the frame entered in the log before the
transport sees it. -/
def handOver (env : WriteEnv) (entry : Sent) (bytes : List UInt8) : Writing Unit := do
  modify fun w => { w with sent := w.sent ++ [entry], wire := w.wire ++ env.taken bytes }
  if env.failsAfter.isSome then throw .io

def FrameWriter.entry (w : FrameWriter) (ty : FrameType) (closing : Bool)
    (ciphertext : List UInt8) : Sent :=
  { generation := w.keys.txGeneration, seq := w.txSeq, key := w.keys.txKey
    nonce := sessionNonce w.txSeq w.keys.nonceTag, ty, closing, ciphertext }

/-- The plaintext of a stealth frame: type, length, payload, random fill. -/
def stealthPlain (fill : Nat → UInt8) (size : Nat) (frame : Frame) : List UInt8 :=
  frame.ty.toByte :: (encodeBE 2 frame.payload.length ++ frame.payload ++
    (fillBytes fill size).drop (stealthHeaderLen + frame.payload.length))

def writeStealthOne (P : Platform) (env : WriteEnv) (closing : Bool) (frame : Frame) :
    Writing Nat := do
  let w ← get
  match w.options.stealthPayloadCapacity with
  | .error e => throw e
  | .ok capacity =>
    if capacity < frame.payload.length then throw (.msg "stealth frame payload too large")
    let size := w.options.stealthFrameSize - aeadTagLen
    let encrypted ← encryptNext P (stealthPlain env.fill size frame)
    if encrypted.length ≠ w.options.stealthFrameSize then
      throw (.msg "stealth encrypted frame size mismatch")
    advanceTxSeq P
    handOver env (w.entry frame.ty closing encrypted) encrypted
    return env.elapsed

/-- `write_one`; `closing` marks the frame in the log and nothing else. -/
def writeOne (P : Platform) (env : WriteEnv) (closing : Bool) (frame : Frame) :
    Writing Nat := do
  let w ← get
  if w.options.isStealth then writeStealthOne P env closing frame
  else do
    if normalPayloadCapacity < frame.payload.length then
      throw (.msg "frame payload too large")
    let encrypted ← encryptNext P (frame.ty.toByte :: frame.payload)
    advanceTxSeq P
    if normalMaxFrame < encrypted.length then throw (.msg "encrypted frame too large")
    let maskedLen := (encrypted.length % 2 ^ 32) ^^^ lengthMask P w.keys.txLenMask w.txSeq
    handOver env (w.entry frame.ty closing encrypted) (encodeBE 4 maskedLen ++ encrypted)
    return env.elapsed

/-! ## Sending -/

/-- The padding circuit breaker: a slow write disables padding for a while. -/
def observeBackpressure (o : FrameOptions) (env : WriteEnv) : Option Nat :=
  if o.backpressureThresholdMs = 0 ∨ o.backpressureCooldownMs = 0 then none
  else if o.backpressureThresholdMs ≤ env.elapsed then
    some (env.now + o.backpressureCooldownMs)
  else none

def observeWriteBackpressure (env : WriteEnv) : Writing Unit :=
  modify fun w =>
    match observeBackpressure w.options env with
    | some til => { w with paddingDisabledUntil := some til }
    | none => w

def shouldKeyUpdate (o : FrameOptions) (txSeq : Nat) (ty : FrameType) : Bool :=
  decide (0 < o.keyUpdateFrames) && decide (0 < txSeq) && decide (txSeq % o.keyUpdateFrames = 0)
    && decide (ty ≠ .padding) && decide (ty ≠ .keyUpdate)

def genBool (percent draw : Nat) : Bool := decide (draw % 100 < percent)

def shouldSendPadding (o : FrameOptions) (disabledUntil : Option Nat) (now coin : Nat) : Bool :=
  if o.isStealth then false
  else if o.maxPadding = 0 ∨ o.paddingChancePercent = 0 then false
  else if disabledUntil.any (now < ·) then false
  else genBool (min o.paddingChancePercent 100) coin

/-- The padding frame of a send: `gen_range(1..=max_padding)` random bytes. -/
def paddingFrame (o : FrameOptions) (env : SendEnv) : Frame :=
  { ty := .padding, payload := fillBytes env.paddingBytes (1 + env.paddingLen % o.maxPadding) }

def rotateTx (P : Platform) : Writing Unit := do
  let w ← get
  match w.keys.updateTx P with
  | .ok keys => set { w with keys, txSeq := 0 }
  | .error e => throw e

def keyUpdateFrame : Frame := { ty := .keyUpdate, payload := [] }

def maybeWriteKeyUpdate (P : Platform) (env : SendEnv) (ty : FrameType) : Writing Unit := do
  let w ← get
  if shouldKeyUpdate w.options w.txSeq ty then
    let _ ← writeOne P env.rotation true keyUpdateFrame
    observeWriteBackpressure env.rotation
    rotateTx P

def insertsPadding (w : FrameWriter) (env : SendEnv) (ty : FrameType) : Bool :=
  !w.options.isStealth && decide (ty ≠ .padding) && decide (ty ≠ .keyUpdate) &&
    shouldSendPadding w.options w.paddingDisabledUntil env.paddingNow env.paddingCoin

def maybeWritePadding (P : Platform) (env : SendEnv) (ty : FrameType) : Writing Unit := do
  let w ← get
  if insertsPadding w env ty then
    let _ ← writeOne P env.padding false (paddingFrame w.options env)
    observeWriteBackpressure env.padding

def sendWithOptionalPadding (P : Platform) (env : SendEnv) (frame : Frame) : Writing Unit := do
  maybeWriteKeyUpdate P env frame.ty
  maybeWritePadding P env frame.ty
  let _ ← writeOne P env.frame false frame
  observeWriteBackpressure env.frame

def FrameWriter.send (P : Platform) (env : SendEnv) (frame : Frame) : Writing Unit :=
  sendWithOptionalPadding P env frame

def FrameWriter.after (P : Platform) (w : FrameWriter) (call : SendEnv × Frame) : FrameWriter :=
  finalState ((FrameWriter.send P call.1 call.2).run w)

def FrameWriter.afterAll (P : Platform) (w : FrameWriter) (calls : List (SendEnv × Frame)) :
    FrameWriter :=
  calls.foldl (FrameWriter.after P) w

theorem afterAll_cons (P : Platform) (w : FrameWriter) (call : SendEnv × Frame)
    (calls : List (SendEnv × Frame)) :
    w.afterAll P (call :: calls) = (w.after P call).afterAll P calls := rfl

/-! ## Reading -/

def readBytes (n : Nat) : Reading (List UInt8) := do
  let r ← get
  match takeExact n r.input with
  | some (bytes, rest) => set { r with input := rest }; return bytes
  | none => throw .eof

/-- `decrypt(&keys.rx, seq, &keys.nonce_tag, encrypted)`, logged. -/
def decryptNext (P : Platform) (encrypted : List UInt8) : Reading (List UInt8) := do
  let r ← get
  set { r with aeadLog :=
    r.aeadLog ++ [AeadCall.decrypt r.keys.rxKey (sessionNonce r.rxSeq r.keys.nonceTag) encrypted] }
  match decrypt P r.keys.rxKey r.rxSeq r.keys.nonceTag encrypted with
  | .ok plain => return plain
  | .error e => throw e

def advanceRxSeq (P : Platform) : Reading Unit := do
  let r ← get
  match addU64 P.build r.rxSeq 1 with
  | some next => set { r with rxSeq := next }
  | none => throw .panic

def rotateRx (P : Platform) (ty : FrameType) : Reading Unit := do
  if ty = .keyUpdate then
    let r ← get
    match r.keys.updateRx P with
    | .ok keys => set { r with keys, rxSeq := 0 }
    | .error e => throw e

def readStealthOne (P : Platform) : Reading Frame := do
  let r ← get
  match r.options.validateStealth with
  | .error e => throw e
  | .ok () =>
    let encrypted ← readBytes r.options.stealthFrameSize
    let plain ← decryptNext P encrypted
    advanceRxSeq P
    if plain.length < stealthHeaderLen then throw (.msg "short stealth plaintext frame")
    let payloadLen := decodeBE ((plain.drop 1).take 2)
    match r.options.stealthPayloadCapacity with
    | .error e => throw e
    | .ok capacity =>
      if capacity < payloadLen ∨ plain.length < stealthHeaderLen + payloadLen then
        throw (.msg s!"invalid stealth payload length {payloadLen}")
      match FrameType.tryFrom (plain.headD 0) with
      | .error e => throw e
      | .ok ty =>
        rotateRx P ty
        return { ty, payload := (plain.drop stealthHeaderLen).take payloadLen }

def readOne (P : Platform) : Reading Frame := do
  let r ← get
  if r.options.isStealth then readStealthOne P
  else do
    let maskedLen ← readBytes 4
    let len := decodeBE maskedLen ^^^ lengthMask P r.keys.rxLenMask r.rxSeq
    if len = 0 ∨ normalMaxFrame < len then throw (.msg s!"invalid frame length {len}")
    let encrypted ← readBytes len
    let plain ← decryptNext P encrypted
    advanceRxSeq P
    match plain with
    | [] => throw (.msg "empty plaintext frame")
    | byte :: payload =>
      match FrameType.tryFrom byte with
      | .error e => throw e
      | .ok ty =>
        rotateRx P ty
        return { ty, payload }

def Frame.visible (frame : Frame) : Bool :=
  decide (frame.ty ≠ .padding) && decide (frame.ty ≠ .keyUpdate)

/-- `recv`: read frames until one is visible.  Every frame takes at least one
byte, so the bytes at hand bound the iterations. -/
def FrameReader.recv (P : Platform) : Reading Frame := do
  let r ← get
  StreamCodec.readUntil .eof (readOne P) Frame.visible (r.input.length + 1)

end Espejismo
