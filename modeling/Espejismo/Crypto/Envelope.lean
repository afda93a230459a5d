import Espejismo.Platform
import Espejismo.Protocol.Replay

/-!
# Crypto.Envelope

The bytes of a handshake message (`crypto/mod.rs`), hidden under a stream of HMAC
blocks: in the plain profile as a variable-length envelope (nonce, masked length,
masked payload with a random tail), in the stealth profile as a block of fixed
size.
-/

namespace Espejismo

open Binary List EStateM

/-! ## Reading and writing -/

/-- One end of the connection during the handshake, with the replay cache the
accepting end may share. -/
structure HandshakeIo where
  input : List UInt8
  output : List UInt8
  replay : Option ReplayCache

abbrev Handshaking := EStateM Error HandshakeIo

def liftExcept : Except Error α → Handshaking α
  | .ok a => pure a
  | .error e => throw e

/-- `read_exact` of `n` bytes; its error shows as `context`. -/
def readExact (context : String) (n : Nat) : Handshaking (List UInt8) := do
  let s ← get
  match takeExact n s.input with
  | some (bytes, rest) => set { s with input := rest }; return bytes
  | none => throw (.msg context)

/-- `write_all`; with `some n` the connection fails after `n` bytes. -/
def writeAll (failsAfter : Option Nat) (bytes : List UInt8) : Handshaking Unit := do
  match failsAfter with
  | none => modify fun s => { s with output := s.output ++ bytes }
  | some n =>
    modify fun s => { s with output := s.output ++ bytes.take n }
    throw .io

@[simp] theorem run_liftExcept_ok (a : α) (s : HandshakeIo) :
    (liftExcept (.ok a)).run s = .ok a s := rfl

@[simp] theorem run_liftExcept_error (e : Error) (s : HandshakeIo) :
    (liftExcept (.error e : Except Error α)).run s = .error e s := rfl

variable {context : String} {n frameSize : Nat} {s : HandshakeIo} {bytes clear : List UInt8}

theorem run_readExact (hn : bytes.length = n) (h : s.input = bytes ++ rest) :
    (readExact context n).run s = .ok bytes { s with input := rest } := by
  have hta : takeExact n s.input = some (bytes, rest) := by
    rw [h, takeExact_append hn]
  simp only [readExact, run_bind, run_get, hta, run_set, run_pure]

theorem run_readExact_short (h : s.input.length < n) :
    (readExact context n).run s = .error (.msg context) s := by
  have hta : takeExact n s.input = none := if_neg (by omega)
  simp only [readExact, run_bind, run_get, hta]
  rfl

theorem run_liftExcept_eq_ok : (liftExcept x).run s = .ok a s' ↔ x = .ok a ∧ s' = s := by
  cases x with
  | ok => simp [eq_comm]
  | error => simp

theorem run_readExact_eq_ok :
    (readExact context n).run s = .ok bytes s' ↔
      bytes.length = n ∧ ∃ rest, s.input = bytes ++ rest ∧ s' = { s with input := rest } := by
  constructor
  · intro h
    by_cases hn : s.input.length < n
    · rw [run_readExact_short hn] at h
      contradiction
    have hl : (s.input.take n).length = n := by
      rw [length_take]
      omega
    rw [run_readExact hl (take_append_drop n s.input).symm] at h
    obtain ⟨rfl, rfl⟩ := EStateM.Result.ok.inj h
    exact ⟨hl, _, (take_append_drop n s.input).symm, rfl⟩
  · rintro ⟨hl, rest, hin, rfl⟩
    exact run_readExact hl hin

@[simp] theorem run_writeAll_none (bytes : List UInt8) (s : HandshakeIo) :
    (writeAll none bytes).run s = .ok () { s with output := s.output ++ bytes } := rfl

/-! ## The mask -/

/-- The blocks that mask `n` bytes: HMACs over the domain, label, nonce, context
and a block counter. -/
def hmacStream (P : Platform) (key : Bytes 32) (domain label nonce context : List UInt8)
    (n : Nat) : List UInt8 :=
  (List.range ((n + 31) / 32)).flatMap fun counter =>
    (P.hmacSha256 key.val (domain ++ label ++ nonce ++ context ++ encodeBE 4 counter)).val

def xorHmacStreamWithDomain (P : Platform) (key : Bytes 32)
    (domain label nonce context data : List UInt8) : List UInt8 :=
  xorBytes data (hmacStream P key domain label nonce context data.length)

def xorHmacStream (P : Platform) (key : Bytes 32) (label nonce context data : List UInt8) :
    List UInt8 :=
  xorHmacStreamWithDomain P key (ascii "stealth-handshake:") label nonce context data

def xorVariableHandshakeLen (P : Platform) (key : Bytes 32)
    (label context nonce data : List UInt8) : List UInt8 :=
  xorHmacStreamWithDomain P key (ascii "handshake-len:") label nonce context data

def xorVariableHandshakePayload (P : Platform) (key : Bytes 32)
    (label context nonce data : List UInt8) : List UInt8 :=
  xorHmacStreamWithDomain P key (ascii "handshake-payload:") label nonce context data

section Mask

variable (P : Platform) (key : Bytes 32) (domain label nonce context data : List UInt8)

theorem length_hmacStream (n : Nat) :
    (hmacStream P key domain label nonce context n).length = 32 * ((n + 31) / 32) := by
  simp [hmacStream]
  omega

@[simp] theorem length_xorHmacStreamWithDomain :
    (xorHmacStreamWithDomain P key domain label nonce context data).length = data.length := by
  refine length_xorBytes ?_
  rw [length_hmacStream]
  omega

@[simp] theorem xorHmacStreamWithDomain_twice :
    xorHmacStreamWithDomain P key domain label nonce context
      (xorHmacStreamWithDomain P key domain label nonce context data) = data := by
  rw [xorHmacStreamWithDomain, length_xorHmacStreamWithDomain]
  refine xorBytes_xorBytes ?_
  rw [length_hmacStream]
  omega

end Mask

/-! ## The variable envelope -/

structure EnvelopeEnv where
  nonce : Bytes 24
  extraDraw : Nat
  extra : Nat → UInt8

/-- `random_padding_len`; `draw` is the random `u16`. -/
def randomPaddingLen (maxPadding draw : Nat) : Nat :=
  if maxPadding = 0 then 0 else draw % 2 ^ 16 % (maxPadding + 1)

theorem randomPaddingLen_le (maxPadding draw : Nat) :
    randomPaddingLen maxPadding draw ≤ maxPadding := by
  unfold randomPaddingLen
  split
  · omega
  · have hlt : draw % 2 ^ 16 % (maxPadding + 1) < maxPadding + 1 := Nat.mod_lt _ (by omega)
    omega

def variableHandshakeNonceLen : Nat := 24
def variableHandshakeLenLen : Nat := 4
def variableHandshakeExtraPaddingMax : Nat := 512

def envelopePayload (env : EnvelopeEnv) (clear : List UInt8) (maxExtraPadding : Nat) :
    List UInt8 :=
  clear ++ fillBytes env.extra (randomPaddingLen maxExtraPadding env.extraDraw)

def envelopeLen (P : Platform) (env : EnvelopeEnv) (key : Bytes 32)
    (label context clear : List UInt8)
    (maxExtraPadding : Nat) : List UInt8 :=
  xorVariableHandshakeLen P key label context env.nonce.val
    (encodeBE 4 (envelopePayload env clear maxExtraPadding).length)

def maskVariableHandshakeEnvelope (P : Platform) (env : EnvelopeEnv) (key : Bytes 32)
    (label context clear : List UInt8) (maxExtraPadding : Nat) : List UInt8 :=
  env.nonce.val ++ (envelopeLen P env key label context clear maxExtraPadding ++
    xorVariableHandshakePayload P key label context env.nonce.val
      (envelopePayload env clear maxExtraPadding))

def unmaskVariableHandshakeLen (P : Platform) (key : Bytes 32)
    (label context nonce maskedLen : List UInt8) : Nat :=
  decodeBE (xorVariableHandshakeLen P key label context nonce maskedLen)

def readVariableHandshakeEnvelope (P : Platform) (key : Bytes 32) (label context : List UInt8)
    (minPayloadLen maxPayloadLen : Nat) : Handshaking (List UInt8) := do
  let nonce ← readExact "handshake envelope nonce failed" variableHandshakeNonceLen
  let maskedLen ← readExact "handshake envelope length failed" variableHandshakeLenLen
  let payloadLen := unmaskVariableHandshakeLen P key label context nonce maskedLen
  if payloadLen < minPayloadLen ∨ maxPayloadLen < payloadLen then
    throw (.msg "handshake envelope length outside configured bounds")
  let payload ← readExact "handshake envelope payload failed" payloadLen
  return xorVariableHandshakePayload P key label context nonce payload

section Envelope

variable (P : Platform) (env : EnvelopeEnv) (key : Bytes 32) (label context : List UInt8)
  {clear : List UInt8}

theorem length_envelopePayload (clear : List UInt8) (maxExtra : Nat) :
    (envelopePayload env clear maxExtra).length =
      clear.length + randomPaddingLen maxExtra env.extraDraw := by
  simp [envelopePayload]

@[simp] theorem length_envelopeLen :
    (envelopeLen P env key label context clear maxExtra).length = 4 := by
  simp [envelopeLen, xorVariableHandshakeLen]

theorem unmask_envelopeLen (h : clear.length + maxExtra < 2 ^ 32) :
    unmaskVariableHandshakeLen P key label context env.nonce.val
        (envelopeLen P env key label context clear maxExtra) =
      (envelopePayload env clear maxExtra).length := by
  have hle := randomPaddingLen_le maxExtra env.extraDraw
  have hl := length_envelopePayload env clear maxExtra
  simp only [unmaskVariableHandshakeLen, envelopeLen, xorVariableHandshakeLen,
    xorHmacStreamWithDomain_twice]
  exact decodeBE_encodeBE (by omega)

/-- **Envelope roundtrip**: the reader finds the message at the front of the
payload and has read the whole envelope. -/
theorem readVariableHandshakeEnvelope_mask (hmi : minLen ≤ clear.length)
    (hmax : clear.length + maxExtra ≤ maxLen) (hfi : maxLen < 2 ^ 32)
    (hin : s.input = maskVariableHandshakeEnvelope P env key label context clear maxExtra ++ rest) :
    (readVariableHandshakeEnvelope P key label context minLen maxLen).run s =
      .ok (envelopePayload env clear maxExtra) { s with input := rest } := by
  have hle := randomPaddingLen_le maxExtra env.extraDraw
  have hl := length_envelopePayload env clear maxExtra
  have hun := unmask_envelopeLen P env key label context
    (show clear.length + maxExtra < 2 ^ 32 by omega)
  rw [maskVariableHandshakeEnvelope, append_assoc, append_assoc] at hin
  have hbo : ¬ ((envelopePayload env clear maxExtra).length < minLen ∨
      maxLen < (envelopePayload env clear maxExtra).length) := by omega
  simp only [readVariableHandshakeEnvelope, run_bind,
    run_readExact (n := variableHandshakeNonceLen) env.nonce.property hin]
  rw [run_readExact (n := variableHandshakeLenLen) (length_envelopeLen P env key label context) rfl]
  simp only [hun, hbo, if_false, run_bind]
  rw [run_readExact (by simp [xorVariableHandshakePayload]) rfl]
  simp [xorVariableHandshakePayload]

end Envelope

/-! ## The stealth block -/

def clientHelloTagLen : Nat := 32
def clientHelloFixedBodyLen : Nat := 8 + 24 + 32 + 2 + 8 + 8 + 2
def serverHelloLen : Nat := 32 + 2 + 8 + 32
def stealthHandshakeNonceLen : Nat := 24

def validateStealthHandshakeFrame (frameSize : Nat) : Except Error Unit :=
  let minClient := stealthHandshakeNonceLen + clientHelloTagLen + clientHelloFixedBodyLen
  let minServer := stealthHandshakeNonceLen + serverHelloLen
  if frameSize < max minClient minServer then
    .error (.msg "shared.stealth.frame_size is too small for stealth handshake")
  else .ok ()

structure BlockEnv where
  nonce : Bytes 24
  fill : Nat → UInt8

def blockPayload (env : BlockEnv) (clear : List UInt8) (frameSize : Nat) : List UInt8 :=
  clear ++ (fillBytes env.fill (frameSize - stealthHandshakeNonceLen)).drop clear.length

def maskStealthHandshakeBlock (P : Platform) (env : BlockEnv) (key : Bytes 32)
    (label context clear : List UInt8) (frameSize : Nat) : Except Error (List UInt8) :=
  match validateStealthHandshakeFrame frameSize with
  | .error e => .error e
  | .ok () =>
    if frameSize < clear.length + stealthHandshakeNonceLen then
      .error (.msg "stealth handshake payload exceeds frame size")
    else
      .ok (env.nonce.val ++
        xorHmacStream P key label env.nonce.val context (blockPayload env clear frameSize))

def unmaskStealthHandshakeBlock (P : Platform) (key : Bytes 32) (label context block : List UInt8) :
    Except Error (List UInt8) :=
  if block.length ≤ stealthHandshakeNonceLen then .error (.msg "short stealth handshake block")
  else
    .ok (xorHmacStream P key label (block.take stealthHandshakeNonceLen) context
      (block.drop stealthHandshakeNonceLen))

theorem validateStealthHandshakeFrame_eq_ok (h : validateStealthHandshakeFrame frameSize = .ok ()) :
    140 ≤ frameSize := by
  unfold validateStealthHandshakeFrame at h
  dsimp only at h
  split at h
  · contradiction
  · next hmi =>
    simp only [stealthHandshakeNonceLen, clientHelloTagLen, clientHelloFixedBodyLen] at hmi
    omega

theorem length_blockPayload (env : BlockEnv)
    (h : clear.length + stealthHandshakeNonceLen ≤ frameSize) :
    (blockPayload env clear frameSize).length = frameSize - stealthHandshakeNonceLen := by
  simp only [blockPayload, length_append, length_drop, length_fillBytes]
  omega

/-- **Block roundtrip**: a message that fits is masked into a block of the frame
size and found at its front. -/
theorem unmask_maskStealthHandshakeBlock (P : Platform) (env : BlockEnv) (key : Bytes 32)
    (label context : List UInt8) (hv : validateStealthHandshakeFrame frameSize = .ok ())
    (hfi : clear.length + stealthHandshakeNonceLen ≤ frameSize) :
    ∃ block, maskStealthHandshakeBlock P env key label context clear frameSize = .ok block ∧
      block.length = frameSize ∧
      unmaskStealthHandshakeBlock P key label context block =
        .ok (blockPayload env clear frameSize) := by
  have hmi := validateStealthHandshakeFrame_eq_ok hv
  have hl := length_blockPayload env hfi
  refine ⟨_, by rw [maskStealthHandshakeBlock, hv]; exact if_neg (by omega), ?_, ?_⟩
  · simp only [xorHmacStream, length_append, length_xorHmacStreamWithDomain,
      Bytes.length_val, hl, stealthHandshakeNonceLen]
    omega
  · have hno : env.nonce.val.length = stealthHandshakeNonceLen := env.nonce.property
    rw [unmaskStealthHandshakeBlock, if_neg, take_left' hno, drop_left' hno]
    · simp [xorHmacStream]
    · simp only [xorHmacStream, length_append, length_xorHmacStreamWithDomain, hl,
        stealthHandshakeNonceLen]
      omega

end Espejismo
