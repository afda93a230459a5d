import Mathlib.Data.List.Basic
import Espejismo.Binary.Bytes
import Espejismo.Data.Utf8
import Espejismo.Text

/-!
# Underlay.WebSocket

The frames of the WebSocket underlay (`underlay.rs`): `readWsFrame` and
`writeWsFrame`.

`RawFrame` is a frame by its fields and `RawFrame.encode` the one way to put it
on the wire.  `readWsFrame_eq_ok_iff` says what the reader accepts: exactly the
bytes of a raw frame it has a meaning for.  Both directions of the codec are
read off it.
-/

namespace Espejismo.Underlay

open Binary List

inductive WebSocketRole where
  | client
  | server
  deriving DecidableEq, Repr

def WebSocketRole.opposite : WebSocketRole → WebSocketRole
  | .client => .server
  | .server => .client

inductive WsFrame where
  | data (payload : List UInt8)
  | dataStart (payload : List UInt8)
  | continuation (payload : List UInt8) (finalFragment : Bool)
  | ping (payload : List UInt8)
  | pong
  | close (payload : List UInt8)
  deriving DecidableEq, Repr

/-! ## The functions of the source -/

def applyWebsocketMask (payload : List UInt8) (mask : Bytes 4) : List UInt8 :=
  payload.mapIdx fun i byte => byte ^^^ mask.val.getD (i % 4) 0

def websocketMaskMatchesPeerRole (masked : Bool) (role : WebSocketRole) : Bool :=
  masked == (role == .server)

def validWebsocketCloseCode (code : Nat) : Bool :=
  (1000 ≤ code && code ≤ 1003) || (1007 ≤ code && code ≤ 1014) || (2000 ≤ code && code ≤ 2999) ||
    (3000 ≤ code && code ≤ 4999)

def readExact (n : Nat) (input : List UInt8) : Except Error (List UInt8 × List UInt8) :=
  match takeExact n input with
  | some (bytes, rest) => .ok (bytes, rest)
  | none => .error .eof

def readLen (second : UInt8) (input : List UInt8) : Except Error (Nat × List UInt8) :=
  let len := (second &&& 0x7f).toNat
  if len = 126 then do
    let (bytes, input) ← readExact 2 input
    ensure (126 ≤ decodeBE bytes) "websocket frame length is not minimally encoded"
    return (decodeBE bytes, input)
  else if len = 127 then do
    let (bytes, input) ← readExact 8 input
    ensure (decodeBE bytes < 2 ^ 63) "websocket frame length has its high bit set"
    ensure (65535 < decodeBE bytes) "websocket frame length is not minimally encoded"
    return (decodeBE bytes, input)
  else return (len, input)

def readPayload (masked : Bool) (payloadLen : Nat) (input : List UInt8) :
    Except Error (List UInt8 × List UInt8) :=
  if masked then do
    let (mask, input) ← readExact 4 input
    let (payload, input) ← readExact payloadLen input
    match firstBytes 4 mask with
    | some mask => return (applyWebsocketMask payload mask, input)
    | none => throw .eof
  else readExact payloadLen input

def frameOf (opcode : UInt8) (finalFragment : Bool) (payload : List UInt8) :
    Except Error WsFrame :=
  if opcode = 0x1 then do
    -- text messages are checked although only binary messages are carried
    ensure (Utf8.decode payload).isSome "websocket text payload is not UTF-8"
    throw (.msg "websocket text frames are unsupported")
  else if opcode = 0x0 then return .continuation payload finalFragment
  else if opcode = 0x2 then
    if finalFragment then return .data payload else return .dataStart payload
  else if opcode = 0x8 then do
    ensure (payload.isEmpty || 2 ≤ payload.length) "websocket close payload is truncated"
    if 2 ≤ payload.length then
      let code := decodeBE (payload.take 2)
      ensure (validWebsocketCloseCode code) s!"invalid websocket close code {code}"
      ensure (Utf8.decode (payload.drop 2)).isSome "websocket close reason is not UTF-8"
    return .close payload
  else if opcode = 0x9 then return .ping payload
  else if opcode = 0xa then return .pong
  else
    let other := opcode.toNat
    throw (.msg s!"unsupported websocket opcode {other}")

/-- `read_ws_frame`, with the bytes that are left.  It has no way to return
`Ok(None)`: the end of the stream is an error like any other. -/
def readWsFrame (role : WebSocketRole) (maxFrameBytes : Nat) (input : List UInt8) :
    Except Error (WsFrame × List UInt8) := do
  let (head, input) ← readExact 2 input
  let first := head.getD 0 0
  let second := head.getD 1 0
  let opcode := first &&& 0x0f
  ensure (first &&& 0x70 == 0) "websocket reserved bits are set"
  let finalFragment := first &&& 0x80 != 0
  let masked := second &&& 0x80 != 0
  let (len, input) ← readLen second input
  ensure (len ≤ maxFrameBytes) "websocket frame exceeds configured limit"
  ensure (opcode < 0x8 || finalFragment) "websocket control frame is fragmented"
  ensure (opcode < 0x8 || len ≤ 125) "websocket control frame exceeds 125 bytes"
  ensure (websocketMaskMatchesPeerRole masked role)
    "websocket frame mask bit did not match peer role"
  let (payload, input) ← readPayload masked len input
  let frame ← frameOf opcode finalFragment payload
  return (frame, input)

/-- The header `write_ws_frame` writes first; a client's ends with the mask it
draws. -/
def wsHeader (role : WebSocketRole) (mask : Bytes 4) (opcode : UInt8) (payloadLen : Nat) :
    List UInt8 :=
  let masked := role == .client
  let maskBit : UInt8 := if masked then 0x80 else 0x00
  let length :=
    if payloadLen ≤ 125 then [maskBit ||| UInt8.ofNat payloadLen]
    else if payloadLen ≤ 65535 then (maskBit ||| 126) :: encodeBE 2 payloadLen
    else (maskBit ||| 127) :: encodeBE 8 payloadLen
  [0x80 ||| (opcode &&& 0x0f)] ++ length ++ if masked then mask.val else []

def wsBody (role : WebSocketRole) (mask : Bytes 4) (payload : List UInt8) : List UInt8 :=
  if role == .client then applyWebsocketMask payload mask else payload

def writeWsFrame (role : WebSocketRole) (mask : Bytes 4) (opcode : UInt8)
    (payload : List UInt8) : List UInt8 :=
  wsHeader role mask opcode payload.length ++ wsBody role mask payload

/-! ## Masks and exact reads -/

@[simp] theorem length_applyWebsocketMask (payload : List UInt8) (mask : Bytes 4) :
    (applyWebsocketMask payload mask).length = payload.length := by
  simp [applyWebsocketMask]

@[simp] theorem applyWebsocketMask_twice (payload : List UInt8) (mask : Bytes 4) :
    applyWebsocketMask (applyWebsocketMask payload mask) mask = payload := by
  unfold applyWebsocketMask
  apply ext_getElem
  · simp
  · intro i _ _
    rw [getElem_mapIdx, getElem_mapIdx, UInt8.xor_assoc, UInt8.xor_self, UInt8.xor_zero]

variable {n maxFrameBytes : Nat} {input rest : List UInt8} {role : WebSocketRole} {f : RawFrame}
  {frame : WsFrame}

theorem readExact_append (h : xs.length = n) (ys : List UInt8) :
    readExact n (xs ++ ys) = .ok (xs, ys) := by
  rw [readExact, takeExact_append h]

theorem readExact_eq_ok_iff :
    readExact n input = .ok (bytes, rest) ↔ bytes.length = n ∧ input = bytes ++ rest := by
  constructor
  · intro h
    unfold readExact at h
    cases hta : takeExact n input with
    | none => simp [hta] at h
    | some =>
      simp only [hta] at h
      obtain ⟨rfl, rfl⟩ := h
      exact takeExact_eq_some hta
  · rintro ⟨hl, rfl⟩
    exact readExact_append hl rest

/-! ## Raw frames -/

/-- The fields of a frame; the mask is there whether or not it is used. -/
structure RawFrame where
  final : Bool
  opcode : UInt8
  opcode_lt : opcode < 0x10
  mask : Bytes 4
  payload : List UInt8

def highBit (set : Bool) (low : UInt8) : UInt8 := (if set then 0x80 else 0x00) ||| low

def lengthField (masked : Bool) (n : Nat) : List UInt8 :=
  if n ≤ 125 then [highBit masked (UInt8.ofNat n)]
  else if n ≤ 65535 then highBit masked 126 :: encodeBE 2 n
  else highBit masked 127 :: encodeBE 8 n

namespace RawFrame

def body (masked : Bool) (mask : Bytes 4) (payload : List UInt8) : List UInt8 :=
  if masked then mask.val ++ applyWebsocketMask payload mask else payload

def encode (masked : Bool) (f : RawFrame) : List UInt8 :=
  highBit f.final f.opcode :: (lengthField masked f.payload.length ++ body masked f.mask f.payload)

end RawFrame

theorem writeWsFrame_eq_encode (role : WebSocketRole) (mask : Bytes 4)
    (hop : opcode < 0x10) (payload : List UInt8) :
    writeWsFrame role mask opcode payload =
      RawFrame.encode (role == .client)
        { final := true, opcode, opcode_lt := hop, mask, payload } := by
  have hlo : opcode &&& 0x0f = opcode := by
    have ha : ∀ n < 16, UInt8.ofNat n &&& 0x0f = UInt8.ofNat n := by decide
    simpa using ha opcode.toNat (UInt8.lt_iff_toNat_lt.mp hop)
  cases role <;>
    simp [writeWsFrame, wsHeader, wsBody, RawFrame.encode, lengthField, highBit, RawFrame.body, hlo]

section Bits

theorem highBit_and_7f (b : UInt8) : highBit (b &&& 0x80 != 0) (b &&& 0x7f) = b := by
  have ha : ∀ n < 256, highBit (UInt8.ofNat n &&& 0x80 != 0) (UInt8.ofNat n &&& 0x7f) =
      UInt8.ofNat n := by decide +kernel
  simpa using ha b.toNat b.toNat_lt

theorem highBit_and_0f (h : b &&& 0x70 = 0) : highBit (b &&& 0x80 != 0) (b &&& 0x0f) = b := by
  have ha : ∀ n < 256, UInt8.ofNat n &&& 0x70 = 0 →
      highBit (UInt8.ofNat n &&& 0x80 != 0) (UInt8.ofNat n &&& 0x0f) = UInt8.ofNat n := by
    decide +kernel
  have hb := ha b.toNat b.toNat_lt
  rw [UInt8.ofNat_toNat] at hb
  exact hb h

theorem and_0f_lt (b : UInt8) : b &&& 0x0f < 0x10 := by
  exact Nat.lt_of_le_of_lt Nat.and_le_right (by decide)

theorem and_7f_lt (b : UInt8) : b &&& 0x7f < 0x80 := by
  exact Nat.lt_of_le_of_lt Nat.and_le_right (by decide)

theorem and_highBit (set : Bool) (h : low < 0x80) :
    (highBit set low &&& 0x80 != 0) = set ∧ highBit set low &&& 0x7f = low := by
  have ha : ∀ n < 128, ∀ set : Bool, (highBit set (UInt8.ofNat n) &&& 0x80 != 0) = set ∧
      highBit set (UInt8.ofNat n) &&& 0x7f = UInt8.ofNat n := by decide
  simpa using ha low.toNat (UInt8.lt_iff_toNat_lt.mp h) set

theorem and_highBit_opcode (set : Bool) (h : low < 0x10) :
    highBit set low &&& 0x70 = 0 ∧ highBit set low &&& 0x0f = low := by
  have ha : ∀ n < 16, ∀ set : Bool, highBit set (UInt8.ofNat n) &&& 0x70 = 0 ∧
      highBit set (UInt8.ofNat n) &&& 0x0f = UInt8.ofNat n := by decide
  simpa using ha low.toNat (UInt8.lt_iff_toNat_lt.mp h) set

end Bits

/-! ## Reading what was written -/

theorem toNat_shortLength (h : n ≤ 125) : (UInt8.ofNat n).toNat = n ∧ UInt8.ofNat n < 0x80 := by
  have hn : (UInt8.ofNat n).toNat = n := by
    rw [UInt8.toNat_ofNat']
    omega
  refine ⟨hn, ?_⟩
  rw [UInt8.lt_iff_toNat_lt, hn]
  exact Nat.lt_of_le_of_lt h (by decide)

theorem readLen_lengthField (masked : Bool) (h : n < 2 ^ 63) (rest : List UInt8) :
    ∃ low tail, low < 0x80 ∧ lengthField masked n = highBit masked low :: tail ∧
      readLen (highBit masked low) (tail ++ rest) = .ok (n, rest) := by
  unfold lengthField
  by_cases hs : n ≤ 125
  · obtain ⟨hn, hlo⟩ := toNat_shortLength hs
    refine ⟨UInt8.ofNat n, [], hlo, if_pos hs, ?_⟩
    rw [readLen, (and_highBit masked hlo).2, hn, if_neg (by omega), if_neg (by omega)]
    rfl
  · rw [if_neg hs]
    by_cases hmd : n ≤ 65535
    · have hn : decodeBE (encodeBE 2 n) = n := decodeBE_encodeBE (by omega)
      refine ⟨126, encodeBE 2 n, by decide, if_pos hmd, ?_⟩
      rw [readLen, (and_highBit masked (by decide)).2, if_pos (by decide)]
      have hmi : 126 ≤ n := by omega
      simp [readExact_append (length_encodeBE 2 n), hn, ensure, hmi, bind, Except.bind, pure,
        Except.pure]
    · have hn : decodeBE (encodeBE 8 n) = n := decodeBE_encodeBE (by omega)
      refine ⟨127, encodeBE 8 n, by decide, if_neg hmd, ?_⟩
      rw [readLen, (and_highBit masked (by decide)).2, if_neg (by decide), if_pos (by decide)]
      have hmi : 65535 < n := by omega
      simp only [readExact_append (length_encodeBE 8 n), hn, ensure, hmi, h, bind, Except.bind,
        pure, Except.pure, decide_true, if_true]

theorem readPayload_body (masked : Bool) (mask : Bytes 4) (payload rest : List UInt8) :
    readPayload masked payload.length (RawFrame.body masked mask payload ++ rest) =
      .ok (payload, rest) := by
  cases masked with
  | false => exact readExact_append rfl rest
  | true =>
    have hm : firstBytes 4 mask.val = some mask := by simpa using firstBytes_append mask []
    simp [readPayload, RawFrame.body, readExact_append, hm, bind, Except.bind, pure, Except.pure]

/-- What a frame has to meet besides its encoding: the limit, and the two rules
for control frames. -/
structure RawFrame.Admissible (maxFrameBytes : Nat) (f : RawFrame) : Prop where
  limit : f.payload.length ≤ maxFrameBytes
  fits : f.payload.length < 2 ^ 63
  final : 0x8 ≤ f.opcode → f.final = true
  control : 0x8 ≤ f.opcode → f.payload.length ≤ 125

/-- **Frame roundtrip**: an admissible frame is read as what its opcode says. -/
theorem readWsFrame_encode (h : f.Admissible maxFrameBytes) (rest : List UInt8) :
    readWsFrame role maxFrameBytes (f.encode (role == .server) ++ rest) =
      (frameOf f.opcode f.final f.payload).map (·, rest) := by
  obtain ⟨low, tail, hlo, hfi, hl⟩ := readLen_lengthField (role == .server) h.fits
    (RawFrame.body (role == .server) f.mask f.payload ++ rest)
  have hby : f.encode (role == .server) ++ rest =
      [highBit f.final f.opcode, highBit (role == .server) low] ++
        (tail ++ (RawFrame.body (role == .server) f.mask f.payload ++ rest)) := by
    simp [RawFrame.encode, hfi]
  have hop := and_highBit_opcode f.final f.opcode_lt
  have hfin := and_highBit f.final (UInt8.lt_trans f.opcode_lt (by decide))
  have hm := and_highBit (role == .server) hlo
  have hfn : (decide (f.opcode < 0x8) || f.final) = true := by
    by_cases hc : f.opcode < 0x8
    · simp [hc]
    · simp [h.final (UInt8.not_lt.mp hc)]
  have hco : (decide (f.opcode < 0x8) || decide (f.payload.length ≤ 125)) = true := by
    by_cases hc : f.opcode < 0x8
    · simp [hc]
    · simp [h.control (UInt8.not_lt.mp hc)]
  have hhe := readExact_append (n := 2)
    (rfl : [highBit f.final f.opcode, highBit (role == .server) low].length = 2)
  rw [hby, readWsFrame, hhe]
  simp only [bind, Except.bind, getD_cons_zero, getD_cons_succ, hop, hfin, hm, hl,
    hfn, hco, h.limit, readPayload_body, websocketMaskMatchesPeerRole, beq_self_eq_true]
  cases frameOf f.opcode f.final f.payload <;> rfl

/-! ## Only what was written is read -/

theorem of_readLen (hlo : low < 0x80) (h : readLen (highBit masked low) input = .ok (n, rest)) :
    highBit masked low :: input = lengthField masked n ++ rest ∧ n < 2 ^ 63 := by
  rw [readLen, (and_highBit masked hlo).2] at h
  have hlo' : low.toNat < 128 := UInt8.lt_iff_toNat_lt.mp hlo
  by_cases hmd : low.toNat = 126
  · obtain rfl : low = 126 := UInt8.toNat_inj.mp hmd
    rw [if_pos (by decide), bind_eq_ok] at h
    obtain ⟨⟨bytes, input'⟩, hrd, h⟩ := h
    obtain ⟨hl, rfl⟩ := readExact_eq_ok_iff.mp hrd
    obtain ⟨hmi, h⟩ := ensure_bind_eq_ok.mp h
    obtain ⟨rfl, rfl⟩ := Prod.mk.inj (Except.ok.inj h)
    have hmi := of_decide_eq_true hmi
    have hma := decodeBE_lt bytes
    rw [hl] at hma
    refine ⟨?_, by omega⟩
    rw [lengthField, if_neg (by omega), if_pos (by omega), encodeBE_decodeBE hl]
    rfl
  · by_cases hln : low.toNat = 127
    · obtain rfl : low = 127 := UInt8.toNat_inj.mp hln
      rw [if_neg (by decide), if_pos (by decide), bind_eq_ok] at h
      obtain ⟨⟨bytes, input'⟩, hrd, h⟩ := h
      obtain ⟨hl, rfl⟩ := readExact_eq_ok_iff.mp hrd
      obtain ⟨hma, h⟩ := ensure_bind_eq_ok.mp h
      obtain ⟨hmi, h⟩ := ensure_bind_eq_ok.mp h
      obtain ⟨rfl, rfl⟩ := Prod.mk.inj (Except.ok.inj h)
      have hmi := of_decide_eq_true hmi
      refine ⟨?_, of_decide_eq_true hma⟩
      rw [lengthField, if_neg (by omega), if_neg (by omega), encodeBE_decodeBE hl]
      rfl
    · rw [if_neg hmd, if_neg hln] at h
      obtain ⟨rfl, rfl⟩ := Prod.mk.inj (Except.ok.inj h)
      refine ⟨?_, by omega⟩
      rw [lengthField, if_pos (by omega), UInt8.ofNat_toNat]
      rfl

theorem of_readPayload (h : readPayload masked n input = .ok (payload, rest)) :
    ∃ mask, input = RawFrame.body masked mask payload ++ rest ∧ payload.length = n := by
  cases masked with
  | false =>
    obtain ⟨hl, rfl⟩ := readExact_eq_ok_iff.mp h
    exact ⟨Bytes.zero 4, rfl, hl⟩
  | true =>
    rw [readPayload, if_pos rfl, bind_eq_ok] at h
    obtain ⟨⟨bytes, input₁⟩, hm, h⟩ := h
    rw [bind_eq_ok] at h
    obtain ⟨⟨body, input₂⟩, hbo, h⟩ := h
    obtain ⟨hl₄, rfl⟩ := readExact_eq_ok_iff.mp hm
    obtain ⟨hl, rfl⟩ := readExact_eq_ok_iff.mp hbo
    have hfs : firstBytes 4 bytes = some ⟨bytes, hl₄⟩ := by
      simpa using firstBytes_append ⟨bytes, hl₄⟩ []
    simp only [hfs] at h
    obtain ⟨rfl, rfl⟩ := Prod.mk.inj (Except.ok.inj h)
    exact ⟨⟨bytes, hl₄⟩, by simp [RawFrame.body], by simpa using hl⟩

/-- **Frame soundness**: what is read stands on the wire as an admissible frame. -/
theorem of_readWsFrame (h : readWsFrame role maxFrameBytes input = .ok (frame, rest)) :
    ∃ f : RawFrame, f.Admissible maxFrameBytes ∧ input = f.encode (role == .server) ++ rest ∧
      frameOf f.opcode f.final f.payload = .ok frame := by
  obtain ⟨⟨head, input₁⟩, hhe, h⟩ := bind_eq_ok.mp h
  obtain ⟨hl, rfl⟩ := readExact_eq_ok_iff.mp hhe
  obtain ⟨first, second, rfl⟩ := length_eq_two.mp hl
  obtain ⟨hre, h⟩ := ensure_bind_eq_ok.mp h
  obtain ⟨⟨n, input₂⟩, hle, h⟩ := bind_eq_ok.mp h
  obtain ⟨hli, h⟩ := ensure_bind_eq_ok.mp h
  obtain ⟨hfn, h⟩ := ensure_bind_eq_ok.mp h
  obtain ⟨hco, h⟩ := ensure_bind_eq_ok.mp h
  obtain ⟨hm, h⟩ := ensure_bind_eq_ok.mp h
  obtain ⟨⟨payload, input₃⟩, hpa, h⟩ := bind_eq_ok.mp h
  obtain ⟨frame', hfr, h⟩ := bind_eq_ok.mp h
  obtain ⟨rfl, rfl⟩ := Prod.mk.inj (Except.ok.inj h)
  have hms : (second &&& 0x80 != 0) = (role == .server) := eq_of_beq hm
  have hpa : readPayload (second &&& 0x80 != 0) n input₂ = .ok (payload, input₃) := hpa
  have hle : readLen second input₁ = .ok (n, input₂) := hle
  have hre : first &&& 0x70 = 0 := eq_of_beq hre
  rw [hms] at hpa
  have hse : highBit (role == .server) (second &&& 0x7f) = second := by
    rw [← hms, highBit_and_7f]
  rw [← hse] at hle ⊢
  obtain ⟨hfi, hft⟩ := of_readLen (and_7f_lt second) hle
  obtain ⟨mask, rfl, rfl⟩ := of_readPayload hpa
  have hca : ∀ {p : Bool}, (decide (first &&& 0x0f < 0x8) || p) = true →
      0x8 ≤ first &&& 0x0f → p = true := by
    intro p hp hge
    rwa [decide_eq_false (UInt8.not_lt.mpr hge)] at hp
  refine ⟨{ final := first &&& 0x80 != 0, opcode := first &&& 0x0f, opcode_lt := and_0f_lt first,
            mask, payload }, ?_, ?_, hfr⟩
  · exact
      { limit := of_decide_eq_true hli
        fits := hft
        final := hca hfn
        control := fun hge => of_decide_eq_true (hca hco hge) }
  · simp [RawFrame.encode, highBit_and_0f hre, ← hfi]

/-- What the opcode, the final bit and the payload of a frame are by what it is
read as. -/
inductive FrameFields : UInt8 → Bool → List UInt8 → WsFrame → Prop
  | data (payload : List UInt8) : FrameFields 0x2 true payload (.data payload)
  | dataStart (payload : List UInt8) : FrameFields 0x2 false payload (.dataStart payload)
  | continuation (payload : List UInt8) (final : Bool) :
      FrameFields 0x0 final payload (.continuation payload final)
  | ping (payload : List UInt8) (final : Bool) : FrameFields 0x9 final payload (.ping payload)
  | pong (payload : List UInt8) (final : Bool) : FrameFields 0xa final payload .pong
  | close (payload : List UInt8) (final : Bool) : FrameFields 0x8 final payload (.close payload)

theorem fields_of_frameOf
    (h : frameOf opcode final payload = .ok frame) : FrameFields opcode final payload frame := by
  unfold frameOf at h
  split at h
  · obtain ⟨_, h⟩ := ensure_bind_eq_ok.mp h
    exact nomatch h
  split at h
  · next hop =>
    cases h
    exact hop ▸ .continuation payload final
  split at h
  · next hop =>
    subst hop
    cases final with
    | true =>
      cases h
      exact .data payload
    | false =>
      cases h
      exact .dataStart payload
  split at h
  · next hop =>
    obtain ⟨_, h⟩ := ensure_bind_eq_ok.mp h
    have hfr : frame = .close payload := by
      split at h
      · obtain ⟨_, h⟩ := ensure_bind_eq_ok.mp h
        obtain ⟨_, h⟩ := ensure_bind_eq_ok.mp h
        exact (Except.ok.inj h).symm
      · exact (Except.ok.inj h).symm
    exact hop ▸ hfr ▸ .close payload final
  split at h
  · next hop =>
    cases h
    exact hop ▸ .ping payload final
  split at h
  · next hop =>
    cases h
    exact hop ▸ .pong payload final
  · exact nomatch h

/-! ## The codec is exact -/

/-- A frame as its sender hands it to `write_ws_frame`. -/
inductive Outgoing where
  | binary (payload : List UInt8)
  | ping (payload : List UInt8)
  | pong (payload : List UInt8)
  | close (payload : List UInt8)
  deriving DecidableEq, Repr

namespace Outgoing

def opcode : Outgoing → UInt8
  | binary _ => 0x2
  | ping _ => 0x9
  | pong _ => 0xa
  | close _ => 0x8

def payload : Outgoing → List UInt8
  | binary payload => payload
  | ping payload => payload
  | pong payload => payload
  | close payload => payload

/-- What the peer reads; the payload of a pong is dropped. -/
def received : Outgoing → WsFrame
  | binary payload => .data payload
  | ping payload => .ping payload
  | pong _ => .pong
  | close payload => .close payload

/-- The payloads of the frames an endpoint sends of itself: up to the limit, and
none in a close frame.  No slice has more than `isize::MAX` bytes. -/
def Fits (maxFrameBytes : Nat) : Outgoing → Prop
  | binary payload => payload.length ≤ maxFrameBytes ∧ payload.length < 2 ^ 63
  | ping payload => payload.length ≤ 125
  | pong payload => payload.length ≤ 125
  | close payload => payload = []

instance (maxFrameBytes : Nat) (o : Outgoing) : Decidable (o.Fits maxFrameBytes) :=
  match o with
  | binary payload =>
    inferInstanceAs (Decidable (payload.length ≤ maxFrameBytes ∧ payload.length < 2 ^ 63))
  | ping payload => inferInstanceAs (Decidable (payload.length ≤ 125))
  | pong payload => inferInstanceAs (Decidable (payload.length ≤ 125))
  | close payload => inferInstanceAs (Decidable (payload = []))

def write (role : WebSocketRole) (mask : Bytes 4) (o : Outgoing) : List UInt8 :=
  writeWsFrame role mask o.opcode o.payload

theorem opcode_lt (o : Outgoing) : o.opcode < 0x10 := by
  cases o <;> exact of_decide_eq_true rfl

variable {maxFrameBytes : Nat} {o : Outgoing}

theorem frameOf_eq_received (h : o.Fits maxFrameBytes) :
    frameOf o.opcode true o.payload = .ok o.received := by
  cases o with
  | close payload =>
    obtain rfl : payload = [] := h
    rfl
  | _ => rfl

theorem admissible (hma : 1024 ≤ maxFrameBytes) (h : o.Fits maxFrameBytes) (mask : Bytes 4) :
    RawFrame.Admissible maxFrameBytes
      { final := true, opcode := o.opcode, opcode_lt := o.opcode_lt, mask,
        payload := o.payload } := by
  cases o with
  | binary =>
    exact ⟨h.1, h.2, fun _ => rfl, fun hge => absurd hge (of_decide_eq_false rfl)⟩
  | close payload =>
    obtain rfl : payload = [] := h
    exact ⟨Nat.zero_le _, Nat.two_pow_pos 63, fun _ => rfl, fun _ => Nat.zero_le _⟩
  | _ payload =>
    have hl : payload.length ≤ 125 := h
    exact ⟨by simp only [Outgoing.payload]; omega, by simp only [Outgoing.payload]; omega,
      fun _ => rfl, fun _ => hl⟩

theorem readWsFrame_write (hma : 1024 ≤ maxFrameBytes)
    (h : o.Fits maxFrameBytes) (mask : Bytes 4) (rest : List UInt8) :
    readWsFrame role.opposite maxFrameBytes (o.write role mask ++ rest) =
      .ok (o.received, rest) := by
  have hro : (role == .client) = (role.opposite == .server) := by cases role <;> rfl
  rw [write, writeWsFrame_eq_encode role mask o.opcode_lt, hro,
    readWsFrame_encode (admissible hma h mask), frameOf_eq_received h]
  rfl

end Outgoing

def readWsFrames (role : WebSocketRole) (maxFrameBytes : Nat) :
    Nat → List UInt8 → Except Error (List WsFrame × List UInt8)
  | 0, input => .ok ([], input)
  | n + 1, input => do
    let (frame, input) ← readWsFrame role maxFrameBytes input
    let (frames, input) ← readWsFrames role maxFrameBytes n input
    return (frame :: frames, input)

theorem readWsFrames_write (hma : 1024 ≤ maxFrameBytes) {sent : List (Outgoing × Bytes 4)}
    (h : ∀ s ∈ sent, s.1.Fits maxFrameBytes) (rest : List UInt8) :
    readWsFrames role.opposite maxFrameBytes sent.length
        (sent.flatMap (fun s => s.1.write role s.2) ++ rest) =
      .ok (sent.map (·.1.received), rest) := by
  induction sent with
  | nil => rfl
  | cons s sent ih =>
    have htl := ih fun t ht => h t (.tail _ ht)
    rw [flatMap_cons, append_assoc, length_cons, readWsFrames,
      Outgoing.readWsFrame_write hma (h s (.head _))]
    simp [bind, Except.bind, htl, pure, Except.pure]

/-- The form of every frame that is read: reserved bits clear, mask bit as the
role asks, the shortest field for a length within the limit. -/
structure Canonical (role : WebSocketRole) (maxFrameBytes : Nat) (bytes : List UInt8) : Prop where
  reserved : bytes.getD 0 0 &&& 0x70 = 0
  maskBit : (bytes.getD 1 0 &&& 0x80 != 0) = (role == .server)
  length : ∃ n body, n ≤ maxFrameBytes ∧ bytes.drop 1 = lengthField (role == .server) n ++ body ∧
    body.length = n + if role = .server then 4 else 0

theorem lengthField_eq_cons (masked : Bool) (n : Nat) :
    ∃ low tail, low < 0x80 ∧ lengthField masked n = highBit masked low :: tail ∧
      tail.length = if low = 126 then 2 else if low = 127 then 8 else 0 := by
  unfold lengthField
  by_cases hs : n ≤ 125
  · obtain ⟨hn, hlo⟩ := toNat_shortLength hs
    refine ⟨UInt8.ofNat n, [], hlo, if_pos hs, ?_⟩
    have hne : ∀ {b : UInt8}, 125 < b.toNat → UInt8.ofNat n ≠ b := by
      rintro b hb rfl
      omega
    rw [if_neg (hne (by decide)), if_neg (hne (by decide))]
    rfl
  · rw [if_neg hs]
    by_cases hmd : n ≤ 65535
    · exact ⟨126, _, by decide, if_pos hmd, length_encodeBE 2 n⟩
    · exact ⟨127, _, by decide, if_neg hmd, length_encodeBE 8 n⟩

theorem RawFrame.canonical (h : f.Admissible maxFrameBytes) :
    Canonical role maxFrameBytes (f.encode (role == .server)) := by
  obtain ⟨low, tail, hlo, hfi, -⟩ := lengthField_eq_cons (role == .server) f.payload.length
  refine ⟨?_, ?_, f.payload.length, _, h.limit, rfl, ?_⟩
  · exact (and_highBit_opcode f.final f.opcode_lt).1
  · rw [RawFrame.encode, hfi]
    exact (and_highBit (role == .server) hlo).1
  · cases role
    · rfl
    · simp [RawFrame.body, Nat.add_comm]

def frameMask (bytes : List UInt8) : List UInt8 :=
  let low := bytes.getD 1 0 &&& 0x7f
  let start := if low = 126 then 4 else if low = 127 then 10 else 2
  slice start (start + 4) bytes

theorem RawFrame.frameMask_encode (f : RawFrame) : frameMask (f.encode true) = f.mask.val := by
  obtain ⟨low, tail, hlo, hfi, htl⟩ := lengthField_eq_cons true f.payload.length
  have hby : f.encode true = (highBit f.final f.opcode :: highBit true low :: tail) ++
      (f.mask.val ++ applyWebsocketMask f.payload f.mask) := by
    simp [RawFrame.encode, hfi, RawFrame.body]
  have hst : (if low = 126 then 4 else if low = 127 then 10 else 2) =
      (highBit f.final f.opcode :: highBit true low :: tail).length := by
    simp only [length_cons, htl]
    split <;> [skip; split] <;> rfl
  unfold frameMask
  rw [hby]
  simp only [cons_append, getD_cons_succ, getD_cons_zero, (and_highBit true hlo).2, hst]
  rw [← cons_append, ← cons_append, slice_append_right (Nat.le_refl _), Nat.sub_self,
    Nat.add_sub_cancel_left, slice_append_left (by simp), slice_all f.mask.property]

def WsFrame.showsPayload : WsFrame → Bool
  | .data _ => true
  | .dataStart _ => true
  | .continuation _ _ => true
  | .ping _ => true
  | _ => false

theorem RawFrame.fields_eq {g : RawFrame} (hf : f.Admissible maxFrameBytes)
    (hg : g.Admissible maxFrameBytes) (hff : frameOf f.opcode f.final f.payload = .ok frame)
    (hgf : frameOf g.opcode g.final g.payload = .ok frame) (hsw : frame.showsPayload = true) :
    f.opcode = g.opcode ∧ f.final = g.final ∧ f.payload = g.payload := by
  have hcf := hf.final
  have hcg := hg.final
  have hfl := fields_of_frameOf hff
  have hfg := fields_of_frameOf hgf
  generalize f.opcode = fop, f.final = ffin, f.payload = fpay at *
  generalize g.opcode = gop, g.final = gfin, g.payload = gpay at *
  cases hfl with
  | ping =>
    cases hfg
    exact ⟨rfl, (hcf (by decide)).trans (hcg (by decide)).symm, rfl⟩
  | pong | close => exact nomatch hsw
  | _ =>
    cases hfg
    exact ⟨rfl, rfl, rfl⟩

/-- **The frame codec is exact.**  What a role writes its peer reads, frame by
frame and with nothing left over.  What is read has the canonical form, so with
a given mask there is one way to put a frame that shows its payload on the
wire. -/
theorem frame_codec_exact (role : WebSocketRole) (maxFrameBytes : Nat)
    (hma : 1024 ≤ maxFrameBytes) :
    (∀ (sent : List (Outgoing × Bytes 4)) (rest : List UInt8),
      (∀ s ∈ sent, s.1.Fits maxFrameBytes) →
      readWsFrames role.opposite maxFrameBytes sent.length
          (sent.flatMap (fun s => s.1.write role s.2) ++ rest) =
        .ok (sent.map (·.1.received), rest)) ∧
    (∀ input frame rest, readWsFrame role maxFrameBytes input = .ok (frame, rest) →
      ∃ bytes, input = bytes ++ rest ∧ Canonical role maxFrameBytes bytes) ∧
    (∀ frame bytes bytes', frame.showsPayload = true →
      readWsFrame role maxFrameBytes bytes = .ok (frame, []) →
      readWsFrame role maxFrameBytes bytes' = .ok (frame, []) →
      (role = .server → frameMask bytes = frameMask bytes') → bytes = bytes') := by
  refine ⟨fun sent rest h => readWsFrames_write hma h rest, ?_, ?_⟩
  · intro input frame rest h
    obtain ⟨f, hf, hby, -⟩ := of_readWsFrame h
    exact ⟨_, hby, f.canonical hf⟩
  · intro frame bytes bytes' hsw h h' hm
    obtain ⟨f, hf, hby, hfr⟩ := of_readWsFrame h
    obtain ⟨g, hg, hby', hfr'⟩ := of_readWsFrame h'
    obtain ⟨hop, hfn, hpa⟩ := RawFrame.fields_eq hf hg hfr hfr' hsw
    rw [append_nil] at hby hby'
    subst hby hby'
    cases role with
    | client => simp [RawFrame.encode, RawFrame.body, hop, hfn, hpa]
    | server =>
      have hmk : f.mask = g.mask := by
        apply Subtype.ext
        rw [← f.frameMask_encode, ← g.frameMask_encode]
        exact hm rfl
      simp [RawFrame.encode, hop, hfn, hpa, hmk]

theorem frame_codec_exact_client :
    1024 ≤ 1024 ∧
    readWsFrames .server 1024 2
        [0x89, 0x81, 1, 2, 3, 4, 0x77 ^^^ 1, 0x88, 0x80, 5, 6, 7, 8, 0xff] =
      .ok ([.ping [0x77], .close []], [0xff]) :=
  ⟨by decide, (frame_codec_exact .client 1024 (by decide)).1
    [(.ping [0x77], ⟨[1, 2, 3, 4], rfl⟩), (.close [], ⟨[5, 6, 7, 8], rfl⟩)] [0xff] (by decide)⟩

end Espejismo.Underlay
