import Espejismo.Binary.Bytes
import Espejismo.Error

/-!
# Mux.Native.Frame

The wire format of the native multiplexer (`mux/native/frame.rs`): one byte of
kind, the stream's id, the length of the payload, the payload.
-/

namespace Espejismo.Mux

open Binary

/-! ## Stream priorities -/

/-- `StreamPriority` of `protocol/request.rs`. -/
inductive StreamPriority where
  | interactive
  | bulk
  deriving DecidableEq, Repr

namespace StreamPriority

def toByte : StreamPriority → UInt8
  | interactive => 1
  | bulk => 2

def tryFrom (value : UInt8) : Except Error StreamPriority :=
  if value = 1 then .ok interactive
  else if value = 2 then .ok bulk
  else
    let text := value.toNat
    .error (.msg s!"unsupported stream priority {text}")

@[simp] theorem tryFrom_toByte (p : StreamPriority) : tryFrom p.toByte = .ok p := by
  cases p <;> rfl

end StreamPriority

/-! ## Frames -/

/-- The kind byte of a frame; a byte that names no kind is kept. -/
inductive FrameKind where
  | open
  | data
  | windowUpdate
  | fin
  | rst
  | ping
  | goaway
  | unknown (kind : UInt8) (h : kind = 0 ∨ 7 < kind)
  deriving DecidableEq, Repr

namespace FrameKind

def toByte : FrameKind → UInt8
  | .open => 1
  | .data => 2
  | .windowUpdate => 3
  | .fin => 4
  | .rst => 5
  | .ping => 6
  | .goaway => 7
  | .unknown kind _ => kind

def ofByte (kind : UInt8) : FrameKind :=
  if h : kind = 0 ∨ 7 < kind then .unknown kind h
  else if kind = 1 then .open
  else if kind = 2 then .data
  else if kind = 3 then .windowUpdate
  else if kind = 4 then .fin
  else if kind = 5 then .rst
  else if kind = 6 then .ping
  else .goaway

@[simp] theorem ofByte_toByte (k : FrameKind) : ofByte k.toByte = k := by
  cases k with
  | unknown kind h => exact dif_pos h
  | _ => rfl

@[simp] theorem toByte_ofByte (kind : UInt8) : (ofByte kind).toByte = kind := by
  unfold ofByte
  all_goals grind [toByte]

end FrameKind

def unknownFrameType (kind : UInt8) : Error :=
  let text := kind.toNat
  .msg s!"unknown native mux frame type {text}"

structure Frame where
  kind : FrameKind
  streamId : UInt32
  payload : List UInt8
  deriving DecidableEq, Repr

def maxPayload : Nat := 256 * 1024

def Frame.encode (f : Frame) : List UInt8 :=
  [f.kind.toByte] ++ encodeBE 4 f.streamId.toNat ++ encodeBE 4 f.payload.length ++ f.payload

def writeFrame (f : Frame) : Except Error (List UInt8) :=
  if maxPayload < f.payload.length then .error (.msg "native mux payload too large")
  else .ok f.encode

/-- What `read_frame` makes of the bytes delivered so far. -/
inductive ReadFrame where
  | pending
  | done (result : Except Error (Option Frame)) (rest : List UInt8)

/-- `read_frame` on a transport that has delivered `bytes`; `closed` when
nothing will follow them.  The end of the stream is an error unless it comes
before the first byte. -/
def readFrame (closed : Bool) (bytes : List UInt8) : ReadFrame :=
  match bytes with
  | [] => if closed then .done (.ok none) [] else .pending
  | kind :: rest =>
    match takeExact 4 rest with
    | none => short rest
    | some (idBytes, rest) =>
      match takeExact 4 rest with
      | none => short rest
      | some (lenBytes, rest) =>
        if maxPayload < decodeBE lenBytes then
          .done (.error (.msg "native mux payload too large")) rest
        else
          match takeExact (decodeBE lenBytes) rest with
          | none => short rest
          | some (payload, rest) =>
            .done (.ok (some
              { kind := .ofByte kind, streamId := UInt32.ofNat (decodeBE idBytes),
                payload })) rest
where
  short (rest : List UInt8) : ReadFrame := if closed then .done (.error .eof) rest else .pending

def validateFrameBytesForFuzz (input : List UInt8) :
    Except Error (Option (FrameKind × UInt32 × Nat)) :=
  match input with
  | kind :: rest =>
    if rest.length < 8 then .ok none
    else
      match FrameKind.ofByte kind with
      | .unknown kind _ => .error (unknownFrameType kind)
      | known =>
        let streamId := UInt32.ofNat (decodeBE (rest.take 4))
        let len := decodeBE (slice 4 8 rest)
        if maxPayload < len then .error (.msg "native mux payload too large")
        else if rest.length < 8 + len then .ok none
        else .ok (some (known, streamId, len))
  | [] => .ok none

/-! ## Reading back -/

private theorem decodeBE_id (id : UInt32) : UInt32.ofNat (decodeBE (encodeBE 4 id.toNat)) = id := by
  rw [decodeBE_encodeBE (by simpa using id.toNat_lt)]
  simp

private theorem decodeBE_len (h : n ≤ maxPayload) : decodeBE (encodeBE 4 n) = n := by
  apply decodeBE_encodeBE
  unfold maxPayload at h
  omega

variable {f : Frame} {bytes rest : List UInt8}

/-- **Frame roundtrip**: a frame that was written is read, whatever follows. -/
theorem readFrame_encode (h : f.payload.length ≤ maxPayload) (closed : Bool) (rest : List UInt8) :
    readFrame closed (f.encode ++ rest) = .done (.ok (some f)) rest := by
  have hby : f.encode ++ rest =
      f.kind.toByte :: (encodeBE 4 f.streamId.toNat ++
        (encodeBE 4 f.payload.length ++ (f.payload ++ rest))) := by
    simp [Frame.encode]
  rw [hby, readFrame]
  simp only [takeExact_append (length_encodeBE 4 _), decodeBE_len h]
  rw [if_neg (by omega)]
  simp [takeExact_append (rfl : f.payload.length = _), decodeBE_id]

theorem readFrame_header (hi : idBytes.length = 4) (hle : lenBytes.length = 4) :
    readFrame closed (kind :: (idBytes ++ (lenBytes ++ tail))) =
      if maxPayload < decodeBE lenBytes then .done
        (.error (.msg "native mux payload too large")) tail
      else
        match takeExact (decodeBE lenBytes) tail with
        | none => readFrame.short closed tail
        | some (payload, rest) =>
          .done (.ok (some
            { kind := .ofByte kind, streamId := UInt32.ofNat (decodeBE idBytes), payload }))
              rest := by
  simp [readFrame, takeExact_append hi, takeExact_append hle]

theorem header_cases (closed : Bool) (bytes : List UInt8) :
    bytes = [] ∨ bytes.length < 9 ∧ (∃ left, readFrame closed bytes = readFrame.short closed left) ∨
      ∃ kind idBytes lenBytes tail, idBytes.length = 4 ∧ lenBytes.length = 4 ∧
        bytes = kind :: (idBytes ++ (lenBytes ++ tail)) := by
  cases bytes with
  | nil => exact .inl rfl
  | cons kind rest =>
    by_cases hle : rest.length < 8
    · refine .inr (.inl ⟨Nat.succ_lt_succ hle, ?_⟩)
      simp only [readFrame, takeExact]
      by_cases hi : 4 ≤ rest.length
      · exact ⟨rest.drop 4, by simp [hi, show ¬4 ≤ rest.length - 4 by omega]⟩
      · exact ⟨rest, by simp [hi]⟩
    · refine .inr (.inr ⟨kind, rest.take 4, (rest.drop 4).take 4, (rest.drop 4).drop 4, ?_, ?_, ?_⟩)
      · simp only [List.length_take]
        omega
      · simp only [List.length_take, List.length_drop]
        omega
      · rw [List.take_append_drop, List.take_append_drop]

theorem readFrame_eq_frame (h : readFrame closed bytes = .done (.ok (some f)) rest) :
    bytes = f.encode ++ rest ∧ f.payload.length ≤ maxPayload := by
  obtain rfl | ⟨-, left, hs⟩ | ⟨kind, idBytes, lenBytes, tail, hi, hle, rfl⟩ :=
    header_cases closed bytes
  · cases closed <;> simp [readFrame] at h
  · rw [hs] at h
    cases closed <;> simp [readFrame.short] at h
  · rw [readFrame_header hi hle] at h
    by_cases hm : maxPayload < decodeBE lenBytes
    · simp [hm] at h
    rw [if_neg hm] at h
    cases hp : takeExact (decodeBE lenBytes) tail with
    | none => cases closed <;> simp [hp, readFrame.short] at h
    | some =>
      obtain ⟨hpl, rfl⟩ := takeExact_eq_some hp
      simp only [hp] at h
      obtain ⟨rfl, rfl⟩ := h
      have hiv : decodeBE idBytes < 2 ^ 32 := by
        have := decodeBE_lt idBytes
        rw [hi] at this
        omega
      refine ⟨?_, by simp only; omega⟩
      simp [Frame.encode, hpl, UInt32.toNat_ofNat_of_lt' hiv, encodeBE_decodeBE hi,
        encodeBE_decodeBE hle]

theorem readFrame_error_append (h : readFrame false bytes = .done (.error err) rest)
    (more : List UInt8) : readFrame false (bytes ++ more) = .done (.error err) (rest ++ more) := by
  obtain rfl | ⟨-, left, hs⟩ | ⟨kind, idBytes, lenBytes, tail, hi, hle, rfl⟩ :=
    header_cases false bytes
  · simp [readFrame] at h
  · simp [hs, readFrame.short] at h
  · rw [readFrame_header hi hle] at h
    rw [List.cons_append, List.append_assoc, List.append_assoc, readFrame_header hi hle]
    by_cases hm : maxPayload < decodeBE lenBytes
    · simp only [hm, if_true, ReadFrame.done.injEq] at h ⊢
      obtain ⟨he, rfl⟩ := h
      exact ⟨he, rfl⟩
    · rw [if_neg hm] at h
      cases hp : takeExact (decodeBE lenBytes) tail with
      | none => simp [hp, readFrame.short] at h
      | some => simp [hp] at h

theorem readFrame_ne_end (bytes rest : List UInt8) :
    readFrame false bytes ≠ .done (.ok none) rest := by
  unfold readFrame
  grind [readFrame.short]

theorem readFrame_of_isPrefix {sent : List Frame}
    (hse : ∀ f ∈ sent, f.payload.length ≤ maxPayload) (h : bytes <+: sent.flatMap Frame.encode)
    (hr : readFrame false bytes = .done result rest) : ∃ f, result = .ok (some f) := by
  match result with
  | .ok (some f) => exact ⟨f, rfl⟩
  | .ok none => exact absurd hr (readFrame_ne_end bytes rest)
  | .error err =>
    obtain ⟨more, hmo⟩ := h
    have he := readFrame_error_append hr more
    cases sent with
    | nil =>
      rw [hmo] at he
      simp [readFrame] at he
    | cons f =>
      rw [hmo, List.flatMap_cons, readFrame_encode (hse f (by simp))] at he
      simp at he

theorem encode_append_inj (hf : f.payload.length ≤ maxPayload) (hg : g.payload.length ≤ maxPayload)
    (h : f.encode ++ xs = g.encode ++ ys) : f = g ∧ xs = ys := by
  have hr := readFrame_encode hf false xs
  rw [h, readFrame_encode hg false ys] at hr
  simp only [ReadFrame.done.injEq, Except.ok.injEq, Option.some.injEq] at hr
  exact ⟨hr.1.symm, hr.2.symm⟩

theorem isPrefix_of_encode_isPrefix (hse : ∀ f ∈ sent, f.payload.length ≤ maxPayload)
    (hgo : ∀ f ∈ got, f.payload.length ≤ maxPayload)
    (h : got.flatMap Frame.encode ++ rest <+: sent.flatMap Frame.encode) : got <+: sent := by
  induction got generalizing sent with
  | nil => exact List.nil_prefix
  | cons g got ih =>
    obtain ⟨tail, ht⟩ := h
    cases sent with
    | nil => simp [Frame.encode] at ht
    | cons s =>
      simp only [List.flatMap_cons, List.append_assoc] at ht
      obtain ⟨rfl, hrs⟩ := encode_append_inj (hgo g (by simp)) (hse s (by simp)) ht
      rw [List.cons_prefix_cons]
      refine ⟨rfl, ih ?_ ?_ ⟨tail, by rw [List.append_assoc, hrs]⟩⟩
      · exact fun f hf => hse f (by simp [hf])
      · exact fun f hf => hgo f (by simp [hf])

/-! ## A stream of frames -/

def writeFrames (frames : List Frame) : Except Error (List UInt8) :=
  (frames.mapM writeFrame).map List.flatten

/-- The results of `n` calls of `read_frame` on a transport that delivers `bytes` and ends. -/
def readFrames : Nat → List UInt8 → List (Except Error (Option Frame))
  | 0, _ => []
  | n + 1, bytes =>
    match readFrame true bytes with
    | .pending => []
    | .done result rest => result :: readFrames n rest

theorem writeFrames_eq_ok (h : ∀ f ∈ frames, f.payload.length ≤ maxPayload) :
    writeFrames frames = .ok (frames.flatMap Frame.encode) := by
  have hma : frames.mapM writeFrame = .ok (frames.map Frame.encode) := by
    induction frames with
    | nil => rfl
    | cons f frames ih =>
      have hon : writeFrame f = .ok f.encode := if_neg (Nat.not_lt.mpr (h f (.head _)))
      rw [List.mapM_cons, hon, ih fun g hg => h g (.tail _ hg)]
      rfl
  rw [writeFrames, hma]
  rfl

theorem readFrames_encode {frames : List Frame} (h : ∀ f ∈ frames, f.payload.length ≤ maxPayload)
    (n : Nat) (rest : List UInt8) :
    readFrames (frames.length + n) (frames.flatMap Frame.encode ++ rest) =
      frames.map (.ok <| some ·) ++ readFrames n rest := by
  induction frames with
  | nil => simp
  | cons f frames ih =>
    have hca : (f :: frames).length + n = frames.length + n + 1 := by
      simp only [List.length_cons]
      omega
    rw [hca, List.flatMap_cons, List.append_assoc, readFrames, readFrame_encode (h f (.head _))]
    simp [ih fun g hg => h g (.tail _ hg)]

theorem readFrame_closed (h : bytes ≠ []) :
    readFrame true bytes ≠ .pending ∧ ∀ rest, readFrame true bytes ≠ .done (.ok none) rest := by
  unfold readFrame
  grind [readFrame.short]

theorem readFrames_cut (h : f.payload.length ≤ maxPayload) (hcu : f.encode = bytes ++ more)
    (hby : bytes ≠ []) (hmo : more ≠ []) : ∃ err, readFrames 1 bytes = [.error err] := by
  rw [readFrames]
  match hr : readFrame true bytes with
  | .pending => exact absurd hr (readFrame_closed hby).1
  | .done (.error err) rest => exact ⟨err, rfl⟩
  | .done (.ok none) rest => exact absurd hr ((readFrame_closed hby).2 rest)
  | .done (.ok (some g)) rest =>
    -- it would be the whole frame
    obtain ⟨rfl, hg⟩ := readFrame_eq_frame hr
    rw [List.append_assoc, ← List.append_nil f.encode] at hcu
    have hni := (encode_append_inj h hg hcu).2
    exact absurd (List.append_eq_nil_iff.mp hni.symm).2 hmo

theorem validateFrameBytesForFuzz_known (hle : 8 ≤ rest.length)
    (hki : ∀ byte h, FrameKind.ofByte kind ≠ .unknown byte h) :
    validateFrameBytesForFuzz (kind :: rest) =
      if maxPayload < decodeBE (slice 4 8 rest) then .error (.msg "native mux payload too large")
      else if rest.length < 8 + decodeBE (slice 4 8 rest) then .ok none
      else .ok (some (.ofByte kind, UInt32.ofNat (decodeBE (rest.take 4)),
        decodeBE (slice 4 8 rest))) := by
  rw [validateFrameBytesForFuzz, if_neg (by omega)]
  split
  · next h => exact absurd h (hki _ _)
  · rfl

/-- **The stream of frames and its validator.**  What was written is read back frame by
frame, up to the end of the stream; a stream that is cut inside a frame gives the frames
before it and an error.  Of a known kind and a whole header, the validator says what the
reader would find. -/
theorem frame_stream_exact :
    (∀ frames : List Frame, (∀ f ∈ frames, f.payload.length ≤ 262144) →
      ∃ wire, writeFrames frames = .ok wire ∧
        readFrames (frames.length + 1) wire = frames.map (.ok <| some ·) ++ [.ok none] ∧
        ∀ before f after k, frames = before ++ f :: after →
          (before.flatMap Frame.encode).length < k →
          k < ((before ++ [f]).flatMap Frame.encode).length →
          ∃ err, readFrames (before.length + 1) (wire.take k) =
            before.map (.ok <| some ·) ++ [.error err]) ∧
    ∀ kind rest, 8 ≤ rest.length → (∀ byte h, FrameKind.ofByte kind ≠ .unknown byte h) →
      (∀ known streamId len,
        validateFrameBytesForFuzz (kind :: rest) = .ok (some (known, streamId, len)) ↔
          ∃ payload left, readFrame true (kind :: rest) =
            .done (.ok (some ⟨known, streamId, payload⟩)) left ∧ payload.length = len) ∧
      ((∃ err, validateFrameBytesForFuzz (kind :: rest) = .error err) ↔
        262144 < decodeBE (slice 4 8 rest)) := by
  refine ⟨fun frames h => ⟨_, writeFrames_eq_ok h, ?_, ?_⟩, fun kind rest hle hki => ?_⟩
  · have hr := readFrames_encode h 1 []
    rwa [List.append_nil] at hr
  · rintro before f after k rfl hlo hhi
    simp only [List.flatMap_append, List.flatMap_cons, List.flatMap_nil, List.append_nil,
      List.length_append] at hhi ⊢
    obtain ⟨d, rfl⟩ := Nat.exists_eq_add_of_lt hlo
    rw [Nat.add_assoc, List.take_length_add_append, List.take_append_of_le_length (by omega),
      readFrames_encode fun g hg => h g (by simp [hg])]
    obtain ⟨err, he⟩ := readFrames_cut (h f (by simp)) (List.take_append_drop (d + 1) f.encode).symm
      (by simp [Frame.encode]) (by simp; omega)
    exact ⟨err, by rw [he]⟩
  · rw [validateFrameBytesForFuzz_known hle hki]
    obtain hni | ⟨hs, -⟩ | ⟨_, idBytes, lenBytes, tail, hi, hl, heq⟩ :=
      header_cases true (kind :: rest)
    · cases hni
    · simp only [List.length_cons] at hs
      omega
    obtain ⟨rfl, rfl⟩ := List.cons.inj heq
    have hsl : slice 4 8 (idBytes ++ (lenBytes ++ tail)) = lenBytes := by
      rw [slice_append_right (by omega), hi, slice_append_left (by omega), slice_all hl]
    rw [hsl, List.take_left' hi, readFrame_header hi hl]
    simp only [List.length_append, hi, hl, takeExact]
    by_cases hm : maxPayload < decodeBE lenBytes
    · have hla : 262144 < decodeBE lenBytes := hm
      simp [hm, hla]
    have hsm : ¬262144 < decodeBE lenBytes := hm
    by_cases ht : decodeBE lenBytes ≤ tail.length
    · have hro : ¬4 + (4 + tail.length) < 8 + decodeBE lenBytes := by omega
      simp only [if_neg hm, if_neg hro, if_pos ht]
      refine ⟨fun known streamId len => ⟨?_, ?_⟩, by simp [hsm]⟩
      · rintro ⟨⟩
        exact ⟨_, _, rfl, List.length_take_of_le ht⟩
      · rintro ⟨payload, left, ⟨⟩, hp⟩
        rw [← hp, List.length_take_of_le ht]
    · have hro : 4 + (4 + tail.length) < 8 + decodeBE lenBytes := by omega
      simp [hm, hsm, ht, hro, readFrame.short]

end Espejismo.Mux
