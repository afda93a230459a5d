import Espejismo.Crypto.Psk
import Espejismo.Data.Utf8
import Espejismo.Mux.Native.Frame

/-!
# Protocol.Request

The request at the front of a logical stream (`protocol/request.rs`).
-/

namespace Espejismo

open Binary Mux List

/-- What a writer sends, and the error it may end with after it. -/
structure Output where
  bytes : List UInt8
  error : Option Error := none

def writeAuthority (authority : List Char) : Output :=
  let bytes := utf8Bytes authority
  if 65535 < bytes.length then { bytes := [], error := some (.msg "target authority too long") }
  else { bytes := encodeBE 2 bytes.length ++ bytes }

def writeTcpConnectWithPriority (authority : List Char) (priority : StreamPriority) : Output :=
  let authority := writeAuthority authority
  { bytes := 1 :: priority.toByte :: authority.bytes, error := authority.error }

def connectPreface (authority : List Char) (priority : StreamPriority) : List UInt8 :=
  1 :: priority.toByte :: (encodeBE 2 (utf8Bytes authority).length ++ utf8Bytes authority)

theorem writeTcpConnectWithPriority_prefix (authority : List Char) (priority : StreamPriority) :
    (writeTcpConnectWithPriority authority priority).bytes <+: connectPreface authority priority ∧
      ((writeTcpConnectWithPriority authority priority).error = none →
        (writeTcpConnectWithPriority authority priority).bytes =
          connectPreface authority priority) := by
  simp only [writeTcpConnectWithPriority, writeAuthority]
  split
  · exact ⟨prefix_append [1, priority.toByte] _, by simp⟩
  · exact ⟨prefix_refl _, fun _ => rfl⟩

/-! ## Requests and their reader -/

inductive TunnelRequest where
  | tcpConnect (authority : List Char) (priority : StreamPriority)
  | udpDatagram (authority : List Char) (priority : StreamPriority) (payload : List UInt8)

def writeUdpDatagramWithPriority (authority : List Char) (priority : StreamPriority)
    (payload : List UInt8) : Output :=
  if 65535 < payload.length then { bytes := [], error := some (.msg "UDP payload too large") }
  else
    let authority := writeAuthority authority
    match authority.error with
    | some e => { bytes := 2 :: priority.toByte :: authority.bytes, error := some e }
    | none =>
      { bytes := 2 :: priority.toByte :: authority.bytes ++ encodeBE 2 payload.length ++ payload }

def TunnelRequest.write : TunnelRequest → Output
  | .tcpConnect authority priority => writeTcpConnectWithPriority authority priority
  | .udpDatagram authority priority payload =>
    writeUdpDatagramWithPriority authority priority payload

def takeBytes (n : Nat) : EStateM Error (List UInt8) (List UInt8) := fun bytes =>
  match takeExact n bytes with
  | some (taken, rest) => .ok taken rest
  | none => .error .eof bytes

def readAuthority : EStateM Error (List UInt8) (List Char) := do
  let len := decodeBE (← takeBytes 2)
  if len = 0 then throw (.msg "empty target authority")
  else
    match Utf8.decode (← takeBytes len) with
    | some authority => return authority
    | none => throw (.msg "invalid utf-8 sequence")

def readTunnelRequest : EStateM Error (List UInt8) TunnelRequest := do
  let cmd ← takeBytes 1
  let priority ← MonadExcept.ofExcept (StreamPriority.tryFrom ((← takeBytes 1).headD 0))
  let authority ← readAuthority
  match (cmd.headD 0).toNat with
  | 1 => return .tcpConnect authority priority
  | 2 =>
    let payload ← takeBytes (decodeBE (← takeBytes 2))
    return .udpDatagram authority priority payload
  | cmd => throw (.msg s!"unsupported tunnel request command {cmd}")

section Requests

variable {bytes rest : List UInt8} {authority : List Char} {priority : StreamPriority}

theorem takeBytes_append (h : taken.length = n) :
    (takeBytes n).run (taken ++ rest) = .ok taken rest := by
  simp [EStateM.run, takeBytes, takeExact_append h]

theorem takeBytes_eq_ok
    (h : (takeBytes n).run bytes = .ok taken rest) : taken.length = n ∧ bytes = taken ++ rest := by
  simp only [EStateM.run, takeBytes] at h
  split at h
  · next hta =>
    cases h
    exact takeExact_eq_some hta
  · cases h

theorem writeAuthority_of_le (h : (utf8Bytes authority).length ≤ 65535) :
    writeAuthority authority =
      { bytes := encodeBE 2 (utf8Bytes authority).length ++ utf8Bytes authority } := by
  simp [writeAuthority, if_neg (Nat.not_lt.mpr h)]

theorem readAuthority_append (hpo : 0 < (utf8Bytes authority).length)
    (h : (utf8Bytes authority).length ≤ 65535) :
    readAuthority.run ((writeAuthority authority).bytes ++ rest) = .ok authority rest := by
  have hde : Utf8.decode (utf8Bytes authority) = some authority := Utf8.decode_encode authority
  rw [writeAuthority_of_le h, append_assoc]
  refine run_bind_eq_ok.mpr ⟨_, _, takeBytes_append (length_encodeBE 2 _), ?_⟩
  rw [decodeBE_encodeBE (by omega), if_neg (by omega)]
  refine run_bind_eq_ok.mpr ⟨_, _, takeBytes_append rfl, ?_⟩
  rw [hde]
  rfl

theorem readAuthority_eq_ok (h : readAuthority.run bytes = .ok authority rest) :
    (0 < (utf8Bytes authority).length ∧ (utf8Bytes authority).length ≤ 65535) ∧
      bytes = (writeAuthority authority).bytes ++ rest := by
  obtain ⟨len, s₁, hln, hre⟩ := run_bind_eq_ok.mp h
  obtain ⟨ht, rfl⟩ := takeBytes_eq_ok hln
  dsimp only at hre
  split at hre
  · cases hre
  obtain ⟨text, s₂, hte, hma⟩ := run_bind_eq_ok.mp hre
  obtain ⟨hn, rfl⟩ := takeBytes_eq_ok hte
  split at hma
  · next hde =>
    cases hma
    obtain rfl : text = utf8Bytes authority := Utf8.decode_eq_some_iff.mp hde
    have hlt := decodeBE_lt len
    rw [ht] at hlt
    have hl : (utf8Bytes authority).length ≤ 65535 := by omega
    refine ⟨⟨by omega, hl⟩, ?_⟩
    rw [writeAuthority_of_le hl, hn, encodeBE_decodeBE ht, append_assoc]
  · cases hma

def TunnelRequest.Fits (request : TunnelRequest) : Prop :=
  match request with
  | .tcpConnect authority _ =>
    0 < (utf8Bytes authority).length ∧ (utf8Bytes authority).length ≤ 65535
  | .udpDatagram authority _ payload =>
    (0 < (utf8Bytes authority).length ∧ (utf8Bytes authority).length ≤ 65535) ∧
      payload.length ≤ 65535

theorem readTunnelRequest_write (rest : List UInt8) (h : request.Fits) :
    request.write.error = none ∧
      readTunnelRequest.run (request.write.bytes ++ rest) = .ok request rest := by
  cases request with
  | tcpConnect authority priority =>
    refine ⟨congrArg Output.error (writeAuthority_of_le h.2), ?_⟩
    refine run_bind_eq_ok.mpr ⟨[1], _, rfl, run_bind_eq_ok.mpr ⟨[priority.toByte], _, rfl, ?_⟩⟩
    refine run_bind_eq_ok.mpr ⟨priority, _, by cases priority <;> rfl, ?_⟩
    exact run_bind_eq_ok.mpr ⟨authority, rest, readAuthority_append h.1 h.2, rfl⟩
  | udpDatagram authority priority payload =>
    obtain ⟨⟨hpo, hl⟩, hpa⟩ := h
    have hwr : (TunnelRequest.udpDatagram authority priority payload).write =
        { bytes := 2 :: priority.toByte :: (writeAuthority authority).bytes ++
            encodeBE 2 payload.length ++ payload } := by
      simp [TunnelRequest.write, writeUdpDatagramWithPriority, writeAuthority_of_le hl,
        if_neg (Nat.not_lt.mpr hpa)]
    rw [hwr]
    refine ⟨rfl, ?_⟩
    simp only [append_assoc]
    refine run_bind_eq_ok.mpr ⟨[2], _, rfl, run_bind_eq_ok.mpr ⟨[priority.toByte], _, rfl, ?_⟩⟩
    refine run_bind_eq_ok.mpr ⟨priority, _, by cases priority <;> rfl, ?_⟩
    refine run_bind_eq_ok.mpr ⟨authority, _, readAuthority_append hpo hl, ?_⟩
    refine run_bind_eq_ok.mpr ⟨_, _, takeBytes_append (length_encodeBE 2 _), ?_⟩
    rw [decodeBE_encodeBE (by omega)]
    exact run_bind_eq_ok.mpr ⟨payload, rest, takeBytes_append rfl, rfl⟩

theorem write_of_readTunnelRequest (h : readTunnelRequest.run bytes = .ok request rest) :
    request.Fits ∧ bytes = request.write.bytes ++ rest := by
  obtain ⟨cmd, s₁, hcm, h₁⟩ := run_bind_eq_ok.mp h
  obtain ⟨byte, s₂, hby, h₂⟩ := run_bind_eq_ok.mp h₁
  obtain ⟨priority, s₃, hpr, h₃⟩ := run_bind_eq_ok.mp h₂
  obtain ⟨authority, s₄, hau, h₄⟩ := run_bind_eq_ok.mp h₃
  obtain ⟨hon, rfl⟩ := takeBytes_eq_ok hcm
  obtain ⟨hon', rfl⟩ := takeBytes_eq_ok hby
  obtain ⟨c, rfl⟩ := length_eq_one_iff.mp hon
  obtain ⟨b, rfl⟩ := length_eq_one_iff.mp hon'
  obtain ⟨rfl, rfl⟩ : s₂ = s₃ ∧ b = priority.toByte := by
    have hby : StreamPriority.tryFrom b = .ok priority ∧ s₂ = s₃ := by
      cases htr : StreamPriority.tryFrom b <;> simp only [headD_cons, htr] at hpr <;>
        cases hpr
      exact ⟨rfl, rfl⟩
    grind [StreamPriority.tryFrom, StreamPriority.toByte]
  obtain ⟨hl, rfl⟩ := readAuthority_eq_ok hau
  have hki (n : UInt8) (he : (List.headD [c] 0).toNat = n.toNat) : c = n := UInt8.toNat_inj.mp he
  split at h₄
  · next he =>
    cases h₄
    obtain rfl := hki 1 he
    exact ⟨hl, rfl⟩
  · next he =>
    obtain rfl := hki 2 he
    obtain ⟨len, s₅, hln, h₅⟩ := run_bind_eq_ok.mp h₄
    obtain ⟨payload, s₆, hpa, hdo⟩ := run_bind_eq_ok.mp h₅
    obtain ⟨ht, rfl⟩ := takeBytes_eq_ok hln
    obtain ⟨hn, rfl⟩ := takeBytes_eq_ok hpa
    cases hdo
    have hlt := decodeBE_lt len
    rw [ht] at hlt
    have hmx : ¬65535 < payload.length := by omega
    refine ⟨⟨hl, by omega⟩, ?_⟩
    simp [TunnelRequest.write, writeUdpDatagramWithPriority, writeAuthority_of_le hl.2, hmx]
    rw [hn, encodeBE_decodeBE ht]
  · cases h₄

end Requests

/-- **The request codec**: what is written is read back, and the bytes behind it stay; what
is read was written; a request that was cut off is rejected. -/
theorem tunnel_request_codec (request : TunnelRequest) :
    (request.Fits → ∀ rest, request.write.error = none ∧
      readTunnelRequest.run (request.write.bytes ++ rest) = .ok request rest) ∧
    (∀ bytes rest, readTunnelRequest.run bytes = .ok request rest →
      request.write.error = none ∧ bytes = request.write.bytes ++ rest) ∧
    (request.Fits → ∀ cut, cut <+: request.write.bytes → cut ≠ request.write.bytes →
      ∃ e left, readTunnelRequest.run cut = .error e left) := by
  refine ⟨fun h rest => readTunnelRequest_write rest h, fun bytes rest hru => ?_, ?_⟩
  · obtain ⟨hfi, hbt⟩ := write_of_readTunnelRequest hru
    exact ⟨(readTunnelRequest_write [] hfi).1, hbt⟩
  rintro h cut ⟨missing, hcu⟩ hne
  cases hru : readTunnelRequest.run cut with
  | error e left => exact ⟨e, left, rfl⟩
  | ok =>
    -- the whole request would be read as the other one, with the missing bytes left
    obtain ⟨hoh, rfl⟩ := write_of_readTunnelRequest hru
    have hwh := (readTunnelRequest_write [] h).2
    rw [append_nil, ← hcu, append_assoc, (readTunnelRequest_write _ hoh).2] at hwh
    obtain ⟨-, hni⟩ := EStateM.Result.ok.inj hwh
    rw [append_eq_nil_iff.mp hni |>.2, append_nil] at hcu
    exact absurd hcu hne

end Espejismo
