import Espejismo.Error
import Espejismo.Binary.Word

/-!
# Protocol.Udp

Datagrams that are acknowledged and sent again until they are (`protocol/udp.rs`): the packet
format, and the state of one endpoint.  Maps are lists, the pending one in ascending order of
its keys; times are nanoseconds.
-/

namespace Espejismo.Udp

open Binary List

inductive UdpPacketKind where
  | data
  | ack
  | close
  deriving DecidableEq

def UdpPacketKind.toByte : UdpPacketKind → UInt8
  | data => 1
  | ack => 2
  | close => 3

def UdpPacketKind.tryFrom (value : UInt8) : Except Error UdpPacketKind :=
  match value.toNat with
  | 1 => .ok data
  | 2 => .ok ack
  | 3 => .ok close
  | value => .error (.msg s!"unknown UDP underlay packet kind {value}")

structure UdpPacket where
  kind : UdpPacketKind
  sessionId : UInt64
  seq : UInt32
  ack : UInt32
  payload : List UInt8
  deriving DecidableEq

def headerLen : Nat := 24
def maxPayload : Nat := 65507 - headerLen

def maxRetransmitDelay : Nat := 16 * 10 ^ 9

namespace UdpPacket

def header (p : UdpPacket) : List UInt8 :=
  ascii "ESPU" ++ 1 :: p.kind.toByte :: (encodeBE 8 p.sessionId.toNat ++ encodeBE 4 p.seq.toNat ++
    encodeBE 4 p.ack.toNat ++ encodeBE 2 p.payload.length)

def encode (p : UdpPacket) : Except Error (List UInt8) :=
  if maxPayload < p.payload.length then .error (.msg "UDP underlay payload too large")
  else .ok (p.header ++ p.payload)

def decode (input : List UInt8) : Except Error UdpPacket :=
  if input.length < headerLen then .error (.msg "UDP underlay packet too short")
  else if input.take 4 ≠ ascii "ESPU" then .error (.msg "bad UDP underlay magic")
  else if input.getD 4 0 ≠ 1 then .error (.msg "unsupported UDP underlay version")
  else do
    let kind ← UdpPacketKind.tryFrom (input.getD 5 0)
    if input.length ≠ headerLen + decodeBE (slice 22 24 input) then
      .error (.msg "UDP underlay packet length mismatch")
    else
      return { kind, sessionId := UInt64.ofNat (decodeBE (slice 6 14 input)),
               seq := UInt32.ofNat (decodeBE (slice 14 18 input)),
               ack := UInt32.ofNat (decodeBE (slice 18 22 input)),
               payload := input.drop headerLen }

end UdpPacket

structure DeliveredDatagram where
  seq : UInt32
  payload : List UInt8
  deriving DecidableEq

structure PendingPacket where
  packet : UdpPacket
  lastSent : Nat
  retryAfter : Nat

structure UdpReliability where
  sessionId : UInt64
  nextSeq : UInt32 := 1
  highestContiguousRx : UInt32 := 0
  receivedOutOfOrder : List (UInt32 × List UInt8) := []
  pending : List PendingPacket := []
  retransmitAfter : Nat

def insertBy {α : Type} (key : α → UInt32) (a : α) : List α → List α
  | [] => [a]
  | b :: rest =>
    if key a < key b then a :: b :: rest
    else if key a = key b then a :: rest
    else b :: insertBy key a rest

/-- The loop that hands over what has become contiguous.  Every round removes an entry, so as
many rounds as entries and one more suffice. -/
def drain (build : Build) : (fuel : Nat) → UInt32 → List (UInt32 × List UInt8) →
    Except Error (List DeliveredDatagram × UInt32 × List (UInt32 × List UInt8))
  | 0, highest, buffer => .ok ([], highest, buffer)
  | fuel + 1, highest, buffer => do
    let next := UInt32.ofNat (← orPanic (addUnsigned 32 build highest.toNat 1))
    match buffer.lookup next with
    | none => return ([], highest, buffer)
    | some payload =>
      let (delivered, highest, buffer) ← drain build fuel next (buffer.filter (·.1 ≠ next))
      return (⟨next, payload⟩ :: delivered, highest, buffer)

namespace UdpReliability

def nextData (r : UdpReliability) (payload : List UInt8) (now : Nat) :
    UdpPacket × UdpReliability :=
  let packet := { kind := .data, sessionId := r.sessionId, seq := r.nextSeq,
                  ack := r.highestContiguousRx, payload }
  (packet,
    { r with
      nextSeq := max (r.nextSeq + 1) 1
      pending := insertBy (·.packet.seq)
        { packet, lastSent := now, retryAfter := min r.retransmitAfter maxRetransmitDelay }
        r.pending })

def markAcked (r : UdpReliability) (ack : UInt32) : UdpReliability :=
  { r with pending := r.pending.filter fun p => ack < p.packet.seq }

def buffered (r : UdpReliability) (packet : UdpPacket) : List (UInt32 × List UInt8) :=
  if (r.receivedOutOfOrder.lookup packet.seq).isSome then r.receivedOutOfOrder
  else (packet.seq, packet.payload) :: r.receivedOutOfOrder

def receive (build : Build) (r : UdpReliability) (packet : UdpPacket) :
    Except Error (List DeliveredDatagram × UdpReliability) :=
  if packet.kind = .data ∧ r.highestContiguousRx < packet.seq then
    (drain build ((r.buffered packet).length + 1) r.highestContiguousRx (r.buffered packet)).map
      fun (delivered, highest, buffer) =>
        (delivered, { r with highestContiguousRx := highest, receivedOutOfOrder := buffer })
  else .ok ([], r)

def handlePacket (build : Build) (r : UdpReliability) (packet : UdpPacket) :
    Except Error ((List DeliveredDatagram × UdpPacket) × UdpReliability) :=
  if packet.sessionId ≠ r.sessionId then .error (.msg "UDP underlay session id mismatch")
  else
    ((r.markAcked packet.ack).receive build packet).map fun (delivered, r) =>
      ((delivered, { kind := .ack, sessionId := r.sessionId, seq := 0,
                     ack := r.highestContiguousRx, payload := [] }), r)

/-- The retry interval is at most `maxRetransmitDelay`, so doubling it does not saturate. -/
def dueRetransmissions (r : UdpReliability) (now : Nat) : List UdpPacket × UdpReliability :=
  let due := fun p : PendingPacket => p.retryAfter ≤ now - p.lastSent
  ((r.pending.filter (due ·)).map (·.packet),
    { r with
      pending := r.pending.map fun p =>
        if due p then
          { p with lastSent := now, retryAfter := min (p.retryAfter * 2) maxRetransmitDelay }
        else p })

end UdpReliability

/-! ## The packet format -/

theorem tryFrom_eq_ok : UdpPacketKind.tryFrom b = .ok kind ↔ b = kind.toByte := by
  constructor
  · intro h
    unfold UdpPacketKind.tryFrom at h
    split at h <;> cases h <;> exact UInt8.toNat_inj.mp ‹_›
  · rintro rfl
    cases kind <;> rfl

variable {p : UdpPacket} {bytes : List UInt8}

@[simp] theorem length_header (p : UdpPacket) : p.header.length = headerLen := by
  simp [UdpPacket.header, headerLen, ascii]

theorem decode_header (h : p.payload.length < 2 ^ 16) :
    UdpPacket.decode (p.header ++ p.payload) = .ok p := by
  have hwo (x : UInt32) : UInt32.ofNat (decodeBE (encodeBE 4 x.toNat)) = x := by
    rw [decodeBE_encodeBE x.toNat_lt, UInt32.ofNat_toNat]
  have hln : (p.header ++ p.payload).length = headerLen + p.payload.length := by simp
  have hsi : decodeBE (slice 22 24 (p.header ++ p.payload)) = p.payload.length :=
    decodeBE_encodeBE (n := 2) h
  have hk : UdpPacketKind.tryFrom ((p.header ++ p.payload).getD 5 0) = .ok p.kind :=
    tryFrom_eq_ok.mpr rfl
  have hma : (p.header ++ p.payload).take 4 = ascii "ESPU" := rfl
  have hve : (p.header ++ p.payload).getD 4 0 = 1 := rfl
  rw [UdpPacket.decode, if_neg (by omega), hk, hsi, hln]
  simp only [ne_eq]
  have hid : UInt64.ofNat (decodeBE (encodeBE 8 p.sessionId.toNat)) = p.sessionId := by
    rw [decodeBE_encodeBE p.sessionId.toNat_lt, UInt64.ofNat_toNat]
  show Except.ok (UdpPacket.mk p.kind (UInt64.ofNat (decodeBE (encodeBE 8 p.sessionId.toNat)))
    (UInt32.ofNat (decodeBE (encodeBE 4 p.seq.toNat)))
    (UInt32.ofNat (decodeBE (encodeBE 4 p.ack.toNat))) p.payload) = .ok p
  rw [hid, hwo, hwo]

theorem slice_append_drop (h : a ≤ b) (bs : List UInt8) :
    slice a b bs ++ bs.drop b = bs.drop a := by
  rw [slice, show bs.drop b = (bs.drop a).drop (b - a) by rw [drop_drop]; congr 1; omega,
    take_append_drop]

theorem encode_of_decode (h : UdpPacket.decode bytes = .ok p) : bytes = p.header ++ p.payload := by
  have hcu : bytes = bytes.take 4 ++ (slice 4 6 bytes ++ (slice 6 14 bytes ++ (slice 14 18 bytes ++
      (slice 18 22 bytes ++ (slice 22 24 bytes ++ bytes.drop 24))))) := by
    simp [slice_append_drop (by omega : 22 ≤ 24), slice_append_drop (by omega : 18 ≤ 22), slice_append_drop (by omega : 14 ≤ 18), slice_append_drop (by omega : 6 ≤ 14), slice_append_drop (by omega : 4 ≤ 6)]
  unfold UdpPacket.decode at h
  split at h
  · cases h
  next hlo =>
  split at h
  · cases h
  next hma =>
  split at h
  · cases h
  next hve =>
  cases hk : UdpPacketKind.tryFrom (bytes.getD 5 0) with
  | error =>
    rw [hk] at h
    cases h
  | ok kind =>
    simp only [hk] at h
    split at h
    · cases h
    next hsi =>
    cases h
    have hln : 24 ≤ bytes.length := Nat.not_lt.mp hlo
    have htw : slice 4 6 bytes = [1, kind.toByte] := by
      have h₄ : bytes.getD 4 0 = bytes[4] := by
        simp [getElem?_eq_getElem (show 4 < bytes.length by omega)]
      have h₅ : bytes.getD 5 0 = bytes[5] := by
        simp [getElem?_eq_getElem (show 5 < bytes.length by omega)]
      rw [← Classical.not_not.mp hve, ← tryFrom_eq_ok.mp hk, h₄, h₅, slice,
        drop_eq_getElem_cons (by omega), drop_eq_getElem_cons (by omega)]
      rfl
    have hba (a b : Nat) (hab : b ≤ 24) :
        encodeBE (b - a) (decodeBE (slice a b bytes)) = slice a b bytes ∧
          decodeBE (slice a b bytes) < 256 ^ (b - a) := by
      have hsl : (slice a b bytes).length = b - a := length_slice (by omega)
      exact ⟨encodeBE_decodeBE hsl, hsl ▸ decodeBE_lt _⟩
    have hdr : (bytes.drop headerLen).length = decodeBE (slice 22 24 bytes) := by
      rw [length_drop]
      omega
    rw [UdpPacket.header, UInt64.toNat_ofNat_of_lt' (hba 6 14 (by omega)).2,
      UInt32.toNat_ofNat_of_lt' (hba 14 18 (by omega)).2,
      UInt32.toNat_ofNat_of_lt' (hba 18 22 (by omega)).2, hdr, (hba 6 14 (by omega)).1,
      (hba 14 18 (by omega)).1, (hba 18 22 (by omega)).1, (hba 22 24 (by omega)).1]
    simpa [htw, Classical.not_not.mp hma, headerLen] using hcu

theorem encode_iff : (∃ bytes, p.encode = .ok bytes ∧ UdpPacket.decode bytes = .ok p) ↔
    p.payload.length ≤ maxPayload := by
  unfold UdpPacket.encode
  by_cases h : maxPayload < p.payload.length
  · simp [h]
  · have hde := decode_header (p := p) (by unfold maxPayload at h; omega)
    simp [h, hde]
    omega

/-! ## Calls -/

inductive Call where
  | nextData (payload : List UInt8) (now : Nat)
  | handlePacket (packet : UdpPacket)
  | dueRetransmissions (now : Nat)
  | markAcked (ack : UInt32)

/-- The packets a call returns; a call that fails changes nothing. -/
def UdpReliability.call (build : Build) (r : UdpReliability) :
    Call → List UdpPacket × UdpReliability
  | .nextData payload now => ([(r.nextData payload now).1], (r.nextData payload now).2)
  | .handlePacket packet =>
    match r.handlePacket build packet with
    | .ok ((_, ack), r) => ([ack], r)
    | .error _ => ([], r)
  | .dueRetransmissions now => r.dueRetransmissions now
  | .markAcked ack => ([], r.markAcked ack)

def UdpReliability.returned (build : Build) (r : UdpReliability) : List Call → List UdpPacket
  | [] => []
  | call :: calls => (r.call build call).1 ++ (r.call build call).2.returned build calls

theorem mem_insertBy {α : Type} {key : α → UInt32} {a x : α} {l : List α}
    (h : x ∈ insertBy key a l) : x = a ∨ x ∈ l := by
  induction l with
  | nil => simpa [insertBy] using h
  | cons y l ih => grind [insertBy]

theorem exists_of_map_eq_ok {x : Except Error α}
    (h : x.map f = .ok b) : ∃ a, x = .ok a ∧ f a = b := by
  cases x with
  | error => cases h
  | ok a => exact ⟨a, rfl, Except.ok.inj h⟩

theorem handlePacket_pending {r : UdpReliability}
    (h : r.handlePacket build packet = .ok (out, r')) :
    r'.pending = (r.markAcked packet.ack).pending ∧ r'.retransmitAfter = r.retransmitAfter ∧
      out.2.payload = [] := by
  unfold UdpReliability.handlePacket at h
  split at h
  · cases h
  obtain ⟨⟨delivered, r₁⟩, hre, he⟩ := exists_of_map_eq_ok h
  cases he
  unfold UdpReliability.receive at hre
  split at hre
  · obtain ⟨_, -, he⟩ := exists_of_map_eq_ok hre
    cases he
    exact ⟨rfl, rfl, rfl⟩
  · cases hre
    exact ⟨rfl, rfl, rfl⟩

theorem payload_returned {r : UdpReliability}
    (hca : ∀ payload now, .nextData payload now ∈ calls → payload.length ≤ maxPayload)
    (hr : ∀ q ∈ r.pending, q.packet.payload.length ≤ maxPayload) :
    ∀ p ∈ r.returned build calls, p.payload.length ≤ maxPayload := by
  induction calls generalizing r with
  | nil => simp [UdpReliability.returned]
  | cons call calls ih =>
    have hst : (∀ p ∈ (r.call build call).1, p.payload.length ≤ maxPayload) ∧
        ∀ q ∈ (r.call build call).2.pending, q.packet.payload.length ≤ maxPayload := by
      cases call with
      | nextData payload now =>
        have hle := hca payload now mem_cons_self
        refine ⟨by simpa [UdpReliability.call, UdpReliability.nextData] using hle, fun q hq => ?_⟩
        rcases mem_insertBy hq with rfl | hq
        · exact hle
        · exact hr q hq
      | handlePacket =>
        simp only [UdpReliability.call]
        split
        · next hru =>
          obtain ⟨hpe, -, hemp⟩ := handlePacket_pending hru
          refine ⟨by simp_all, fun q hq => hr q ?_⟩
          rw [hpe] at hq
          exact (mem_filter.mp hq).1
        · exact ⟨by simp, hr⟩
      | dueRetransmissions =>
        constructor
        · intro p hp
          obtain ⟨q, hq, rfl⟩ := mem_map.mp hp
          exact hr q (mem_filter.mp hq).1
        · intro q hq
          obtain ⟨q', hq', rfl⟩ := mem_map.mp hq
          have := hr q' hq'
          split <;> exact this
      | markAcked =>
        exact ⟨by simp [UdpReliability.call], fun q hq => hr q (mem_filter.mp hq).1⟩
    intro p hp
    rcases mem_append.mp hp with hp | hp
    · exact hst.1 p hp
    · exact ih (fun payload now h => hca payload now (mem_cons_of_mem _ h)) hst.2 p hp

theorem mem_returned {r : UdpReliability} (h : .nextData payload now ∈ calls) :
    ∃ p ∈ r.returned build calls, p.payload = payload := by
  induction calls generalizing r with
  | nil => contradiction
  | cons call calls ih =>
    rcases mem_cons.mp h with rfl | h
    · exact ⟨_, mem_append_left _ (mem_singleton_self _), rfl⟩
    · obtain ⟨p, hp, he⟩ := @ih (r.call build call).2 h
      exact ⟨p, mem_append_right _ hp, he⟩

/-- Every packet of a history can be sent and read back exactly if no payload was too large
for a datagram. -/
theorem queued_packets_encodable_iff (build : Build) (sessionId : UInt64) (retransmitAfter : Nat)
    (calls : List Call) :
    ((∀ p ∈ UdpReliability.returned build { sessionId, retransmitAfter } calls,
      ∃ bytes, p.encode = .ok bytes ∧ UdpPacket.decode bytes = .ok p) ↔
      ∀ payload now, .nextData payload now ∈ calls → payload.length ≤ maxPayload) ∧
    ∀ bytes p, UdpPacket.decode bytes = .ok p →
      (p.encode = .ok bytes ↔ p.payload.length ≤ maxPayload) := by
  refine ⟨⟨fun h payload now hcl => ?_, fun h p hp => ?_⟩, fun bytes p h => ?_⟩
  · obtain ⟨p, hp, rfl⟩ := mem_returned hcl
    exact encode_iff.mp (h p hp)
  · exact encode_iff.mpr (payload_returned h (by simp) p hp)
  · refine ⟨fun hp => encode_iff.mp ⟨bytes, hp, h⟩, fun hle => ?_⟩
    rw [UdpPacket.encode, if_neg (by omega), ← encode_of_decode h]

theorem oversized_payload_queued :
    (UdpReliability.nextData { sessionId := 7, retransmitAfter := 0 }
      (List.replicate (maxPayload + 1) 0) 0).1.encode =
        .error (.msg "UDP underlay payload too large") := by
  rw [UdpPacket.encode, if_pos (by simp [UdpReliability.nextData])]

/-! ## Retransmissions -/

/-- What an observer knows of a packet that was not acknowledged: when it was last sent, and
how often again. -/
structure Track where
  packet : UdpPacket
  lastSent : Nat
  again : Nat := 0

structure Watch where
  endpoint : UdpReliability
  tracks : List Track := []

def Watch.step (build : Build) (w : Watch) (call : Call) : Watch :=
  let (packets, endpoint) := w.endpoint.call build call
  { endpoint
    tracks := match call with
      | .nextData _ now => packets.foldl (fun tracks packet =>
          insertBy (·.packet.seq) { packet, lastSent := now } tracks) w.tracks
      | .handlePacket packet =>
        if packets.isEmpty then w.tracks else w.tracks.filter (packet.ack < ·.packet.seq)
      | .dueRetransmissions now => w.tracks.map fun t =>
          if t.packet ∈ packets then { t with lastSent := now, again := t.again + 1 } else t
      | .markAcked ack => w.tracks.filter (ack < ·.packet.seq) }

def Track.delay (base : Nat) (t : Track) : Nat := min (base * 2 ^ t.again) maxRetransmitDelay

def Track.pending (base : Nat) (t : Track) : PendingPacket :=
  { packet := t.packet, lastSent := t.lastSent, retryAfter := t.delay base }

section Order

variable {α β : Type} {key : α → UInt32} {a : α} {l : List α}

theorem map_insertBy {key' : β → UInt32} (f : α → β) (h : ∀ a, key' (f a) = key a) :
    (insertBy key a l).map f = insertBy key' (f a) (l.map f) := by
  induction l with
  | nil => rfl
  | cons b l ih => grind [insertBy]

theorem pairwise_insertBy (h : l.Pairwise (key · < key ·)) :
    (insertBy key a l).Pairwise (key · < key ·) := by
  induction l with
  | nil => simp [insertBy]
  | cons b l ih =>
    have hmem := @mem_insertBy _ key a
    grind [insertBy, pairwise_cons]

theorem eq_of_key (h : l.Pairwise (key · < key ·)) (ha : a ∈ l) (hb : b ∈ l)
    (hkey : key a = key b) : a = b := by
  induction l with
  | nil => contradiction
  | cons c l ih => grind [pairwise_cons]

end Order

structure Watch.Sound (base : Nat) (w : Watch) : Prop where
  base_eq : w.endpoint.retransmitAfter = base
  pending : w.endpoint.pending = w.tracks.map (·.pending base)
  order : w.tracks.Pairwise (·.packet.seq < ·.packet.seq)

theorem Watch.Sound.due {w : Watch} (h : w.Sound base) (now : Nat) :
    (w.endpoint.dueRetransmissions now).1 =
      (w.tracks.filter fun t => t.delay base ≤ now - t.lastSent).map (·.packet) := by
  simp [UdpReliability.dueRetransmissions, h.pending, filter_map, Function.comp_def, Track.pending]

theorem Watch.Sound.step {w : Watch} (h : w.Sound base) (build : Build)
    (call : Call) : (w.step build call).Sound base := by
  have hfi (ack : UInt32) : (w.endpoint.markAcked ack).pending =
      (w.tracks.filter (ack < ·.packet.seq)).map (·.pending base) := by
    simp [UdpReliability.markAcked, h.pending, filter_map, Function.comp_def, Track.pending]
  cases call with
  | nextData =>
    refine ⟨h.base_eq, ?_, pairwise_insertBy h.order⟩
    show insertBy _ _ w.endpoint.pending = List.map _ (insertBy (·.packet.seq) _ w.tracks)
    rw [@map_insertBy _ _ (fun t : Track => t.packet.seq) _ _ (fun p => p.packet.seq)
      (Track.pending base) fun _ => rfl, h.pending, h.base_eq]
    congr 1
    simp [Track.pending, Track.delay, UdpReliability.nextData]
  | handlePacket packet =>
    cases hru : w.endpoint.handlePacket build packet with
    | ok =>
      obtain ⟨hpe, hbs, -⟩ := handlePacket_pending hru
      simp only [Watch.step, UdpReliability.call, hru]
      exact ⟨hbs.trans h.base_eq, hpe.trans (hfi _), h.order.filter _⟩
    | error =>
      simp only [Watch.step, UdpReliability.call, hru]
      exact h
  | dueRetransmissions now =>
    have hdu (t : Track) (ht : t ∈ w.tracks) :
        t.packet ∈ (w.endpoint.dueRetransmissions now).1 ↔ t.delay base ≤ now - t.lastSent := by
      rw [h.due, mem_map]
      refine ⟨?_, fun hd => ⟨t, mem_filter.mpr ⟨ht, by simpa using hd⟩, rfl⟩⟩
      rintro ⟨u, hu, he⟩
      obtain ⟨hu, hd⟩ := mem_filter.mp hu
      obtain rfl := eq_of_key h.order hu ht (congrArg UdpPacket.seq he)
      simpa using hd
    refine ⟨h.base_eq, ?_, ?_⟩
    · simp only [Watch.step, UdpReliability.call, UdpReliability.dueRetransmissions, h.pending,
        map_map]
      refine map_congr_left fun t ht => ?_
      have hne : min (t.delay base * 2) maxRetransmitDelay =
          Track.delay base { t with again := t.again + 1 } := by
        simp only [Track.delay, Nat.pow_succ, ← Nat.mul_assoc]
        omega
      have hth := hdu t ht
      simp only [UdpReliability.dueRetransmissions, h.pending] at hth
      simp only [Function.comp_apply]
      by_cases hd : t.delay base ≤ now - t.lastSent
      · rw [if_pos (hth.mpr hd)]
        exact (if_pos hd).trans (congrArg (PendingPacket.mk t.packet now) hne)
      · rw [if_neg (mt hth.mp hd)]
        exact if_neg hd
    · refine pairwise_map.mpr (h.order.imp fun {a b} hab => ?_)
      split <;> split <;> exact hab
  | markAcked ack => exact ⟨h.base_eq, hfi ack, h.order.filter _⟩

/-- **Retransmissions back off.**  After any calls, a poll returns exactly the unacknowledged
packets whose delay has passed since they were last sent, `base * 2 ^ i` before the `i`-th
retransmission and at most 16 seconds, each once and in the order of their numbers. -/
theorem retransmission_backs_off (build : Build) (sessionId : UInt64) (base : Nat)
    (calls : List Call) (now : Nat) :
    let w := calls.foldl (Watch.step build) { endpoint := { sessionId, retransmitAfter := base } }
    let due := (w.endpoint.dueRetransmissions now).1
    due = (w.tracks.filter fun t =>
      min (base * 2 ^ t.again) maxRetransmitDelay ≤ now - t.lastSent).map (·.packet) ∧
    due.Pairwise (·.seq < ·.seq) ∧
    w.endpoint.pending.map (·.packet) = w.tracks.map (·.packet) := by
  intro w due
  have h : w.Sound base := List.foldlRecOn calls (Watch.step build)
    ⟨rfl, rfl, .nil⟩ fun _ h call _ => h.step build call
  have hdu := h.due now
  refine ⟨hdu, ?_, ?_⟩
  · show List.Pairwise _ (w.endpoint.dueRetransmissions now).1
    rw [hdu, pairwise_map]
    exact h.order.filter _
  · simp [h.pending, Track.pending]

end Espejismo.Udp
