import Mathlib.Data.List.Nodup
import Mathlib.Data.List.Range
import Espejismo.Crypto.Handshake

/-!
# Crypto.Handshake.Hello

What a client hello looks like to both ends.  Its body is a fixed part of 84 bytes
and the padding (`clientHelloBody_eq`); the puzzle search changes its nonce field
only; parsing the front of an envelope gives back what was built
(`parseClientHello_wire`).  The candidates of the server are pairwise different
(`nodup_candidatesFrom`), so one match means one user and one slot.
-/

namespace Espejismo

open Binary List

/-! ## The fields of a hello -/

def helloFixed (now : Int64) (nonce : Bytes 24) (publicKey : Bytes 32)
    (capabilities puzzleNonce paddingLen : Nat) : Bytes 84 :=
  ⟨i64ToBE now ++ (nonce.val ++ (publicKey.val ++ (encodeBE 2 protocolVersion ++
    (encodeBE 8 capabilities ++ (encodeBE 8 puzzleNonce ++ encodeBE 2 paddingLen))))), by simp⟩

theorem clientHelloBody_eq (now : Int64) (nonce : Bytes 24) (publicKey : Bytes 32)
    (capabilities puzzleNonce : Nat) (padding : List UInt8) :
    clientHelloBody now nonce publicKey capabilities puzzleNonce padding =
      (helloFixed now nonce publicKey capabilities puzzleNonce padding.length).val ++ padding := by
  simp [clientHelloBody, helloFixed]

section Fields

variable (now : Int64) (nonce : Bytes 24) (publicKey : Bytes 32)
  (capabilities puzzleNonce paddingLen : Nat)

theorem helloFixed_timestamp :
    i64FromBE (slice 0 8 (helloFixed now nonce publicKey capabilities puzzleNonce
      paddingLen).val) = now := by
  rw [helloFixed, slice_append_left (by simp), slice_all (length_i64ToBE now), i64FromBE_i64ToBE]

theorem helloFixed_nonce :
    slice 8 32 (helloFixed now nonce publicKey capabilities puzzleNonce paddingLen).val =
      nonce.val := by
  simp [helloFixed, slice_append_right, slice_append_left, slice_all]

theorem helloFixed_publicKey :
    slice 32 64 (helloFixed now nonce publicKey capabilities puzzleNonce paddingLen).val =
      publicKey.val := by
  simp [helloFixed, slice_append_right, slice_append_left, slice_all]

theorem helloFixed_version :
    decodeBE (slice 64 66 (helloFixed now nonce publicKey capabilities puzzleNonce
      paddingLen).val) = protocolVersion := by
  simp [helloFixed, slice_append_right, slice_append_left]
  decide

theorem helloFixed_capabilities (h : capabilities < 2 ^ 64) :
    decodeBE (slice 66 74 (helloFixed now nonce publicKey capabilities puzzleNonce
      paddingLen).val) = capabilities := by
  have hby : slice 66 74 (helloFixed now nonce publicKey capabilities puzzleNonce
      paddingLen).val = encodeBE 8 capabilities := by
    simp [helloFixed, slice_append_right, slice_append_left, slice_all]
  rw [hby, decodeBE_encodeBE (by omega)]

theorem helloFixed_paddingLen (h : paddingLen < 2 ^ 16) :
    decodeBE (slice 82 84 (helloFixed now nonce publicKey capabilities puzzleNonce
      paddingLen).val) = paddingLen := by
  have hby : slice 82 84 (helloFixed now nonce publicKey capabilities puzzleNonce
      paddingLen).val = encodeBE 2 paddingLen := by
    simp [helloFixed, slice_append_right, slice_all]
  rw [hby, decodeBE_encodeBE (by omega)]

theorem withNonce_clientHelloBody (padding : List UInt8) (n : Nat) :
    Puzzle.withNonce (clientHelloBody now nonce publicKey capabilities puzzleNonce padding) n =
      clientHelloBody now nonce publicKey capabilities n padding := by
  let head := i64ToBE now ++ nonce.val ++ publicKey.val ++ encodeBE 2 protocolVersion ++
    encodeBE 8 capabilities
  have hh : head.length = Puzzle.nonceStart := by simp [head, Puzzle.nonceStart]
  have hbo (m : Nat) : clientHelloBody now nonce publicKey capabilities m padding =
      head ++ (encodeBE 8 m ++ (encodeBE 2 padding.length ++ padding)) := by
    simp [head, clientHelloBody]
  have hed : (head ++ encodeBE 8 puzzleNonce).length = Puzzle.nonceEnd := by
    rw [length_append, hh]
    rfl
  have hdr : (head ++ (encodeBE 8 puzzleNonce ++ (encodeBE 2 padding.length ++ padding))).drop
      Puzzle.nonceEnd = encodeBE 2 padding.length ++ padding := by
    rw [← append_assoc, drop_left' hed]
  rw [Puzzle.withNonce, hbo, hbo, take_left' hh, hdr]

end Fields

/-! ## Building and parsing -/

variable {authKey : Bytes 32}

/-- **What the client builds**: a hello with its draws, a solved puzzle, the tag
of the body. -/
theorem buildClientHello_eq_ok {cfg : HandshakeConfig P}
    (h : buildClientHello cfg env maxPadding authKey = .ok m) :
    ∃ now puzzleNonce padding, unixNow env.clock = .ok now ∧
      padding.length ≤ min maxPadding maxHandshakePadding ∧
      m.body = clientHelloBody now env.nonce (P.x25519Public env.secret)
        cfg.handshakeCapabilities puzzleNonce padding ∧
      m.tag = P.hmacSha256 authKey.val m.body ∧ m.nonce = env.nonce ∧
      m.wire = m.tag.val ++ m.body ∧
      Puzzle.verify P m.body cfg.puzzleDifficultyBits = .ok true := by
  unfold buildClientHello at h
  cases hnw : unixNow env.clock with
  | error => rw [hnw] at h; contradiction
  | ok now =>
    rw [hnw] at h
    simp only [bind, Except.bind] at h
    split at h
    · contradiction
    · next body hso =>
      obtain rfl := Except.ok.inj h
      obtain ⟨hbo, hve⟩ := Puzzle.solve_eq_ok hso
      have hl : (fillBytes env.padding (randomPaddingLen (min maxPadding maxHandshakePadding)
          env.paddingDraw)).length ≤ min maxPadding maxHandshakePadding := by
        rw [length_fillBytes]
        exact randomPaddingLen_le _ _
      rcases hbo with rfl | ⟨n, rfl⟩
      · exact ⟨now, 0, _, rfl, hl, rfl, rfl, rfl, rfl, hve⟩
      · refine ⟨now, n, _, rfl, hl, ?_, rfl, rfl, rfl, hve⟩
        exact withNonce_clientHelloBody ..

def parsedHello (tag authKey : Bytes 32) (fixedBody : Bytes 84) (padding : List UInt8)
    (digest : Bytes 32) : ParsedClientHello :=
  { tag, authKey, fixedBody, body := fixedBody.val ++ padding, firstPacketDigest := digest }

theorem parseClientHello_wire (short limit shortPadding : String) (tag authKey : Bytes 32)
    (now : Int64) (nonce : Bytes 24) (publicKey : Bytes 32) (capabilities puzzleNonce : Nat)
    (tail : List UInt8) (hca : padding.length ≤ cap) (hl : padding.length < 2 ^ 16) :
    parseClientHello short limit shortPadding (.ok cap)
        (tag.val ++ clientHelloBody now nonce publicKey capabilities puzzleNonce padding ++ tail)
        authKey =
      .ok (parsedHello tag authKey
        (helloFixed now nonce publicKey capabilities puzzleNonce padding.length) padding
        (.zero 32)) := by
  let fixed := helloFixed now nonce publicKey capabilities puzzleNonce padding.length
  have hpn : decodeBE (slice 82 84 fixed.val) = padding.length :=
    helloFixed_paddingLen now nonce publicKey capabilities puzzleNonce padding.length hl
  have hpl : tag.val ++ clientHelloBody now nonce publicKey capabilities puzzleNonce padding ++
      tail = tag.val ++ (fixed.val ++ (padding ++ tail)) := by
    rw [clientHelloBody_eq, append_assoc, append_assoc]
  have htg : firstBytes clientHelloTagLen (tag.val ++ (fixed.val ++ (padding ++ tail))) =
      some tag := firstBytes_append tag _
  have hfi : firstBytes clientHelloFixedBodyLen
      ((tag.val ++ (fixed.val ++ (padding ++ tail))).drop clientHelloTagLen) = some fixed := by
    have hdr : (tag.val ++ (fixed.val ++ (padding ++ tail))).drop clientHelloTagLen =
        fixed.val ++ (padding ++ tail) := drop_left' tag.property
    rw [hdr]
    exact firstBytes_append fixed _
  have hsc : slice plainClientHelloMinLen (plainClientHelloMinLen + padding.length)
      (tag.val ++ (fixed.val ++ (padding ++ tail))) = padding := by
    have hh : (tag.val ++ fixed.val).length = plainClientHelloMinLen := by
      rw [length_append, tag.property, fixed.property]
      rfl
    rw [slice, ← append_assoc tag.val, drop_left' hh, Nat.add_sub_cancel_left, take_left' rfl]
  have hlo : ¬ (tag.val ++ (fixed.val ++ (padding ++ tail))).length <
      plainClientHelloMinLen + padding.length := by
    simp only [length_append, show plainClientHelloMinLen = 116 from rfl]
    omega
  rw [hpl]
  simp only [parseClientHello, htg, hfi, hpn, hsc, hlo, Nat.not_lt.mpr hca]
  rfl

theorem parseClientHello_eq_ok
    (h : parseClientHello short limit shortPadding paddingCap plain authKey = .ok parsed) :
    parsed.authKey = authKey ∧ ∃ cap, paddingCap = .ok cap ∧ parsed.paddingLen ≤ cap := by
  unfold parseClientHello at h
  split at h
  · split at h
    · contradiction
    · next cap =>
      dsimp only at h
      split at h
      · contradiction
      · next hca =>
        split at h
        · contradiction
        · obtain rfl := Except.ok.inj h
          exact ⟨rfl, cap, rfl, Nat.not_lt.mp hca⟩
  · contradiction

namespace HandshakeConfig

variable {P : Platform} {frameSize : Nat}

def paddingCapIn (cfg : HandshakeConfig P) (frameSize : Option Nat) : Nat :=
  match frameSize with
  | some frameSize =>
    min cfg.plainPaddingCap
      (frameSize - (stealthHandshakeNonceLen + clientHelloTagLen + clientHelloFixedBodyLen))
  | none => cfg.plainPaddingCap

theorem paddingCapIn_le (cfg : HandshakeConfig P) (frameSize : Option Nat) :
    cfg.paddingCapIn frameSize ≤ Espejismo.maxHandshakePadding := by
  unfold paddingCapIn plainPaddingCap
  split <;> omega

theorem stealthClientPaddingCap_eq (cfg : HandshakeConfig P)
    (hv : validateStealthHandshakeFrame frameSize = .ok ()) :
    cfg.stealthClientPaddingCap frameSize = .ok (cfg.paddingCapIn (some frameSize)) := by
  have hmin := validateStealthHandshakeFrame_eq_ok hv
  have hh : ¬ frameSize <
      stealthHandshakeNonceLen + clientHelloTagLen + clientHelloFixedBodyLen := by
    simp only [stealthHandshakeNonceLen, clientHelloTagLen, clientHelloFixedBodyLen]
    omega
  simp [stealthClientPaddingCap, hv, hh, paddingCapIn]

theorem stealthClientPaddingCap_eq_ok {cfg : HandshakeConfig P}
    (h : cfg.stealthClientPaddingCap frameSize = .ok cap) :
    cap = cfg.paddingCapIn (some frameSize) := by
  cases hv : validateStealthHandshakeFrame frameSize with
  | error =>
    rw [stealthClientPaddingCap, hv] at h
    contradiction
  | ok =>
    rw [cfg.stealthClientPaddingCap_eq hv] at h
    exact (Except.ok.inj h).symm

theorem slotKey_congr {a b : HandshakeConfig P} (h : a.psk = b.psk) (slot : Slot) :
    a.slotKey slot = b.slotKey slot := by
  cases slot with
  | static => rw [slotKey, slotKey, a.authKey_eq, b.authKey_eq, h]
  | window => rw [slotKey, slotKey, h]

end HandshakeConfig

/-! ## Candidates -/

theorem mapM_eq_map {f : Nat → Except Error Slot} (hfg : ∀ n r, f n = .ok r → r = g n)
    {ns : List Nat} (h : ns.mapM f = .ok rs) : rs = ns.map g := by
  induction ns generalizing rs with
  | nil =>
    obtain rfl := Except.ok.inj h
    rfl
  | cons n ns ih =>
    rw [mapM_cons] at h
    cases hn : f n with
    | error => rw [hn] at h; contradiction
    | ok r =>
      cases hns : ns.mapM f with
      | error => rw [hn, hns] at h; contradiction
      | ok =>
        rw [hn, hns] at h
        obtain rfl := Except.ok.inj h
        rw [hfg n r hn, ih hns, map_cons]

variable {w : HandshakeWindow} {now : Int64} {slots : List Slot}

theorem acceptedSlots_eq_ok (h : w.acceptedSlots now = .ok slots) :
    w.enabled = false ∧ slots = [.static] ∨
    w.enabled = true ∧ ∃ current, windowSlot now w.stepSecs = .ok current ∧
      slots = .window current ::
        ((List.range' 1 w.previousWindows).filterMap (fun offset =>
          if offset ≤ current then some (Slot.window (current - offset)) else none) ++
        (List.range' 1 w.futureWindows).map fun offset => Slot.window (current + offset)) := by
  unfold HandshakeWindow.acceptedSlots at h
  cases hen : w.enabled with
  | false =>
    rw [hen] at h
    exact .inl ⟨rfl, (Except.ok.inj h).symm⟩
  | true =>
    rw [hen] at h
    cases hcu : windowSlot now w.stepSecs with
    | error => rw [hcu] at h; contradiction
    | ok current =>
      rw [hcu] at h
      simp only [Bool.not_true, Bool.false_eq_true, if_false, bind, Except.bind] at h
      split at h
      · contradiction
      · next future hfu =>
        obtain rfl := Except.ok.inj h
        refine .inr ⟨rfl, current, rfl, ?_⟩
        rw [mapM_eq_map (fun n r hr => ?_) hfu]
        split at hr
        · exact (Except.ok.inj hr).symm
        · contradiction

/-- **Which slots are accepted**: the static one without windows, else those
from `previousWindows` before the current one to `futureWindows` after it. -/
theorem mem_acceptedSlots (h : w.acceptedSlots now = .ok slots) (hm : slot ∈ slots) :
    w.enabled = false ∧ slot = .static ∨
    w.enabled = true ∧ ∃ current n, windowSlot now w.stepSecs = .ok current ∧ slot = .window n ∧
      current ≤ n + w.previousWindows ∧ n ≤ current + w.futureWindows := by
  rcases acceptedSlots_eq_ok h with ⟨hen, rfl⟩ | ⟨hen, current, hcu, rfl⟩
  · exact .inl ⟨hen, mem_singleton.mp hm⟩
  refine .inr ⟨hen, current, ?_⟩
  simp only [mem_cons, mem_append, mem_filterMap, mem_map,
    mem_range'_1, Option.ite_none_right_eq_some, Option.some.injEq] at hm
  rcases hm with rfl | ⟨offset, hr, hle, rfl⟩ | ⟨offset, hr, rfl⟩
  · exact ⟨current, hcu, rfl, by omega, by omega⟩
  · exact ⟨current - offset, hcu, rfl, by omega, by omega⟩
  · exact ⟨current + offset, hcu, rfl, by omega, by omega⟩

theorem nodup_acceptedSlots (h : w.acceptedSlots now = .ok slots) : slots.Nodup := by
  rcases acceptedSlots_eq_ok h with ⟨_, rfl⟩ | ⟨_, current, _, rfl⟩
  · exact nodup_singleton _
  rw [nodup_cons, nodup_append]
  refine ⟨?_, ?_, ?_, ?_⟩
  · simp only [mem_append, mem_filterMap, mem_map, mem_range'_1]
    rintro (⟨offset, hr, hs⟩ | ⟨offset, hr, hs⟩)
    · split at hs
      · simp only [Option.some.injEq, Slot.window.injEq] at hs
        omega
      · contradiction
    · simp only [Slot.window.injEq] at hs
      omega
  · refine List.Nodup.filterMap ?_ nodup_range'
    intro a b s ha hb
    simp only [Option.mem_def, Option.ite_none_right_eq_some, Option.some.injEq] at ha hb
    have he := ha.2.trans hb.2.symm
    simp only [Slot.window.injEq] at he
    omega
  · refine List.Nodup.map ?_ nodup_range'
    intro a b hab
    simpa using hab
  · intro a ha b hb
    simp only [mem_filterMap, mem_map, mem_range'_1] at ha hb
    obtain ⟨x, hx, hax⟩ := ha
    obtain ⟨y, hy, rfl⟩ := hb
    split at hax
    · simp only [Option.some.injEq] at hax
      rw [← hax]
      simp only [ne_eq, Slot.window.injEq]
      omega
    · contradiction

section Candidates

variable {P : Platform} {keep : HandshakeUser P → Bool} {now : Int64}

variable {start : Nat} {users : List (HandshakeUser P)} {tried : List (Candidate P)}
  {c : Candidate P} {nonce : List UInt8}

theorem candidatesFrom_cons (h : candidatesFrom keep now start (user :: users) = .ok tried) :
    (keep user = false ∧ candidatesFrom keep now (start + 1) users = .ok tried) ∨
    keep user = true ∧ ∃ slots rest, user.config.window.acceptedSlots now = .ok slots ∧
      candidatesFrom keep now (start + 1) users = .ok rest ∧
      tried = slots.map (fun slot => { index := start, user, slot }) ++ rest := by
  rw [candidatesFrom] at h
  cases hk : keep user with
  | false =>
    rw [hk] at h
    exact .inl ⟨rfl, h⟩
  | true =>
    rw [hk] at h
    cases hsl : user.config.window.acceptedSlots now with
    | error => rw [hsl] at h; contradiction
    | ok slots =>
      cases hre : candidatesFrom keep now (start + 1) users with
      | error => rw [hsl, hre] at h; contradiction
      | ok rest =>
        rw [hsl, hre] at h
        exact .inr ⟨rfl, slots, rest, rfl, rfl, (Except.ok.inj h).symm⟩

/-- **Which candidates are tried**: the accepted slots of the kept users, each
under the index of its user. -/
theorem mem_candidatesFrom (h : candidatesFrom keep now start users = .ok tried) (c : Candidate P) :
    c ∈ tried ↔ start ≤ c.index ∧ users[c.index - start]? = some c.user ∧ keep c.user = true ∧
      ∃ slots, c.user.config.window.acceptedSlots now = .ok slots ∧ c.slot ∈ slots := by
  induction users generalizing start tried with
  | nil =>
    obtain rfl := Except.ok.inj h
    simp
  | cons user users ih =>
    -- a candidate of the tail has a larger index
    have ht (hlt : start < c.index) :
        (user :: users)[c.index - start]? = users[c.index - (start + 1)]? := by
      rw [show c.index - start = c.index - (start + 1) + 1 by omega, getElem?_cons_succ]
    rcases candidatesFrom_cons h with ⟨hk, hre⟩ | ⟨hk, slots, rest, hsl, hre, rfl⟩
    · rw [ih hre]
      constructor
      · rintro ⟨hle, hu, hke, hs⟩
        exact ⟨by omega, by rw [ht (by omega)]; exact hu, hke, hs⟩
      · rintro ⟨hle, hu, hke, hs⟩
        have hne : c.index ≠ start := by
          rintro he
          rw [he, Nat.sub_self, getElem?_cons_zero, Option.some.injEq] at hu
          rw [hu, hke] at hk
          contradiction
        exact ⟨by omega, by rw [← ht (by omega)]; exact hu, hke, hs⟩
    · rw [mem_append, mem_map, ih hre]
      constructor
      · rintro (⟨slot, hst, rfl⟩ | ⟨hle, hu, hke, hs⟩)
        · exact ⟨Nat.le_refl _, by simp, hk, slots, hsl, hst⟩
        · exact ⟨by omega, by rw [ht (by omega)]; exact hu, hke, hs⟩
      · rintro ⟨hle, hu, hke, slots', hsl', hm⟩
        by_cases he : c.index = start
        · rw [he, Nat.sub_self, getElem?_cons_zero, Option.some.injEq] at hu
          rw [← hu, hsl] at hsl'
          obtain rfl := Except.ok.inj hsl'
          exact .inl ⟨c.slot, hm, by rw [hu, ← he]⟩
        · exact .inr ⟨by omega, by rw [← ht (by omega)]; exact hu, hke, slots', hsl', hm⟩

theorem nodup_candidatesFrom (h : candidatesFrom keep now start users = .ok tried) :
    (tried.map fun c => (c.index, c.slot)).Nodup := by
  induction users generalizing start tried with
  | nil =>
    obtain rfl := Except.ok.inj h
    exact nodup_nil
  | cons user users ih =>
    rcases candidatesFrom_cons h with ⟨_, hre⟩ | ⟨_, slots, rest, hsl, hre, rfl⟩
    · exact ih hre
    rw [map_append, map_map, nodup_append]
    refine ⟨?_, ih hre, ?_⟩
    · refine List.Nodup.map ?_ (nodup_acceptedSlots hsl)
      intro a b hab
      simpa using hab
    · intro x hx y hy
      simp only [mem_map, Function.comp_apply] at hx hy
      obtain ⟨slot, _, rfl⟩ := hx
      obtain ⟨c, hc, rfl⟩ := hy
      have := ((mem_candidatesFrom hre c).mp hc).1
      intro he
      simp only [Prod.mk.injEq] at he
      omega

theorem filterMap_candidates_eq_singleton (hno : (tried.map fun c => (c.index, c.slot)).Nodup)
    (hc : c ∈ tried) (hr : f c = some r)
    (ho : ∀ d ∈ tried, (d.index, d.slot) ≠ (c.index, c.slot) → f d = none) :
    tried.filterMap f = [r] := by
  induction tried with
  | nil => contradiction
  | cons d tried ih =>
    rw [map_cons, nodup_cons] at hno
    rcases mem_cons.mp hc with rfl | ht
    · have hnon : tried.filterMap f = [] := by
        rw [filterMap_eq_nil_iff]
        intro d hd
        refine ho d (mem_cons_of_mem _ hd) fun he => hno.1 ?_
        rw [← he]
        exact mem_map_of_mem hd
      rw [filterMap_cons, hr, hnon]
    · have hne : (d.index, d.slot) ≠ (c.index, c.slot) := by
        intro he
        refine hno.1 ?_
        rw [he]
        exact mem_map_of_mem ht
      rw [filterMap_cons, ho d mem_cons_self hne]
      exact ih hno.2 ht fun d hd => ho d (mem_cons_of_mem _ hd)

theorem filter_candidates_eq_singleton (hno : (tried.map fun c => (c.index, c.slot)).Nodup)
    (hc : c ∈ tried) (hp : p c = true)
    (ho : ∀ d ∈ tried, (d.index, d.slot) ≠ (c.index, c.slot) → p d = false) :
    tried.filter p = [c] := by
  rw [← filterMap_eq_filter]
  refine filterMap_candidates_eq_singleton hno hc (by simp [hp]) ?_
  intro d hd hne
  simp [ho d hd hne]

/-- The candidates a server goes through: in the stealth profile it skips the
users with another frame size. -/
def triedCandidates (frameSize : Option Nat) (now : Int64) (users : List (HandshakeUser P)) :
    Except Error (List (Candidate P)) :=
  match frameSize with
  | some frameSize =>
    candidatesFrom (fun user => decide (user.config.stealthFrameSize = some frameSize)) now 0 users
  | none => candidatesFrom (fun _ => true) now 0 users

def packetDigest (P : Platform) (frameSize : Option Nat) (packet : List UInt8) : Bytes 32 :=
  match frameSize with
  | some _ => firstPacketDigest P [packet]
  | none =>
    firstPacketDigest P [packet.take variableHandshakeNonceLen,
      slice variableHandshakeNonceLen (variableHandshakeNonceLen + variableHandshakeLenLen) packet,
      packet.drop (variableHandshakeNonceLen + variableHandshakeLenLen)]

theorem packet_parts (payload : List UInt8) (hnn : nonce.length = variableHandshakeNonceLen)
    (hl : len.length = variableHandshakeLenLen) :
    (nonce ++ (len ++ payload)).take variableHandshakeNonceLen = nonce ∧
    slice variableHandshakeNonceLen (variableHandshakeNonceLen + variableHandshakeLenLen)
      (nonce ++ (len ++ payload)) = len ∧
    (nonce ++ (len ++ payload)).drop (variableHandshakeNonceLen + variableHandshakeLenLen) =
      payload := by
  have hh : (nonce ++ len).length = variableHandshakeNonceLen + variableHandshakeLenLen := by
    rw [length_append, hnn, hl]
  refine ⟨take_left' hnn, ?_, ?_⟩
  · rw [slice, drop_left' hnn, Nat.add_sub_cancel_left, take_left' hl]
  · rw [← append_assoc, drop_left' hh]

theorem packetDigest_plain (hnn : nonce.length = variableHandshakeNonceLen)
    (hl : len.length = variableHandshakeLenLen) :
    packetDigest P none (nonce ++ (len ++ payload)) =
      firstPacketDigest P [nonce, len, payload] := by
  obtain ⟨htk, hsc, hdr⟩ := packet_parts payload hnn hl
  rw [packetDigest, htk, hsc, hdr]

def Candidate.openPacket (c : Candidate P) (frameSize : Option Nat) (packet : List UInt8) :
    Option (ParsedClientHello × Nat) :=
  match frameSize with
  | some n => c.openStealth n packet (packetDigest P frameSize packet)
  | none =>
    let nonce := packet.take variableHandshakeNonceLen
    let maskedLen := slice variableHandshakeNonceLen
      (variableHandshakeNonceLen + variableHandshakeLenLen) packet
    if c.inRange nonce maskedLen then
      c.openPlain nonce (packet.drop (variableHandshakeNonceLen + variableHandshakeLenLen))
        (packetDigest P frameSize packet)
    else none

end Candidates

end Espejismo
