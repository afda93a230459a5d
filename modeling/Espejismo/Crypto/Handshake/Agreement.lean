import Espejismo.Crypto.Handshake.Read
import Espejismo.Crypto.Handshake.Verify

/-!
# Crypto.Handshake.Agreement

A client and a server that share a PSK and compatible settings end up with
mirrored session keys: the one candidate that can read what the client masks opens
it (`readClientHelloForUsers_packet`), the hello passes the server's checks
(`verifyClientHello_ok`), the reply opens at the client (`receiveReply_ok`), and
both ends put the same inputs into the key schedule.
-/

namespace Espejismo

open Binary List EStateM

variable {P : Platform}

/-! ## The client's side -/

/-- The padding a client may add to a hello, and a server accepts in one, in
the profile it is configured for. -/
def HandshakeConfig.effectivePaddingCap (cfg : HandshakeConfig P) : Nat :=
  cfg.paddingCapIn cfg.stealthFrameSize

def helloPacket (P : Platform) (frameSize : Option Nat) (env : ClientEnv) (key : Bytes 32)
    (wire : List UInt8) : Except Error (List UInt8) :=
  match frameSize with
  | some n => maskStealthHandshakeBlock P env.block key (ascii "client-hello") [] wire n
  | none =>
    .ok (maskVariableHandshakeEnvelope P env.envelope key (ascii "plain-client") [] wire
      variableHandshakeExtraPaddingMax)

def receiveReply (cfg : HandshakeConfig P) (secret authKey : Bytes 32)
    (hello : ClientHelloMaterial) : Handshaking SessionKeys :=
  match cfg.stealthFrameSize with
  | some frameSize => receiveStealthReply cfg secret authKey hello frameSize
  | none => receivePlainReply cfg secret authKey hello

def ValidFrameSize (frameSize : Option Nat) : Prop :=
  ∀ n, frameSize = some n → validateStealthHandshakeFrame n = .ok ()

section Client

variable {cfg : HandshakeConfig P} {env : ClientEnv} {key : Bytes 32} {hello : ClientHelloMaterial}
  {packet : List UInt8}

/-- **The client writes one packet**, then waits for the reply. -/
theorem run_connectHandshake (hva : ValidFrameSize cfg.stealthFrameSize)
    (hke : cfg.clientAuthKey env.authClock = .ok key)
    (hbu : buildClientHello cfg env cfg.effectivePaddingCap key = .ok hello)
    (hp : helloPacket P cfg.stealthFrameSize env key hello.wire = .ok packet)
    (hw : env.failsAfter = none) (s : HandshakeIo) :
    (connectHandshake cfg env).run s =
      (receiveReply cfg env.secret key hello).run { s with output := s.output ++ packet } := by
  unfold connectHandshake receiveReply
  cases hsi : cfg.stealthFrameSize with
  | none =>
    rw [hsi] at hp
    obtain rfl := Except.ok.inj hp
    have hca : buildClientHello cfg env cfg.maxHandshakePadding key = .ok hello := by
      rw [← hbu]
      simp [buildClientHello, HandshakeConfig.effectivePaddingCap, HandshakeConfig.paddingCapIn,
        hsi, HandshakeConfig.plainPaddingCap]
    simp [connectPlainHandshake, hke, hca, hw]
  | some frameSize =>
    have hv := hva frameSize hsi
    rw [HandshakeConfig.effectivePaddingCap, hsi] at hbu
    rw [hsi] at hp
    simp [connectStealthHandshake, hv, hke, hbu, hw, cfg.stealthClientPaddingCap_eq hv,
      show maskStealthHandshakeBlock P
        env.block key (ascii "client-hello") [] hello.wire frameSize = .ok packet from hp]

theorem receiveReply_nil (hva : ValidFrameSize cfg.stealthFrameSize) (secret : Bytes 32)
    (output : List UInt8) :
    (finalState ((receiveReply cfg secret key hello).run
      { input := [], output, replay := none })).output = output := by
  unfold receiveReply
  cases hsi : cfg.stealthFrameSize with
  | none => rfl
  | some frameSize =>
    have hmn := validateStealthHandshakeFrame_eq_ok (hva frameSize hsi)
    simp only [receiveStealthReply, run_bind]
    rw [run_readExact_short (by rw [length_nil]; omega), finalState_error]

def clientPacket (cfg : HandshakeConfig P) (env : ClientEnv) : List UInt8 :=
  (finalState ((connectHandshake cfg env).run { input := [], output := [], replay := none })).output

theorem clientPacket_eq (hva : ValidFrameSize cfg.stealthFrameSize)
    (hke : cfg.clientAuthKey env.authClock = .ok key)
    (hbu : buildClientHello cfg env cfg.effectivePaddingCap key = .ok hello)
    (hp : helloPacket P cfg.stealthFrameSize env key hello.wire = .ok packet)
    (hw : env.failsAfter = none) : clientPacket cfg env = packet := by
  rw [clientPacket, run_connectHandshake hva hke hbu hp hw, nil_append, receiveReply_nil hva]

end Client

/-! ## The server finds the client -/

section Server

variable {users : List (HandshakeUser P)} {env : ServerEnv} {tried : List (Candidate P)}
  {c : Candidate P}

/-- The candidate can read something from the packet: in the plain profile a
length in range, in the stealth profile an authenticated hello. -/
def Candidate.couldRead (c : Candidate P) (frameSize : Option Nat) (packet : List UInt8) : Bool :=
  match frameSize with
  | some n => (c.openStealth n packet (packetDigest P frameSize packet)).isSome
  | none =>
    c.inRange (packet.take variableHandshakeNonceLen)
      (slice variableHandshakeNonceLen (variableHandshakeNonceLen + variableHandshakeLenLen) packet)

section PlainRead

variable {envelope : EnvelopeEnv} {wire : List UInt8}

theorem payloadLen_envelope (hm : wire.length ≤ plainClientHelloMinLen + maxHandshakePadding) :
    c.payloadLen envelope.nonce.val (envelopeLen P envelope c.key (ascii "plain-client") [] wire
        variableHandshakeExtraPaddingMax) =
      (envelopePayload envelope wire variableHandshakeExtraPaddingMax).length := by
  refine unmask_envelopeLen P envelope c.key (ascii "plain-client") [] ?_
  simp only [plainClientHelloMinLen, clientHelloTagLen, clientHelloFixedBodyLen,
    maxHandshakePadding, variableHandshakeExtraPaddingMax] at hm ⊢
  omega

theorem inRange_envelope (hmn : plainClientHelloMinLen ≤ wire.length)
    (hm : wire.length ≤ plainClientHelloMinLen + c.user.config.plainPaddingCap) :
    c.inRange envelope.nonce.val (envelopeLen P envelope c.key (ascii "plain-client") [] wire
      variableHandshakeExtraPaddingMax) = true := by
  have hca : c.user.config.plainPaddingCap ≤ maxHandshakePadding := Nat.min_le_right _ _
  have htai := randomPaddingLen_le variableHandshakeExtraPaddingMax envelope.extraDraw
  rw [Candidate.inRange, payloadLen_envelope (by omega), length_envelopePayload, Bool.and_eq_true,
    decide_eq_true_iff, decide_eq_true_iff, plainClientHelloMaxLen]
  simp only [HandshakeConfig.plainPaddingCap] at hm
  omega

/-- **Plain read**: when only one candidate finds a length in range, the server
reads the whole envelope and returns what that candidate opens. -/
theorem readPlainClientHelloForUsers_envelope (hnw : unixNow env.parseClock = .ok now)
    (ht : triedCandidates none now users = .ok tried) (hc : c ∈ tried)
    (hi : s.input = maskVariableHandshakeEnvelope P envelope c.key (ascii "plain-client") [] wire
      variableHandshakeExtraPaddingMax ++ rest)
    (hol : ∀ d ∈ tried, (d.index, d.slot) ≠ (c.index, c.slot) →
      d.couldRead none (maskVariableHandshakeEnvelope P envelope c.key (ascii "plain-client") []
        wire variableHandshakeExtraPaddingMax) = false)
    (hmn : plainClientHelloMinLen ≤ wire.length)
    (hm : wire.length ≤ plainClientHelloMinLen + c.user.config.plainPaddingCap)
    (hon : c.openPlain envelope.nonce.val (xorVariableHandshakePayload P c.key
        (ascii "plain-client") [] envelope.nonce.val
        (envelopePayload envelope wire variableHandshakeExtraPaddingMax))
        (packetDigest P none (maskVariableHandshakeEnvelope P envelope c.key (ascii "plain-client")
          [] wire variableHandshakeExtraPaddingMax)) = some r) :
    (readPlainClientHelloForUsers users env).run s = .ok r { s with input := rest } := by
  let len := envelopeLen P envelope c.key (ascii "plain-client") [] wire
    variableHandshakeExtraPaddingMax
  let payload := xorVariableHandshakePayload P c.key (ascii "plain-client") [] envelope.nonce.val
    (envelopePayload envelope wire variableHandshakeExtraPaddingMax)
  have hno : envelope.nonce.val.length = variableHandshakeNonceLen := envelope.nonce.property
  have hl : len.length = variableHandshakeLenLen := length_envelopeLen ..
  have hp : maskVariableHandshakeEnvelope P envelope c.key (ascii "plain-client") [] wire
      variableHandshakeExtraPaddingMax = envelope.nonce.val ++ (len ++ payload) := rfl
  obtain ⟨htk, hsl, _⟩ := packet_parts payload hno hl
  -- the candidate reads its own length, and no other candidate is left
  have han : c.payloadLen envelope.nonce.val len = payload.length := by
    have hca : c.user.config.plainPaddingCap ≤ maxHandshakePadding := Nat.min_le_right _ _
    simp [len, payload, xorVariableHandshakePayload, payloadLen_envelope (hm.trans (by omega))]
  have hfi : tried.filter (Candidate.inRange · envelope.nonce.val len) = [c] := by
    refine filter_candidates_eq_singleton (nodup_candidatesFrom ht) hc
      (inRange_envelope hmn hm) fun d hd hne => ?_
    have := hol d hd hne
    rwa [hp, Candidate.couldRead, htk, hsl] at this
  rw [hp, packetDigest_plain hno hl] at hon
  rw [hp, append_assoc, append_assoc] at hi
  refine readPlainClientHelloForUsers_eq_ok.mpr ⟨_, len, payload, rest, now, tried, hno, hl,
    hi, rfl, hnw, ht, ?_, ?_⟩
  · rw [hfi, map_singleton, han]
    rfl
  · rw [hfi, filterMap_cons, hon]
    rfl

end PlainRead

/-- **Stealth read**: when only one candidate opens the block, the server
returns what it opens. -/
theorem readStealthClientHelloBy_block (hv : validateStealthHandshakeFrame frameSize = .ok ())
    (hnw : unixNow env.parseClock = .ok now)
    (ht : triedCandidates (some frameSize) now users = .ok tried) (hc : c ∈ tried)
    (hl : block.length = frameSize) (hi : s.input = block ++ rest)
    (hol : ∀ d ∈ tried, (d.index, d.slot) ≠ (c.index, c.slot) →
      d.couldRead (some frameSize) block = false)
    (hon : c.openStealth frameSize block (packetDigest P (some frameSize) block) = some r) :
    (readStealthClientHelloBy noneText manyText users frameSize env).run s =
      .ok r { s with input := rest } := by
  have hfi : tried.filterMap (Candidate.openStealth · frameSize block
      (firstPacketDigest P [block])) = [r] := by
    refine filterMap_candidates_eq_singleton (nodup_candidatesFrom ht) hc hon fun d hd hne => ?_
    have := hol d hd hne
    rwa [Candidate.couldRead, Option.isSome_eq_false_iff, Option.isNone_iff_eq_none] at this
  exact readStealthClientHelloBy_eq_ok.mpr ⟨hv, block, rest, now, tried, hl, hi, rfl, hnw, ht, hfi⟩

end Server

/-! ## The reply -/

section Reply

variable {cfg : HandshakeConfig P} {hello : ParsedClientHello} {env : ServerEnv}

theorem serverHello_publicKey (publicKey tag : Bytes 32) (version capabilities : Nat) :
    (serverHello publicKey version capabilities tag).slice 0 32 (by decide) = publicKey := by
  simp [serverHello, Bytes.slice, slice_append_left, slice_all]

theorem serverHello_version (publicKey tag : Bytes 32) (capabilities : Nat) :
    decodeBE (slice 32 34 (serverHello publicKey protocolVersion capabilities tag).val) =
      protocolVersion := by
  simp [serverHello, slice_append_right, slice_append_left]
  decide

theorem serverHello_capabilities (publicKey tag : Bytes 32) (version : Nat)
    (h : capabilities < 2 ^ 64) :
    decodeBE (slice 34 42 (serverHello publicKey version capabilities tag).val) = capabilities := by
  have hby : slice 34 42 (serverHello publicKey version capabilities tag).val =
      encodeBE 8 capabilities := by
    simp [serverHello, slice_append_right, slice_append_left, slice_all]
  rw [hby, decodeBE_encodeBE (by omega)]

theorem serverHello_tag (publicKey tag : Bytes 32) (version capabilities : Nat) :
    slice 42 74 (serverHello publicKey version capabilities tag).val = tag.val := by
  simp [serverHello, slice_append_right, slice_all]

theorem finishClientHandshake_ok (client : HandshakeConfig P) (authKey secret publicKey : Bytes 32)
    (body : List UInt8) (nonce : Bytes 24) (hlt : capabilities < 2 ^ 64)
    (htc : capabilities &&& capTcpConnect ≠ 0)
    (hmu : capabilities &&& client.muxMode.capability ≠ 0) :
    finishClientHandshake client authKey secret body nonce
        (serverHello publicKey protocolVersion capabilities
          (serverHmac P authKey body publicKey protocolVersion capabilities)) =
      .ok (deriveKeys P client.psk (P.x25519 secret publicKey) nonce.val .client) := by
  have hver : supportsProtocolVersion protocolVersion = true := rfl
  simp only [finishClientHandshake, serverHello_publicKey, serverHello_version,
    serverHello_capabilities _ _ _ hlt, serverHello_tag, htc,
    (ensureMuxCapability_iff capabilities "server").mpr hmu, ne_eq]
  rfl

theorem serverReply_ok {peer : HandshakeConfig P} (hmu : peer.muxMode = cfg.muxMode)
    (hcp : hello.capabilities = peer.handshakeCapabilities) (secret : Bytes 32) :
    serverReply cfg hello secret = .ok (serverHello (P.x25519Public secret) protocolVersion
      peer.handshakeCapabilities (serverHmac P hello.authKey hello.body (P.x25519Public secret)
        protocolVersion peer.handshakeCapabilities)) := by
  have hsa : cfg.handshakeCapabilities = peer.handshakeCapabilities := by
    rw [HandshakeConfig.handshakeCapabilities, HandshakeConfig.handshakeCapabilities, hmu]
  have hen := (ensureMuxCapability_iff peer.handshakeCapabilities "peer").mpr
    (handshakeCapabilities_spec hmu).2.2
  simp only [serverReply, HandshakeConfig.negotiatedCapabilities, hcp, hen, hsa, Nat.and_self]
  rfl

/-- **The reply crosses**: the server writes one packet, and a client that
waits under the same key finds the reply in it. -/
theorem sendServerHelloAndDeriveKeys_reply {client : HandshakeConfig P}
    (sent : ClientHelloMaterial) (hsi : cfg.stealthFrameSize = client.stealthFrameSize)
    (hva : ValidFrameSize client.stealthFrameSize)
    (hrp : serverReply cfg hello env.secret = .ok reply) (hta : hello.tag = sent.tag)
    (hw : env.failsAfter = none) :
    ∃ packet, (∀ s, (sendServerHelloAndDeriveKeys cfg hello env).run s =
        .ok (deriveKeys P cfg.psk (P.x25519 env.secret hello.publicKey) hello.nonce .server)
          { s with output := s.output ++ packet }) ∧
      ∀ (s : HandshakeIo) (rest : List UInt8) (secret : Bytes 32), s.input = packet ++ rest →
        (receiveReply client secret hello.authKey sent).run s =
          (liftExcept (finishClientHandshake client hello.authKey secret sent.body sent.nonce
            reply)).run { s with input := rest } := by
  cases hc : client.stealthFrameSize with
  | none =>
    refine ⟨maskVariableHandshakeEnvelope P env.envelope hello.authKey (ascii "plain-server")
      hello.tag.val reply.val variableHandshakeExtraPaddingMax, fun s => ?_,
      fun s rest secret hi => ?_⟩
    · simp only [sendServerHelloAndDeriveKeys, run_bind, hrp, hsi, hc, hw,
        run_liftExcept_ok, run_writeAll_none, run_pure]
    · have hr : (readVariableHandshakeEnvelope P hello.authKey (ascii "plain-server")
          sent.tag.val serverHelloLen (serverHelloLen + variableHandshakeExtraPaddingMax)).run s =
            .ok (envelopePayload env.envelope reply.val variableHandshakeExtraPaddingMax)
              { s with input := rest } := by
        rw [← hta]
        exact readVariableHandshakeEnvelope_mask P env.envelope hello.authKey
          (ascii "plain-server") hello.tag.val (by simp [serverHelloLen])
          (by simp [serverHelloLen]) (by decide) hi
      have hf : firstBytes 74 (envelopePayload env.envelope reply.val
          variableHandshakeExtraPaddingMax) = some reply := firstBytes_append reply _
      simp [receiveReply, hc, receivePlainReply, hr, hf]
  | some frameSize =>
    have hv := hva frameSize hc
    have hmn := validateStealthHandshakeFrame_eq_ok hv
    obtain ⟨block, hma, hl, hun⟩ := unmask_maskStealthHandshakeBlock P env.block
      hello.authKey (ascii "server-hello") hello.tag.val hv
      (show reply.val.length + stealthHandshakeNonceLen ≤ frameSize by
        rw [stealthHandshakeNonceLen]; omega)
    refine ⟨block, fun s => ?_, fun s rest secret hi => ?_⟩
    · simp only [sendServerHelloAndDeriveKeys, run_bind, hrp, hsi, hc, hw,
        hma, run_liftExcept_ok, run_writeAll_none, run_pure]
    · have hf : firstBytes 74 (blockPayload env.block reply.val frameSize) = some reply :=
        firstBytes_append reply _
      simp only [receiveReply, hc, receiveStealthReply, run_bind]
      rw [run_readExact hl hi]
      simp [← hta, hun, hf]

end Reply

/-! ## Both ends -/

/-- A client meeting a server: the settings, draws and clocks of both, and which
user and slot of the server the client is. -/
structure Encounter (P : Platform) where
  client : HandshakeConfig P
  clientEnv : ClientEnv
  users : List (HandshakeUser P)
  serverEnv : ServerEnv
  replay : Option ReplayCache
  index : Nat
  user : HandshakeUser P
  slot : Slot
  hello : ClientHelloMaterial
  sentAt : Int64
  parsedAt : Int64
  verifiedAt : Int64
  tried : List (Candidate P)

namespace Encounter

def packet (e : Encounter P) : List UInt8 := clientPacket e.client e.clientEnv

/-- The server's side as the hello arrives, with what the client wrote after it. -/
abbrev arrival (e : Encounter P) (more : List UInt8) : HandshakeIo :=
  { input := e.packet ++ more, output := [], replay := e.replay }

def candidate (e : Encounter P) : Candidate P :=
  { index := e.index, user := e.user, slot := e.slot }

/-- The settings of the two ends fit and nothing gets in their way. -/
structure Compatible (e : Encounter P) : Prop where
  users_at : e.users[e.index]? = some e.user
  first_profile : e.users.head?.map (·.config.stealthFrameSize) = some e.client.stealthFrameSize
  user_profile : e.user.config.stealthFrameSize = e.client.stealthFrameSize
  valid : ValidFrameSize e.client.stealthFrameSize
  psk : e.user.config.psk = e.client.psk
  muxMode : e.client.muxMode = e.user.config.muxMode
  padding : e.client.effectivePaddingCap ≤ e.user.config.effectivePaddingCap
  difficulty : e.user.config.puzzleDifficultyBits ≤ e.client.puzzleDifficultyBits
  clientSlot : e.client.window.clientSlot e.clientEnv.authClock = .ok e.slot
  parsedAt : unixNow e.serverEnv.parseClock = .ok e.parsedAt
  tried : triedCandidates e.client.stealthFrameSize e.parsedAt e.users = .ok e.tried
  accepted : ∃ slots, e.user.config.window.acceptedSlots e.parsedAt = .ok slots ∧ e.slot ∈ slots
  /-- No other user or slot reads anything from the packet. -/
  others : ∀ c ∈ e.tried, (c.index, c.slot) ≠ (e.index, e.slot) →
    c.couldRead e.client.stealthFrameSize e.packet = false
  built : buildClientHello e.client e.clientEnv e.client.effectivePaddingCap
    (e.client.slotKey e.slot) = .ok e.hello
  sentAt : unixNow e.clientEnv.clock = .ok e.sentAt
  verifiedAt : unixNow e.serverEnv.verifyClock = .ok e.verifiedAt
  skew : ((e.verifiedAt.toInt - e.sentAt.toInt).natAbs : Int) ≤ e.user.config.clockSkewSecs.toInt
  fresh : ∀ cache, e.replay = some cache → ∀ k ∈ handshakeKeys
    (packetDigest P e.client.stealthFrameSize e.packet) (P.x25519Public e.clientEnv.secret),
    k ∉ (cache.prune e.verifiedAt).seen
  dh : P.x25519 e.clientEnv.secret (P.x25519Public e.serverEnv.secret) =
    P.x25519 e.serverEnv.secret (P.x25519Public e.clientEnv.secret)
  clientWrites : e.clientEnv.failsAfter = none
  serverWrites : e.serverEnv.failsAfter = none

variable {e : Encounter P}

theorem Compatible.key (h : e.Compatible) : e.candidate.key = e.client.slotKey e.slot :=
  HandshakeConfig.slotKey_congr h.psk e.slot

theorem Compatible.clientAuthKey (h : e.Compatible) :
    e.client.clientAuthKey e.clientEnv.authClock = .ok e.candidate.key := by
  rw [HandshakeConfig.clientAuthKey, h.clientSlot, h.key]
  rfl

theorem Compatible.candidate_mem (h : e.Compatible) : e.candidate ∈ e.tried := by
  have ht := h.tried
  unfold triedCandidates at ht
  split at ht
  · next n hsi =>
    refine (mem_candidatesFrom ht _).mpr ⟨Nat.zero_le _, h.users_at, ?_, h.accepted⟩
    rw [decide_eq_true_iff, ← hsi]
    exact h.user_profile
  · exact (mem_candidatesFrom ht _).mpr ⟨Nat.zero_le _, h.users_at, rfl, h.accepted⟩

def parsed (e : Encounter P) (puzzleNonce : Nat) (padding : List UInt8) : ParsedClientHello :=
  parsedHello e.hello.tag e.candidate.key (helloFixed e.sentAt e.clientEnv.nonce
    (P.x25519Public e.clientEnv.secret) e.client.handshakeCapabilities puzzleNonce padding.length)
    padding (packetDigest P e.client.stealthFrameSize e.packet)

/-- What the client built, with the server's name for the key. -/
structure Built (e : Encounter P) (puzzleNonce : Nat) (padding : List UInt8) : Prop where
  body : e.hello.body = clientHelloBody e.sentAt e.clientEnv.nonce
    (P.x25519Public e.clientEnv.secret) e.client.handshakeCapabilities puzzleNonce padding
  tag : e.hello.tag = P.hmacSha256 e.candidate.key.val e.hello.body
  nonce : e.hello.nonce = e.clientEnv.nonce
  wire : e.hello.wire = e.hello.tag.val ++ e.hello.body
  padding_le : padding.length ≤ e.user.config.effectivePaddingCap
  puzzle : Puzzle.verify P e.hello.body e.client.puzzleDifficultyBits = .ok true

theorem Compatible.exists_built (h : e.Compatible) :
    ∃ puzzleNonce padding, e.Built puzzleNonce padding := by
  obtain ⟨now, puzzleNonce, padding, hnw, hl, hbo, hta, hno, hwi, hpu⟩ :=
    buildClientHello_eq_ok h.built
  rw [h.sentAt] at hnw
  obtain rfl := Except.ok.inj hnw
  have hca := h.padding
  refine ⟨puzzleNonce, padding, ?_⟩
  exact
    { body := hbo
      tag := by rw [h.key]; exact hta
      nonce := hno
      wire := hwi
      padding_le := by omega
      puzzle := hpu }

section Run

variable {puzzleNonce : Nat} {padding : List UInt8}

theorem parsed_authKey : (e.parsed puzzleNonce padding).authKey = e.candidate.key := rfl

theorem parsed_publicKey :
    (e.parsed puzzleNonce padding).publicKey = P.x25519Public e.clientEnv.secret :=
  Subtype.ext (helloFixed_publicKey ..)

section Built

variable (hb : e.Built puzzleNonce padding)

include hb

theorem Built.parsed_body : (e.parsed puzzleNonce padding).body = e.hello.body := by
  rw [hb.body, clientHelloBody_eq]
  rfl

theorem Built.length_wire : e.hello.wire.length = plainClientHelloMinLen + padding.length := by
  rw [hb.wire, hb.body, clientHelloBody_eq, length_append, length_append,
    Bytes.length_val, Bytes.length_val, ← Nat.add_assoc]
  rfl

theorem Built.fits (hsi : e.user.config.stealthFrameSize = some n)
    (hv : validateStealthHandshakeFrame n = .ok ()) :
    e.hello.wire.length + stealthHandshakeNonceLen ≤ n := by
  have hmn := validateStealthHandshakeFrame_eq_ok hv
  have hca := hb.padding_le
  have hl := hb.length_wire
  simp only [HandshakeConfig.effectivePaddingCap, HandshakeConfig.paddingCapIn, hsi,
    stealthHandshakeNonceLen, plainClientHelloMinLen, clientHelloTagLen,
      clientHelloFixedBodyLen] at hca hl ⊢
  omega

/-- **The packet is written**, and it is the one the server is given. -/
theorem Compatible.helloPacket (h : e.Compatible) :
    Espejismo.helloPacket P e.client.stealthFrameSize e.clientEnv e.candidate.key e.hello.wire =
      .ok e.packet := by
  have hbl := h.built
  rw [← h.key] at hbl
  suffices ∃ packet, Espejismo.helloPacket P e.client.stealthFrameSize e.clientEnv e.candidate.key
      e.hello.wire = .ok packet by
    obtain ⟨packet, hp⟩ := this
    rw [Encounter.packet, clientPacket_eq h.valid h.clientAuthKey hbl hp h.clientWrites, hp]
  cases hsi : e.client.stealthFrameSize with
  | none => exact ⟨_, rfl⟩
  | some n =>
    have hv := h.valid n hsi
    obtain ⟨block, hma, _⟩ := unmask_maskStealthHandshakeBlock P e.clientEnv.block
      e.candidate.key (ascii "client-hello") [] hv (hb.fits (h.user_profile.trans hsi) hv)
    exact ⟨block, hma⟩

theorem Built.authenticated (short limit shortPadding : String)
    (hca : padding.length ≤ cap) (hm : cap ≤ maxHandshakePadding) (tail : List UInt8) :
    e.candidate.authenticated (parseClientHello short limit shortPadding (.ok cap)
        (e.hello.wire ++ tail) e.candidate.key)
      (packetDigest P e.client.stealthFrameSize e.packet) =
      some (e.parsed puzzleNonce padding, e.index) := by
  have hl : padding.length < 2 ^ 16 := by
    simp only [maxHandshakePadding] at hm
    omega
  have hau : (parsedHello e.hello.tag e.candidate.key (helloFixed e.sentAt e.clientEnv.nonce
      (P.x25519Public e.clientEnv.secret) e.client.handshakeCapabilities puzzleNonce
      padding.length) padding (.zero 32)).authenticates P = true := by
    rw [authenticates_iff, hb.tag, hb.body, clientHelloBody_eq]
    rfl
  rw [hb.wire, hb.body, parseClientHello_wire _ _ _ _ _ _ _ _ _ _ _ hca hl]
  simp only [Candidate.authenticated, hau]
  rfl

/-- **The server reads the client's hello** and knows whose it is. -/
theorem Compatible.read (h : e.Compatible) {first : HandshakeUser P}
    (hf : e.users.head? = some first) {rest : List UInt8} (hi : s.input = e.packet ++ rest) :
    (readClientHelloForUsers first e.users e.serverEnv).run s =
      .ok (e.parsed puzzleNonce padding, e.index) { s with input := rest } := by
  have hpr := h.first_profile
  rw [hf, Option.map_some, Option.some.injEq] at hpr
  have hp := h.helloPacket hb
  have ht := h.tried
  have ho := h.others
  have hpl := hb.padding_le
  have hca := e.user.config.paddingCapIn_le e.client.stealthFrameSize
  unfold readClientHelloForUsers
  cases hsi : e.client.stealthFrameSize with
  | none =>
    rw [hsi] at hpr hp ht ho hca
    rw [hpr]
    have hma := Except.ok.inj hp
    rw [HandshakeConfig.effectivePaddingCap, h.user_profile.trans hsi] at hpl
    rw [← hma] at hi ho
    refine readPlainClientHelloForUsers_envelope h.parsedAt ht h.candidate_mem hi ho ?_
      ?_ ?_
    · rw [hb.length_wire]
      exact Nat.le_add_right _ _
    · rw [hb.length_wire]
      exact Nat.add_le_add_left hpl _
    · simp only [Candidate.openPlain, xorVariableHandshakePayload, xorHmacStreamWithDomain_twice,
        hma, ← hsi]
      exact hb.authenticated _ _ _ hpl hca _
  | some n =>
    have hv := h.valid n hsi
    have hu := h.user_profile.trans hsi
    rw [hsi] at hpr hp ht ho
    rw [hpr]
    obtain ⟨block, hma, hl, hun⟩ := unmask_maskStealthHandshakeBlock P e.clientEnv.block
      e.candidate.key (ascii "client-hello") [] hv (hb.fits hu hv)
    obtain rfl : block = e.packet := Except.ok.inj (hma.symm.trans hp)
    refine readStealthClientHelloBy_block hv h.parsedAt ht h.candidate_mem hl hi ho ?_
    rw [HandshakeConfig.effectivePaddingCap, h.user_profile] at hpl
    simp only [Candidate.openStealth, hun, parseStealthClientHello,
      e.candidate.user.config.stealthClientPaddingCap_eq hv, ← hsi]
    exact hb.authenticated _ _ _ hpl hca _

/-- **The server's checks pass**; the identifiers are stored. -/
theorem Compatible.verify (h : e.Compatible) (hs : s.replay = e.replay) :
    ∃ replay, (verifyClientHello e.user.config (e.parsed puzzleNonce padding)
      e.serverEnv.verifyClock).run s = .ok () { s with replay } := by
  have hta := hb.tag
  have hpu := Puzzle.verify_mono h.difficulty hb.puzzle
  rw [hb.body] at hta hpu
  have hch : checkClientHello e.user.config (e.parsed puzzleNonce padding) = .ok () :=
    checkClientHello_parsedHello h.muxMode hpu hta
  have hst : (e.parsed puzzleNonce padding).timestamp = e.sentAt := helloFixed_timestamp ..
  have hsk := h.skew
  have hlt := e.user.config.clockSkewSecs.toInt_lt
  obtain ⟨d, hd, hvl⟩ := timestampDistance_exact P.build
    (show (e.verifiedAt.toInt - e.sentAt.toInt).natAbs < 2 ^ 63 by omega)
  have hts : checkTimestamp e.user.config e.verifiedAt e.sentAt = .ok () := by
    rw [checkTimestamp_iff hd, hvl]
    exact hsk
  rw [run_verifyClientHello hch h.verifiedAt, hst, hts, parsed_publicKey]
  exact checkReplay_ok fun cache hcc => h.fresh cache (hs.symm.trans hcc)

/-- **The reply is sent and read**, and the two ends hold mirrored keys. -/
theorem Compatible.reply (h : e.Compatible) :
    ∃ packet keys clientKeys,
      (∀ s, (sendServerHelloAndDeriveKeys e.user.config (e.parsed puzzleNonce padding)
        e.serverEnv).run s = .ok keys { s with output := s.output ++ packet }) ∧
      (∀ (s : HandshakeIo) rest, s.input = packet ++ rest →
        (receiveReply e.client e.clientEnv.secret e.candidate.key e.hello).run s =
          .ok clientKeys { s with input := rest }) ∧
      SessionKeys.Mirrored clientKeys keys := by
  obtain ⟨hlt, htc, hmu⟩ :=
    handshakeCapabilities_spec (show e.client.muxMode = e.client.muxMode from rfl)
  have hcp : (e.parsed puzzleNonce padding).capabilities = e.client.handshakeCapabilities :=
    helloFixed_capabilities _ _ _ _ _ _ hlt
  have hno : (e.parsed puzzleNonce padding).nonce = e.hello.nonce.val := by
    rw [hb.nonce]
    exact helloFixed_nonce ..
  have hrp := serverReply_ok h.muxMode hcp e.serverEnv.secret
  rw [hb.parsed_body] at hrp
  obtain ⟨packet, hse, hrc⟩ := sendServerHelloAndDeriveKeys_reply e.hello h.user_profile
    h.valid hrp rfl h.serverWrites
  have hfn := finishClientHandshake_ok e.client e.candidate.key e.clientEnv.secret
    (P.x25519Public e.serverEnv.secret) e.hello.body e.hello.nonce hlt htc hmu
  refine ⟨packet, _, deriveKeys P e.client.psk (P.x25519 e.clientEnv.secret (P.x25519Public
    e.serverEnv.secret)) e.hello.nonce.val .client, hse, fun s rest hi => ?_, ?_⟩
  · have hru := hrc s rest e.clientEnv.secret hi
    rw [parsed_authKey, hfn] at hru
    exact hru
  · rw [h.psk, parsed_publicKey, hno, ← h.dh]
    exact mirrored_deriveKeys ..

/-- **The server verifies the client**: it recovers the hello and names the
user. -/
theorem Compatible.authenticate (h : e.Compatible) (more : List UInt8) :
    ∃ first replay, e.users.head? = some first ∧
      (readClientHelloForUsers first e.users e.serverEnv).run (e.arrival more) =
        .ok (e.parsed puzzleNonce padding, e.index)
          { input := more, output := [], replay := e.replay } ∧
      (verifyClientHello e.user.config (e.parsed puzzleNonce padding)
          e.serverEnv.verifyClock).run { input := more, output := [], replay := e.replay } =
        .ok () { input := more, output := [], replay } ∧
      (authenticateClient e.users e.serverEnv).run (e.arrival more) =
        .ok (e.parsed puzzleNonce padding, e.user) { input := more, output := [], replay } := by
  obtain ⟨first, hf, _⟩ := Option.map_eq_some_iff.mp h.first_profile
  have hr : (readClientHelloForUsers first e.users e.serverEnv).run (e.arrival more) =
        .ok (e.parsed puzzleNonce padding, e.index)
          { input := more, output := [], replay := e.replay } := h.read hb hf rfl
  obtain ⟨replay, hve⟩ : ∃ replay, (verifyClientHello e.user.config (e.parsed puzzleNonce padding)
        e.serverEnv.verifyClock).run { input := more, output := [], replay := e.replay } =
          .ok () { input := more, output := [], replay } := h.verify hb rfl
  refine ⟨first, replay, hf, hr, hve, ?_⟩
  simp only [authenticateClient, hf, run_bind, hr, h.users_at, hve, run_pure]

/-- **The server accepts** and names the user; it has written the reply. -/
theorem Compatible.accept (h : e.Compatible) {keys : SessionKeys} {reply : List UInt8}
    (hse : ∀ s, (sendServerHelloAndDeriveKeys e.user.config (e.parsed puzzleNonce padding)
      e.serverEnv).run s = .ok keys { s with output := s.output ++ reply }) (more : List UInt8) :
    ∃ first replay, e.users.head? = some first ∧
      (readClientHelloForUsers first e.users e.serverEnv).run (e.arrival more) =
        .ok (e.parsed puzzleNonce padding, e.index)
          { input := more, output := [], replay := e.replay } ∧
      (acceptHandshakeUsersInner e.users e.serverEnv).run (e.arrival more) =
        .ok { keys, user := e.user.name } { input := more, output := reply, replay } ∧
      ∀ cfg, e.users = [.default cfg] →
        (acceptHandshakeInner cfg e.serverEnv).run (e.arrival more) =
        .ok keys { input := more, output := reply, replay } := by
  obtain ⟨first, replay, hf, hr, hve, hau⟩ := h.authenticate hb more
  refine ⟨first, replay, hf, hr, ?_, fun cfg hur => ?_⟩
  · simp only [acceptHandshakeUsersInner, run_bind, hau, hse, run_pure, nil_append]
  · -- the one user of the list is the server's own configuration
    have hat := h.users_at
    rw [hur] at hf hr hat
    obtain rfl := Option.some.inj hf
    have hu : e.user = .default cfg := by
      cases hid : e.index with
      | zero => rw [hid] at hat; exact (Option.some.inj hat).symm
      | succ => rw [hid] at hat; simp at hat
    rw [hu] at hve hse
    simp only [acceptHandshakeInner, run_bind, readClientHello_of_users hr]
    simp only [HandshakeUser.default] at hve hse
    simp [hve, hse]

end Built

/-- **Both ends return**, each having read what the other wrote, and their keys
mirror each other. -/
theorem Compatible.agree (h : e.Compatible) (more moreBack : List UInt8) :
    ∃ first hello session clientKeys reply replay,
      e.users.head? = some first ∧
      (readClientHelloForUsers first e.users e.serverEnv).run (e.arrival more) =
        .ok (hello, e.index) { input := more, output := [], replay := e.replay } ∧
      hello.tag = e.hello.tag ∧ hello.body = e.hello.body ∧
      (acceptHandshakeUsersInner e.users e.serverEnv).run (e.arrival more) =
        .ok session { input := more, output := reply, replay } ∧
      session.user = e.user.name ∧
      (∀ cfg, e.users = [.default cfg] →
        (acceptHandshakeInner cfg e.serverEnv).run (e.arrival more) =
        .ok session.keys { input := more, output := reply, replay }) ∧
      (connectHandshake e.client e.clientEnv).run
          { input := reply ++ moreBack, output := [], replay := none } =
        .ok clientKeys { input := moreBack, output := e.packet, replay := none } ∧
      SessionKeys.Mirrored clientKeys session.keys := by
  obtain ⟨puzzleNonce, padding, hb⟩ := h.exists_built
  obtain ⟨reply, keys, clientKeys, hse, hrc, hmi⟩ := h.reply hb
  obtain ⟨first, replay, hf, hr, ha, hone⟩ := h.accept hb hse more
  refine ⟨first, e.parsed puzzleNonce padding, { keys, user := e.user.name }, clientKeys, reply,
    replay, hf, hr, rfl, hb.parsed_body, ha, rfl, hone, ?_, hmi⟩
  have hbl := h.built
  rw [← h.key] at hbl
  rw [run_connectHandshake h.valid h.clientAuthKey hbl (h.helloPacket hb) h.clientWrites,
    hrc _ moreBack rfl, nil_append]

end Run

end Encounter

/-- **Handshake agreement**: between a compatible client and server the server
recovers the client's tag and body, both return, and the session keys mirror
each other, also after any number of matched updates in both directions.  Each
end reads exactly what the other has written; what follows in the streams is
left. -/
theorem handshake_agreement {e : Encounter P} (h : e.Compatible) (more moreBack : List UInt8) :
    ∃ first hello session clientKeys reply replay,
      e.users.head? = some first ∧
      (readClientHelloForUsers first e.users e.serverEnv).run
          { input := e.packet ++ more, output := [], replay := e.replay } =
        .ok (hello, e.index) { input := more, output := [], replay := e.replay } ∧
      hello.tag = e.hello.tag ∧ hello.body = e.hello.body ∧
      (acceptHandshakeUsersInner e.users e.serverEnv).run
          { input := e.packet ++ more, output := [], replay := e.replay } =
        .ok session { input := more, output := reply, replay } ∧
      session.user = e.user.name ∧
      (∀ cfg, e.users = [.default cfg] → (acceptHandshakeInner cfg e.serverEnv).run
          { input := e.packet ++ more, output := [], replay := e.replay } =
        .ok session.keys { input := more, output := reply, replay }) ∧
      (connectHandshake e.client e.clientEnv).run
          { input := reply ++ moreBack, output := [], replay := none } =
        .ok clientKeys { input := moreBack, output := e.packet, replay := none } ∧
      ∀ n m, SessionKeys.Mirrored
        ((SessionKeys.afterUpdateRx P)^[m] ((SessionKeys.afterUpdateTx P)^[n] clientKeys))
        ((SessionKeys.afterUpdateTx P)^[m] ((SessionKeys.afterUpdateRx P)^[n] session.keys)) := by
  obtain ⟨first, hello, session, clientKeys, reply, replay, hf, hr, hta, hbo, ha,
    hu, hone, hco, hmi⟩ := h.agree more moreBack
  refine ⟨first, hello, session, clientKeys, reply, replay, hf, hr, hta, hbo, ha,
    hu, hone, hco, fun n m => ?_⟩
  have hfo := SessionKeys.mirrored_ratchet P hmi n
  exact (SessionKeys.mirrored_ratchet P hfo.symm m).symm

def sampleEncounter (P : Platform) : Encounter P :=
  let cfg : HandshakeConfig P := .new P (ascii "0123456789abcdef") 30 256 0
  let secret (first : UInt8) : Bytes 32 := ⟨first :: List.replicate 31 0, rfl⟩
  let clientEnv : ClientEnv :=
    { authClock := 80, clock := 80, secret := secret 8, nonce := .zero 24
      paddingDraw := 3, padding := fun _ => 7
      envelope := { nonce := .zero 24, extraDraw := 5, extra := fun _ => 0 }
      block := { nonce := .zero 24, fill := fun _ => 0 }, failsAfter := none }
  let body := clientHelloBody 80 (.zero 24) (P.x25519Public (secret 8))
    cfg.handshakeCapabilities 0 (fillBytes clientEnv.padding 3)
  let user : HandshakeUser P := { name := "alice", config := cfg }
  let tag := P.hmacSha256 (cfg.slotKey (.window 2)).val body
  { client := cfg, clientEnv, users := [user]
    serverEnv :=
      { parseClock := 100, verifyClock := 101, secret := secret 16
        envelope := { nonce := .zero 24, extraDraw := 0, extra := fun _ => 0 }
        block := { nonce := .zero 24, fill := fun _ => 0 }, failsAfter := none }
    replay := some (.new 300), index := 0, user, slot := .window 2
    hello := { tag, body, nonce := .zero 24, wire := tag.val ++ body }
    sentAt := 80, parsedAt := 100, verifiedAt := 101
    tried := [{ index := 0, user, slot := .window 3 },
      { index := 0, user, slot := .window 2 }] }

/-- Under the key of the other slot the length is out of range, and the two
secrets agree. -/
theorem compatible_reference : (sampleEncounter (.reference .release)).Compatible where
  users_at := rfl
  first_profile := rfl
  user_profile := rfl
  valid := fun n hn => by contradiction
  psk := rfl
  muxMode := rfl
  padding := Nat.le_refl _
  difficulty := Nat.le_refl _
  clientSlot := rfl
  parsedAt := rfl
  tried := rfl
  accepted := ⟨[.window 3, .window 2], rfl, mem_cons_of_mem _ (mem_singleton_self _)⟩
  others := by
    intro c hc hne
    rcases mem_cons.mp hc with rfl | hc
    · decide +kernel
    · rw [mem_singleton.mp hc] at hne
      exact absurd rfl hne
  built := rfl
  sentAt := rfl
  verifiedAt := rfl
  skew := by decide
  fresh := by
    intro cache hcc k _ hk
    obtain rfl := Option.some.inj hcc
    simp [ReplayCache.new, ReplayCache.prune, ReplayCache.pruneLoop] at hk
  dh := by decide +kernel
  clientWrites := rfl
  serverWrites := rfl

theorem handshake_agreement_sample :
    (sampleEncounter (.reference .release)).Compatible ∧
    ∃ session clientKeys reply replay,
      (acceptHandshakeUsersInner (sampleEncounter (.reference .release)).users
          (sampleEncounter (.reference .release)).serverEnv).run
          { input := (sampleEncounter (.reference .release)).packet, output := []
            replay := some (.new 300) } =
        .ok session { input := [], output := reply, replay } ∧
      session.user = "alice" ∧
      (connectHandshake (sampleEncounter (.reference .release)).client
          (sampleEncounter (.reference .release)).clientEnv).run
          { input := reply, output := [], replay := none } =
        .ok clientKeys
          { input := [], output := (sampleEncounter (.reference .release)).packet
            replay := none } ∧
      SessionKeys.Mirrored clientKeys session.keys := by
  obtain ⟨_, _, session, clientKeys, reply, replay, _, _, _, _, ha, hu, _, hco,
    hmi⟩ := handshake_agreement compatible_reference [] []
  rw [append_nil] at ha hco
  exact ⟨compatible_reference, session, clientKeys, reply, replay, ha, hu, hco, hmi 0 0⟩

end Espejismo
