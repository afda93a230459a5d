import Espejismo.Crypto.Envelope
import Espejismo.Crypto.Keys
import Espejismo.Protocol.Puzzle

/-!
# Crypto.Handshake

The authenticated key exchange (`crypto/mod.rs`).  The client sends a hello: a tag
and a body (timestamp, nonce, ephemeral public key, version, capabilities, puzzle
nonce, padding), authenticated under a key of its PSK and the time window, masked
in an envelope.  The server tries the keys of every user and accepted window,
verifies the hello it finds, and replies with its ephemeral public key; both ends
derive the session keys.
-/

namespace Espejismo

open Binary

def maxHandshakePadding : Nat := 1024
def protocolVersion : Nat := 1

def supportsProtocolVersion (version : Nat) : Bool := version == protocolVersion

def capTcpConnect : Nat := 1 <<< 0
def capUdpAssociate : Nat := 1 <<< 1
def capMuxYamux : Nat := 1 <<< 8
def capMuxNative : Nat := 1 <<< 9

/-! ## Configuration -/

inductive MuxMode where
  | yamux
  | native
  deriving DecidableEq

def MuxMode.debug : MuxMode → String
  | .yamux => "Yamux"
  | .native => "Native"

def MuxMode.capability : MuxMode → Nat
  | .yamux => capMuxYamux
  | .native => capMuxNative

def deriveAuthKey (P : Platform) (psk : List UInt8) : Bytes 32 :=
  P.hkdfSha256 none psk (ascii "espejismo v1 handshake-auth-key") 32

def deriveWindowAuthKey (P : Platform) (psk : List UInt8) (slot : Nat) : Bytes 32 :=
  P.hkdfSha256 none psk (ascii "espejismo v1 handshake-window-auth-key:" ++ encodeBE 8 slot) 32

structure HandshakeWindow where
  enabled : Bool
  stepSecs : Nat
  previousWindows : Nat
  futureWindows : Nat
  deriving DecidableEq

def HandshakeWindow.default : HandshakeWindow :=
  { enabled := true, stepSecs := 30, previousWindows := 1, futureWindows := 0 }

/-- A handshake configuration.  Every one is built by `new`, so the static
authentication key is the one of its PSK. -/
structure HandshakeConfig (P : Platform) where
  psk : List UInt8
  authKey : Bytes 32
  authKey_eq : authKey = deriveAuthKey P psk
  window : HandshakeWindow
  clockSkewSecs : Int64
  maxHandshakePadding : Nat
  puzzleDifficultyBits : Nat
  stealthFrameSize : Option Nat
  muxMode : MuxMode

structure HandshakeUser (P : Platform) where
  name : String
  config : HandshakeConfig P

/-- The clock in whole seconds since the epoch; before it there is no reading. -/
def unixNow (clock : Int) : Except Error Int64 :=
  if clock < 0 then .error (.msg "system clock is before UNIX epoch") else .ok (.ofInt clock)

def windowSlot (now : Int64) (stepSecs : Nat) : Except Error Nat :=
  if stepSecs = 0 then .error (.msg "handshake window step must be greater than 0")
  else if now < 0 then .error (.msg "system time is before Unix epoch")
  else .ok (now.toInt.toNat / stepSecs)

/-- What an authentication key is derived for: the PSK alone, or a time
window. -/
inductive Slot where
  | static
  | window (slot : Nat)
  deriving DecidableEq

namespace HandshakeWindow

/-- The slots of `accepted_auth_keys`: the current one, the previous ones that
exist, the future ones. -/
def acceptedSlots (w : HandshakeWindow) (now : Int64) : Except Error (List Slot) :=
  if !w.enabled then .ok [.static]
  else do
    let current ← windowSlot now w.stepSecs
    let previous := (List.range' 1 w.previousWindows).filterMap fun offset =>
      if offset ≤ current then some (Slot.window (current - offset)) else none
    let future ← (List.range' 1 w.futureWindows).mapM fun offset =>
      if current + offset < 2 ^ 64 then .ok (Slot.window (current + offset))
      else .error (.msg "handshake window slot overflow")
    return .window current :: (previous ++ future)

/-- The slot of `client_auth_key`; without windows the clock is not read. -/
def clientSlot (w : HandshakeWindow) (clock : Int) : Except Error Slot :=
  if !w.enabled then .ok .static
  else do
    let slot ← windowSlot (← unixNow clock) w.stepSecs
    return .window slot

end HandshakeWindow

namespace HandshakeConfig

variable {P : Platform}

def new (P : Platform) (psk : List UInt8) (clockSkewSecs : Int64)
    (maxHandshakePadding puzzleDifficultyBits : Nat) : HandshakeConfig P :=
  { psk, authKey := deriveAuthKey P psk, authKey_eq := rfl, window := .default, clockSkewSecs
    maxHandshakePadding, puzzleDifficultyBits, stealthFrameSize := none, muxMode := .yamux }

def slotKey (cfg : HandshakeConfig P) : Slot → Bytes 32
  | .static => cfg.authKey
  | .window slot => deriveWindowAuthKey P cfg.psk slot

def clientAuthKey (cfg : HandshakeConfig P) (clock : Int) : Except Error (Bytes 32) :=
  (cfg.window.clientSlot clock).map cfg.slotKey

def plainPaddingCap (cfg : HandshakeConfig P) : Nat :=
  min cfg.maxHandshakePadding Espejismo.maxHandshakePadding

def stealthClientPaddingCap (cfg : HandshakeConfig P) (frameSize : Nat) : Except Error Nat :=
  match validateStealthHandshakeFrame frameSize with
  | .error e => .error e
  | .ok () =>
    let head := stealthHandshakeNonceLen + clientHelloTagLen + clientHelloFixedBodyLen
    if frameSize < head then
      .error (.msg "shared.stealth.frame_size is too small for client handshake")
    else .ok (min cfg.plainPaddingCap (frameSize - head))

def handshakeCapabilities (cfg : HandshakeConfig P) : Nat :=
  capTcpConnect ||| capUdpAssociate ||| cfg.muxMode.capability

def ensureMuxCapability (cfg : HandshakeConfig P) (peerCapabilities : Nat) (peerLabel : String) :
    Except Error Unit :=
  if peerCapabilities &&& cfg.muxMode.capability = 0 then
    let mode := cfg.muxMode.debug
    .error (.msg s!"{peerLabel} does not support configured mux mode {mode}; check shared.mux.mode on both endpoints")
  else .ok ()

def negotiatedCapabilities (cfg : HandshakeConfig P) (peerCapabilities : Nat) : Except Error Nat :=
  match cfg.ensureMuxCapability peerCapabilities "peer" with
  | .error e => .error e
  | .ok () => .ok (cfg.handshakeCapabilities &&& peerCapabilities)

end HandshakeConfig

/-! ## The client hello -/

def clientHelloBody (now : Int64) (nonce : Bytes 24) (publicKey : Bytes 32)
    (capabilities puzzleNonce : Nat) (padding : List UInt8) : List UInt8 :=
  i64ToBE now ++ (nonce.val ++ (publicKey.val ++ (encodeBE 2 protocolVersion ++
    (encodeBE 8 capabilities ++ (encodeBE 8 puzzleNonce ++
      (encodeBE 2 padding.length ++ padding))))))

structure ClientEnv where
  authClock : Int
  clock : Int
  secret : Bytes 32
  nonce : Bytes 24
  paddingDraw : Nat
  padding : Nat → UInt8
  envelope : EnvelopeEnv
  block : BlockEnv
  failsAfter : Option Nat

structure ClientHelloMaterial where
  tag : Bytes 32
  body : List UInt8
  nonce : Bytes 24
  wire : List UInt8

def buildClientHello {P : Platform} (cfg : HandshakeConfig P) (env : ClientEnv) (maxPadding : Nat)
    (authKey : Bytes 32) : Except Error ClientHelloMaterial := do
  let now ← unixNow env.clock
  let paddingLen := randomPaddingLen (min maxPadding maxHandshakePadding) env.paddingDraw
  let body ← Puzzle.solve P (clientHelloBody now env.nonce (P.x25519Public env.secret)
    cfg.handshakeCapabilities 0 (fillBytes env.padding paddingLen)) cfg.puzzleDifficultyBits
  let tag := P.hmacSha256 authKey.val body
  return { tag, body, nonce := env.nonce, wire := tag.val ++ body }

structure ParsedClientHello where
  tag : Bytes 32
  authKey : Bytes 32
  fixedBody : Bytes 84
  body : List UInt8
  firstPacketDigest : Bytes 32

namespace ParsedClientHello

def timestamp (hello : ParsedClientHello) : Int64 := i64FromBE (slice 0 8 hello.fixedBody.val)
def nonce (hello : ParsedClientHello) : List UInt8 := slice 8 32 hello.fixedBody.val
def publicKey (hello : ParsedClientHello) : Bytes 32 := hello.fixedBody.slice 32 64 (by decide)
def version (hello : ParsedClientHello) : Nat := decodeBE (slice 64 66 hello.fixedBody.val)
def capabilities (hello : ParsedClientHello) : Nat := decodeBE (slice 66 74 hello.fixedBody.val)
def paddingLen (hello : ParsedClientHello) : Nat := decodeBE (slice 82 84 hello.fixedBody.val)

def withFirstPacketDigest (hello : ParsedClientHello) (digest : Bytes 32) : ParsedClientHello :=
  { hello with firstPacketDigest := digest }

def authenticates (P : Platform) (hello : ParsedClientHello) : Bool :=
  P.hmacSha256 hello.authKey.val hello.body == hello.tag

end ParsedClientHello

def plainClientHelloMinLen : Nat := clientHelloTagLen + clientHelloFixedBodyLen

def plainClientHelloMaxLen (maxPadding : Nat) : Nat :=
  plainClientHelloMinLen + min maxPadding maxHandshakePadding + variableHandshakeExtraPaddingMax

/-- The common part of `parse_plain_client_hello` and
`parse_stealth_client_hello`: they differ in their texts and in the padding
they allow. -/
def parseClientHello (short limit shortPadding : String) (paddingCap : Except Error Nat)
    (plain : List UInt8) (authKey : Bytes 32) : Except Error ParsedClientHello :=
  match firstBytes clientHelloTagLen plain,
      firstBytes clientHelloFixedBodyLen (plain.drop clientHelloTagLen) with
  | some tag, some fixedBody =>
    match paddingCap with
    | .error e => .error e
    | .ok maxPadding =>
      let paddingLen := decodeBE (slice 82 84 fixedBody.val)
      if maxPadding < paddingLen then .error (.msg limit)
      else if plain.length < plainClientHelloMinLen + paddingLen then
        .error (.msg shortPadding)
      else
        .ok { tag, authKey, fixedBody
              body := fixedBody.val ++
                slice plainClientHelloMinLen (plainClientHelloMinLen + paddingLen) plain
              firstPacketDigest := .zero 32 }
  | _, _ => .error (.msg short)

def parsePlainClientHello {P : Platform} (cfg : HandshakeConfig P) (plain : List UInt8)
    (authKey : Bytes 32) : Except Error ParsedClientHello :=
  parseClientHello "short client handshake" "handshake padding exceeds configured user limit"
    "short client handshake padding" (.ok cfg.plainPaddingCap) plain authKey

def parseStealthClientHello {P : Platform} (cfg : HandshakeConfig P) (plain : List UInt8)
    (frameSize : Nat) (authKey : Bytes 32) : Except Error ParsedClientHello :=
  parseClientHello "short stealth client handshake"
    "handshake padding exceeds configured stealth limit" "short stealth client handshake padding"
    (cfg.stealthClientPaddingCap frameSize) plain authKey

def firstPacketDigest (P : Platform) (chunks : List (List UInt8)) : Bytes 32 :=
  P.sha256 (ascii "espejismo v1 first-packet replay digest" ++
    chunks.flatMap fun chunk => encodeBE 8 chunk.length ++ chunk)

/-! ## Finding the client -/

structure ServerEnv where
  parseClock : Int
  verifyClock : Int
  secret : Bytes 32
  envelope : EnvelopeEnv
  block : BlockEnv
  failsAfter : Option Nat

/-- A user and one of the accepted slots of the user's window. -/
structure Candidate (P : Platform) where
  index : Nat
  user : HandshakeUser P
  slot : Slot

def Candidate.key {P : Platform} (c : Candidate P) : Bytes 32 := c.user.config.slotKey c.slot

/-- The candidates the two loops over users and accepted keys go through; users
that do not pass `keep` are skipped. -/
def candidatesFrom {P : Platform} (keep : HandshakeUser P → Bool) (now : Int64) :
    Nat → List (HandshakeUser P) → Except Error (List (Candidate P))
  | _, [] => .ok []
  | index, user :: users =>
    if keep user then do
      let slots ← user.config.window.acceptedSlots now
      let rest ← candidatesFrom keep now (index + 1) users
      return slots.map (fun slot => { index, user, slot }) ++ rest
    else candidatesFrom keep now (index + 1) users

def Candidate.payloadLen {P : Platform} (c : Candidate P) (nonce maskedLen : List UInt8) : Nat :=
  unmaskVariableHandshakeLen P c.key (ascii "plain-client") [] nonce maskedLen

def Candidate.inRange {P : Platform} (c : Candidate P) (nonce maskedLen : List UInt8) : Bool :=
  decide (plainClientHelloMinLen ≤ c.payloadLen nonce maskedLen) &&
    decide (c.payloadLen nonce maskedLen ≤ plainClientHelloMaxLen c.user.config.maxHandshakePadding)

def uniqueCandidatePayloadLen : List Nat → Option Nat
  | [] => none
  | len :: lens => if lens.all (· == len) then some len else none

def exactlyOne (noneText manyText : String) : List α → Except Error α
  | [a] => .ok a
  | [] => .error (.msg noneText)
  | _ => .error (.msg manyText)

/-- What the two loops keep of a candidate: its hello, if it parsed and
authenticates. -/
def Candidate.authenticated {P : Platform} (c : Candidate P)
    (parsed : Except Error ParsedClientHello) (digest : Bytes 32) :
    Option (ParsedClientHello × Nat) :=
  match parsed with
  | .error _ => none
  | .ok parsed =>
    if parsed.authenticates P then some (parsed.withFirstPacketDigest digest, c.index) else none

def Candidate.openPlain {P : Platform} (c : Candidate P) (nonce payload : List UInt8)
    (digest : Bytes 32) : Option (ParsedClientHello × Nat) :=
  let plain := xorVariableHandshakePayload P c.key (ascii "plain-client") [] nonce payload
  c.authenticated (parsePlainClientHello c.user.config plain c.key) digest

def readPlainClientHelloForUsers {P : Platform} (users : List (HandshakeUser P))
    (env : ServerEnv) : Handshaking (ParsedClientHello × Nat) := do
  let nonce ← readExact "client handshake nonce failed" variableHandshakeNonceLen
  let maskedLen ← readExact "client handshake length failed" variableHandshakeLenLen
  let now ← liftExcept (unixNow env.parseClock)
  let tried ← liftExcept (candidatesFrom (fun _ => true) now 0 users)
  let candidates := tried.filter (Candidate.inRange · nonce maskedLen)
  match uniqueCandidatePayloadLen (candidates.map (Candidate.payloadLen · nonce maskedLen)) with
  | none =>
    if candidates.isEmpty then
      throw (.msg "client handshake did not match any configured user")
    else
      throw (.msg "client handshake length matched multiple user/window candidates")
  | some payloadLen =>
    let payload ← readExact "client handshake payload failed" payloadLen
    let digest := firstPacketDigest P [nonce, maskedLen, payload]
    liftExcept (exactlyOne "client handshake did not authenticate any configured user/window"
      "client handshake authenticated multiple user/window candidates"
      (candidates.filterMap (Candidate.openPlain · nonce payload digest)))

def Candidate.openStealth {P : Platform} (c : Candidate P) (frameSize : Nat) (block : List UInt8)
    (digest : Bytes 32) : Option (ParsedClientHello × Nat) :=
  match unmaskStealthHandshakeBlock P c.key (ascii "client-hello") [] block with
  | .error _ => none
  | .ok plain =>
    c.authenticated (parseStealthClientHello c.user.config plain frameSize c.key) digest

/-- The common part of `read_stealth_client_hello` and
`read_stealth_client_hello_for_users`: they differ in their texts. -/
def readStealthClientHelloBy {P : Platform} (noneText manyText : String)
    (users : List (HandshakeUser P)) (frameSize : Nat) (env : ServerEnv) :
    Handshaking (ParsedClientHello × Nat) := do
  liftExcept (validateStealthHandshakeFrame frameSize)
  let block ← readExact "stealth client handshake failed" frameSize
  let digest := firstPacketDigest P [block]
  let now ← liftExcept (unixNow env.parseClock)
  let tried ← liftExcept (candidatesFrom
    (fun user => decide (user.config.stealthFrameSize = some frameSize)) now 0 users)
  liftExcept (exactlyOne noneText manyText
    (tried.filterMap (Candidate.openStealth · frameSize block digest)))

def readStealthClientHelloForUsers {P : Platform} (users : List (HandshakeUser P))
    (frameSize : Nat) (env : ServerEnv) : Handshaking (ParsedClientHello × Nat) :=
  readStealthClientHelloBy "stealth client handshake did not match any configured user"
    "stealth client handshake matched multiple users" users frameSize env

def HandshakeUser.default {P : Platform} (cfg : HandshakeConfig P) : HandshakeUser P :=
  { name := "default", config := cfg }

def readPlainClientHello {P : Platform} (cfg : HandshakeConfig P) (env : ServerEnv) :
    Handshaking ParsedClientHello :=
  Prod.fst <$> readPlainClientHelloForUsers [.default cfg] env

def readStealthClientHello {P : Platform} (cfg : HandshakeConfig P) (frameSize : Nat)
    (env : ServerEnv) : Handshaking ParsedClientHello :=
  Prod.fst <$> readStealthClientHelloBy
    "stealth client handshake did not authenticate configured user"
    "stealth client handshake authenticated multiple window candidates" [.default cfg] frameSize env

/-! ## Verifying the hello -/

def timestampDistance (b : Build) (now timestamp : Int64) : Option Int64 :=
  (subI64 b now timestamp).bind (absI64 b)

def checkTimestamp {P : Platform} (cfg : HandshakeConfig P) (now timestamp : Int64) :
    Except Error Unit := do
  let distance ← orPanic (timestampDistance P.build now timestamp)
  if cfg.clockSkewSecs < distance then
    .error (.msg "handshake timestamp outside allowed window")

/-- `verify_client_hello` up to the clock. -/
def checkClientHello {P : Platform} (cfg : HandshakeConfig P) (hello : ParsedClientHello) :
    Except Error Unit := do
  let solved ← Puzzle.verify P hello.body cfg.puzzleDifficultyBits
  if !solved then .error (.msg "client puzzle verification failed")
  if P.hmacSha256 hello.authKey.val hello.body ≠ hello.tag then
    .error (.msg "client authentication failed")
  if !supportsProtocolVersion hello.version then
    let version := hello.version
    .error (.msg s!"unsupported client protocol version {version}")
  if hello.capabilities &&& capTcpConnect = 0 then
    .error (.msg "client does not support TCP CONNECT")
  cfg.ensureMuxCapability hello.capabilities "client"

def checkReplay (now : Int64) (digest publicKey : Bytes 32) : Handshaking Unit := do
  let s ← get
  match s.replay with
  | none => return
  | some cache =>
    match (ReplayCache.checkAndInsertHandshake now digest publicKey).run cache with
    | .ok _ cache => set { s with replay := some cache }
    | .error e cache =>
      set { s with replay := some cache }
      throw e

def verifyClientHello {P : Platform} (cfg : HandshakeConfig P) (hello : ParsedClientHello)
    (clock : Int) : Handshaking Unit := do
  liftExcept (checkClientHello cfg hello)
  let now ← liftExcept (unixNow clock)
  liftExcept (checkTimestamp cfg now hello.timestamp)
  checkReplay now hello.firstPacketDigest hello.publicKey

/-! ## The reply -/

def serverHmac (P : Platform) (key : Bytes 32) (clientHello : List UInt8) (serverPublic : Bytes 32)
    (version capabilities : Nat) : Bytes 32 :=
  P.hmacSha256 key.val (ascii "server-v1:" ++ clientHello ++ serverPublic.val ++
    encodeBE 2 version ++ encodeBE 8 capabilities)

def serverHello (publicKey : Bytes 32) (version capabilities : Nat) (tag : Bytes 32) : Bytes 74 :=
  ⟨publicKey.val ++ (encodeBE 2 version ++ (encodeBE 8 capabilities ++ tag.val)), by simp⟩

def serverReply {P : Platform} (cfg : HandshakeConfig P) (hello : ParsedClientHello)
    (secret : Bytes 32) : Except Error (Bytes 74) := do
  let capabilities ← cfg.negotiatedCapabilities hello.capabilities
  let publicKey := P.x25519Public secret
  return serverHello publicKey protocolVersion capabilities
    (serverHmac P hello.authKey hello.body publicKey protocolVersion capabilities)

def sendServerHelloAndDeriveKeys {P : Platform} (cfg : HandshakeConfig P)
    (hello : ParsedClientHello) (env : ServerEnv) : Handshaking SessionKeys := do
  let reply ← liftExcept (serverReply cfg hello env.secret)
  match cfg.stealthFrameSize with
  | some frameSize =>
    let block ← liftExcept (maskStealthHandshakeBlock P env.block hello.authKey
      (ascii "server-hello") hello.tag.val reply.val frameSize)
    writeAll env.failsAfter block
  | none =>
    writeAll env.failsAfter (maskVariableHandshakeEnvelope P env.envelope hello.authKey
      (ascii "plain-server") hello.tag.val reply.val variableHandshakeExtraPaddingMax)
  return deriveKeys P cfg.psk (P.x25519 env.secret hello.publicKey) hello.nonce .server

/-! ## The two ends -/

/-- Both accepting functions read a stealth block of a configured size, or a
plain envelope. -/
def readClientHello {P : Platform} (cfg : HandshakeConfig P) (env : ServerEnv) :
    Handshaking ParsedClientHello :=
  match cfg.stealthFrameSize with
  | some frameSize => readStealthClientHello cfg frameSize env
  | none => readPlainClientHello cfg env

def readClientHelloForUsers {P : Platform} (first : HandshakeUser P)
    (users : List (HandshakeUser P)) (env : ServerEnv) : Handshaking (ParsedClientHello × Nat) :=
  match first.config.stealthFrameSize with
  | some frameSize => readStealthClientHelloForUsers users frameSize env
  | none => readPlainClientHelloForUsers users env

def acceptHandshakeInner {P : Platform} (cfg : HandshakeConfig P) (env : ServerEnv) :
    Handshaking SessionKeys := do
  let hello ← readClientHello cfg env
  verifyClientHello cfg hello env.verifyClock
  sendServerHelloAndDeriveKeys cfg hello env

structure AuthenticatedSession where
  keys : SessionKeys
  user : String

/-- `accept_handshake_users_inner` up to the reply: which user the client is, and
the hello that was verified. -/
def authenticateClient {P : Platform} (users : List (HandshakeUser P)) (env : ServerEnv) :
    Handshaking (ParsedClientHello × HandshakeUser P) := do
  match users.head? with
  | none => throw (.msg "at least one handshake user is required")
  | some first =>
    let (hello, userIndex) ← readClientHelloForUsers first users env
    match users[userIndex]? with
    | none => throw (.msg "selected handshake user is out of range")
    | some user =>
      verifyClientHello user.config hello env.verifyClock
      return (hello, user)

def acceptHandshakeUsersInner {P : Platform} (users : List (HandshakeUser P)) (env : ServerEnv) :
    Handshaking AuthenticatedSession := do
  let (hello, user) ← authenticateClient users env
  let keys ← sendServerHelloAndDeriveKeys user.config hello env
  return { keys, user := user.name }

def finishClientHandshake {P : Platform} (cfg : HandshakeConfig P) (authKey secret : Bytes 32)
    (body : List UInt8) (nonce : Bytes 24) (reply : Bytes 74) : Except Error SessionKeys := do
  let serverPublic := reply.slice 0 32 (by decide)
  let serverVersion := decodeBE (slice 32 34 reply.val)
  let serverCapabilities := decodeBE (slice 34 42 reply.val)
  if !supportsProtocolVersion serverVersion then
    .error (.msg s!"unsupported server protocol version {serverVersion}")
  if serverCapabilities &&& capTcpConnect = 0 then
    .error (.msg "server does not support TCP CONNECT")
  cfg.ensureMuxCapability serverCapabilities "server"
  if (serverHmac P authKey body serverPublic serverVersion serverCapabilities).val ≠
      slice 42 74 reply.val then
    .error (.msg "server authentication failed")
  return deriveKeys P cfg.psk (P.x25519 secret serverPublic) nonce.val .client

/-- `connect_plain_handshake` after the hello is written. -/
def receivePlainReply {P : Platform} (cfg : HandshakeConfig P) (secret authKey : Bytes 32)
    (hello : ClientHelloMaterial) : Handshaking SessionKeys := do
  let replyPayload ← EStateM.adaptExcept (fun _ => .msg "server handshake failed")
    (readVariableHandshakeEnvelope P authKey (ascii "plain-server") hello.tag.val serverHelloLen
      (serverHelloLen + variableHandshakeExtraPaddingMax))
  match firstBytes 74 replyPayload with
  | none => throw (.msg "short server handshake reply")
  | some reply =>
    liftExcept (finishClientHandshake cfg authKey secret hello.body hello.nonce reply)

def connectPlainHandshake {P : Platform} (cfg : HandshakeConfig P) (env : ClientEnv) :
    Handshaking SessionKeys := do
  let authKey ← liftExcept (cfg.clientAuthKey env.authClock)
  let hello ← liftExcept (buildClientHello cfg env cfg.maxHandshakePadding authKey)
  writeAll env.failsAfter (maskVariableHandshakeEnvelope P env.envelope authKey
    (ascii "plain-client") [] hello.wire variableHandshakeExtraPaddingMax)
  receivePlainReply cfg env.secret authKey hello

/-- `connect_stealth_handshake` after the hello is written. -/
def receiveStealthReply {P : Platform} (cfg : HandshakeConfig P) (secret authKey : Bytes 32)
    (hello : ClientHelloMaterial) (frameSize : Nat) : Handshaking SessionKeys := do
  let replyBlock ← readExact "stealth server handshake failed" frameSize
  let replyPlain ← liftExcept (unmaskStealthHandshakeBlock P authKey (ascii "server-hello")
    hello.tag.val replyBlock)
  match firstBytes 74 replyPlain with
  | none => throw .panic
  | some reply =>
    liftExcept (finishClientHandshake cfg authKey secret hello.body hello.nonce reply)

def connectStealthHandshake {P : Platform} (cfg : HandshakeConfig P) (env : ClientEnv)
    (frameSize : Nat) : Handshaking SessionKeys := do
  liftExcept (validateStealthHandshakeFrame frameSize)
  let maxPadding ← liftExcept (cfg.stealthClientPaddingCap frameSize)
  let authKey ← liftExcept (cfg.clientAuthKey env.authClock)
  let hello ← liftExcept (buildClientHello cfg env maxPadding authKey)
  let block ← liftExcept (maskStealthHandshakeBlock P env.block authKey (ascii "client-hello") []
    hello.wire frameSize)
  writeAll env.failsAfter block
  receiveStealthReply cfg env.secret authKey hello frameSize

def connectHandshake {P : Platform} (cfg : HandshakeConfig P) (env : ClientEnv) :
    Handshaking SessionKeys :=
  match cfg.stealthFrameSize with
  | some frameSize => connectStealthHandshake cfg env frameSize
  | none => connectPlainHandshake cfg env

end Espejismo
