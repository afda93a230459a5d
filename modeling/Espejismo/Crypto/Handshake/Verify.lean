import Espejismo.Crypto.Handshake.Hello
import Espejismo.Protocol.Replay.Exact
import Espejismo.Reference.Platform

/-!
# Crypto.Handshake.Verify

`verify_client_hello`: the puzzle, the tag, the version and the capabilities
(`checkClientHello_iff`), then the clock, then the replay cache
(`run_checkReplay`).

The client chooses the timestamp, and the server computes
`(now - timestamp).abs()` on `i64`: the mathematical distance as long as the
difference fits the type (`timestampDistance_exact`).
-/

namespace Espejismo

open Binary

section Verify

variable {P : Platform} {cfg : HandshakeConfig P} {hello : ParsedClientHello}

/-! ## Puzzle, tag, version, capabilities -/

theorem ensureMuxCapability_iff (capabilities : Nat) (label : String) :
    cfg.ensureMuxCapability capabilities label = .ok () ↔
      capabilities &&& cfg.muxMode.capability ≠ 0 := by
  unfold HandshakeConfig.ensureMuxCapability
  split <;> simp [*]

theorem authenticates_iff :
    hello.authenticates P = true ↔ P.hmacSha256 hello.authKey.val hello.body = hello.tag :=
  beq_iff_eq

/-- **What a hello passes** before its timestamp is looked at. -/
theorem checkClientHello_iff :
    checkClientHello cfg hello = .ok () ↔
      Puzzle.verify P hello.body cfg.puzzleDifficultyBits = .ok true ∧
      hello.authenticates P = true ∧ hello.version = protocolVersion ∧
      hello.capabilities &&& capTcpConnect ≠ 0 ∧
      hello.capabilities &&& cfg.muxMode.capability ≠ 0 := by
  rw [← ensureMuxCapability_iff hello.capabilities "client", authenticates_iff]
  unfold checkClientHello
  cases Puzzle.verify P hello.body cfg.puzzleDifficultyBits with
  | error => simp [bind, Except.bind]
  | ok solved =>
    cases solved with
    | false => simp [bind, Except.bind]
    | true =>
      by_cases ht : P.hmacSha256 hello.authKey.val hello.body = hello.tag
      · by_cases hve : hello.version = protocolVersion
        · by_cases htc : hello.capabilities &&& capTcpConnect = 0
          · simp [bind, Except.bind, ht, hve, htc, supportsProtocolVersion]
          · simp [bind, Except.bind, ht, hve, htc, supportsProtocolVersion]
        · simp [bind, Except.bind, ht, hve, supportsProtocolVersion]
      · simp [bind, Except.bind, ht]

theorem handshakeCapabilities_spec {peer : HandshakeConfig P} (h : peer.muxMode = cfg.muxMode) :
    peer.handshakeCapabilities < 2 ^ 64 ∧ peer.handshakeCapabilities &&& capTcpConnect ≠ 0 ∧
      peer.handshakeCapabilities &&& cfg.muxMode.capability ≠ 0 := by
  unfold HandshakeConfig.handshakeCapabilities
  rw [h]
  cases cfg.muxMode <;> decide

variable {timestamp now : Int64} {publicKey digest : Bytes 32}

theorem checkClientHello_parsedHello {peer : HandshakeConfig P} (hmu : peer.muxMode = cfg.muxMode)
    (hpu : Puzzle.verify P (clientHelloBody timestamp nonce publicKey
      peer.handshakeCapabilities puzzleNonce padding) cfg.puzzleDifficultyBits = .ok true)
    (ht : tag = P.hmacSha256 authKey.val (clientHelloBody timestamp nonce publicKey
      peer.handshakeCapabilities puzzleNonce padding)) :
    checkClientHello cfg (parsedHello tag authKey (helloFixed timestamp nonce publicKey
      peer.handshakeCapabilities puzzleNonce padding.length) padding digest) = .ok () := by
  obtain ⟨hlt, htc, hcap⟩ := handshakeCapabilities_spec hmu
  rw [clientHelloBody_eq] at hpu ht
  have hca := helloFixed_capabilities timestamp nonce publicKey peer.handshakeCapabilities
    puzzleNonce padding.length hlt
  rw [checkClientHello_iff, authenticates_iff]
  refine ⟨hpu, ht.symm, helloFixed_version .., ?_, ?_⟩
  · rwa [parsedHello, ParsedClientHello.capabilities, hca]
  · rwa [parsedHello, ParsedClientHello.capabilities, hca]

/-! ## The clock -/

theorem timestampDistance_exact (b : Build) (h : (now.toInt - timestamp.toInt).natAbs < 2 ^ 63) :
    ∃ d, timestampDistance b now timestamp = some d ∧
      d.toInt = (now.toInt - timestamp.toInt).natAbs := by
  have hin : InI64 (now.toInt - timestamp.toInt) := ⟨by omega, by omega⟩
  have hdi := toInt_sub_of_inI64 hin
  have hsu : subI64 b now timestamp = some (now - timestamp) := by
    cases b with
    | debug => exact if_pos hin
    | release => rfl
  have hne : now - timestamp ≠ Int64.minValue := by
    intro hmi
    have hva : (now - timestamp).toInt = -2 ^ 63 := by rw [hmi]; rfl
    omega
  obtain ⟨d, hab, hd⟩ := absI64_of_ne_min b hne
  refine ⟨d, ?_, by rw [hd, hdi]⟩
  rw [timestampDistance, hsu, Option.bind_some, hab]

theorem checkTimestamp_iff (hd : timestampDistance P.build now timestamp = some d) :
    checkTimestamp cfg now timestamp = .ok () ↔ d.toInt ≤ cfg.clockSkewSecs.toInt := by
  have hle : ¬ cfg.clockSkewSecs < d ↔ d.toInt ≤ cfg.clockSkewSecs.toInt := by
    rw [Int64.lt_iff_toInt_lt]
    omega
  rw [← hle]
  unfold checkTimestamp
  by_cases hlt : cfg.clockSkewSecs < d <;>
    simp [hd, orPanic, bind, Except.bind, pure, Except.pure]

/-! ## The replay cache -/

def handshakeKeys (digest publicKey : Bytes 32) : List ReplayKey :=
  [.firstPacketDigest digest, .ephemeralPublicKey publicKey]

theorem run_checkReplay (now : Int64) (digest publicKey : Bytes 32) (s : HandshakeIo) :
    (checkReplay now digest publicKey).run s =
      match s.replay with
      | none => .ok () s
      | some cache =>
        match (ReplayCall.handshake now digest publicKey).exec.run cache with
        | .ok _ cache => .ok () { s with replay := some cache }
        | .error e cache => .error e { s with replay := some cache } := by
  simp only [checkReplay, EStateM.run_bind, EStateM.run_get]
  cases s.replay with
  | none => rfl
  | some cache =>
    dsimp only [ReplayCall.exec]
    cases (ReplayCache.checkAndInsertHandshake now digest publicKey).run cache <;> rfl

theorem checkReplay_eq_ok :
    (checkReplay now digest publicKey).run s = .ok () s' ↔
      match s.replay with
      | none => s' = s
      | some cache =>
        (∀ k ∈ handshakeKeys digest publicKey, k ∉ (cache.prune now).seen) ∧
        s' = { s with replay := some ((cache.prune now).store
          ((cache.prune now).insertionTime now) (handshakeKeys digest publicKey)) } := by
  rw [run_checkReplay]
  cases s.replay with
  | none => simp [eq_comm]
  | some cache =>
    dsimp only
    rw [ReplayCall.run_exec]
    by_cases hd : ReplayKey.firstPacketDigest digest ∈ (cache.prune now).seen <;>
      by_cases hk : ReplayKey.ephemeralPublicKey publicKey ∈ (cache.prune now).seen <;>
        simp [ReplayCall.keys, ReplayCall.now, handshakeKeys, hd, hk, eq_comm]

theorem checkReplay_ok (h : ∀ cache, s.replay = some cache →
      ∀ k ∈ handshakeKeys digest publicKey, k ∉ (cache.prune now).seen) :
    ∃ replay, (checkReplay now digest publicKey).run s = .ok () { s with replay } := by
  obtain ⟨input, output, replay⟩ := s
  cases replay with
  | none => exact ⟨none, rfl⟩
  | some cache =>
    refine ⟨some ((cache.prune now).store ((cache.prune now).insertionTime now)
      (handshakeKeys digest publicKey)), checkReplay_eq_ok.mpr ?_⟩
    exact ⟨h cache rfl, rfl⟩

/-! ## The whole check -/

theorem run_verifyClientHello (hc : checkClientHello cfg hello = .ok ())
    (hn : unixNow clock = .ok now) (s : HandshakeIo) :
    (verifyClientHello cfg hello clock).run s =
      match checkTimestamp cfg now hello.timestamp with
      | .ok () => (checkReplay now hello.firstPacketDigest hello.publicKey).run s
      | .error e => .error e s := by
  simp only [verifyClientHello, EStateM.run_bind, hc, hn, run_liftExcept_ok]
  cases checkTimestamp cfg now hello.timestamp with
  | ok | error => rfl

theorem unixNow_toInt (h : 0 ≤ now.toInt) : unixNow now.toInt = .ok now := by
  unfold unixNow
  rw [if_neg (by omega), Int64.ofInt_toInt]

/-- The timestamp step lets a hello through to the replay cache, whatever the
connection and the cache hold. -/
def TimestampPasses (cfg : HandshakeConfig P) (hello : ParsedClientHello) (now : Int64) : Prop :=
  ∀ s, (verifyClientHello cfg hello now.toInt).run s =
    (checkReplay now hello.firstPacketDigest hello.publicKey).run s

theorem timestampPasses_iff (hc : checkClientHello cfg hello = .ok ()) (hn : 0 ≤ now.toInt) :
    TimestampPasses cfg hello now ↔ checkTimestamp cfg now hello.timestamp = .ok () := by
  have hru := run_verifyClientHello hc (unixNow_toInt hn)
  cases hts : checkTimestamp cfg now hello.timestamp with
  | ok =>
    rw [hts] at hru
    exact ⟨fun _ => rfl, fun _ => hru⟩
  | error =>
    rw [hts] at hru
    refine ⟨fun hps => ?_, fun h => by contradiction⟩
    -- without a cache the step after the timestamp cannot fail
    have := (hru { input := [], output := [], replay := none }).symm.trans (hps _)
    contradiction

/-- **The skew check is exact iff the difference fits**: for a hello that passed
the checks before it, the timestamp step decides `|now - timestamp| ≤ skew` with
the mathematical distance exactly when `now - timestamp < 2 ^ 63`. -/
theorem clock_skew_exact_iff (hc : checkClientHello cfg hello = .ok ()) {now : Int64}
    (hn : 0 ≤ now.toInt) :
    ((TimestampPasses cfg hello now ↔
        ((now.toInt - hello.timestamp.toInt).natAbs : Int) ≤ cfg.clockSkewSecs.toInt) ∧
      ∃ d, timestampDistance P.build now hello.timestamp = some d ∧
        d.toInt = (now.toInt - hello.timestamp.toInt).natAbs) ↔
    now.toInt - hello.timestamp.toInt < 2 ^ 63 := by
  constructor
  · rintro ⟨_, d, _, hd⟩
    have hlt := d.toInt_lt
    omega
  · intro h
    have hlt := hello.timestamp.toInt_lt
    obtain ⟨d, hd, hva⟩ := timestampDistance_exact P.build
      (show (now.toInt - hello.timestamp.toInt).natAbs < 2 ^ 63 by omega)
    rw [timestampPasses_iff hc hn, checkTimestamp_iff hd, hva]
    exact ⟨Iff.rfl, d, hd, hva⟩

def helloAt (cfg : HandshakeConfig P) (timestamp : Int64) : ParsedClientHello :=
  parsedHello (P.hmacSha256 cfg.authKey.val (clientHelloBody timestamp (.zero 24) (.zero 32)
      cfg.handshakeCapabilities 0 [])) cfg.authKey
    (helloFixed timestamp (.zero 24) (.zero 32) cfg.handshakeCapabilities 0
      (List.length (α := UInt8) [])) [] (.zero 32)

theorem helloAt_timestamp (cfg : HandshakeConfig P) (timestamp : Int64) :
    (helloAt cfg timestamp).timestamp = timestamp := helloFixed_timestamp ..

theorem checkClientHello_helloAt (h : cfg.puzzleDifficultyBits = 0)
    (timestamp : Int64) : checkClientHello cfg (helloAt cfg timestamp) = .ok () := by
  refine checkClientHello_parsedHello rfl ?_ rfl
  rw [h]
  rfl

end Verify

def sampleConfig (build : Build) : HandshakeConfig (.reference build) :=
  .new (.reference build) (ascii "0123456789abcdef") 30 256 0

theorem clock_skew_exact_sample :
    ((TimestampPasses (sampleConfig .release) (helloAt (sampleConfig .release) 1700000000)
          1700000060 ↔
        (((1700000060 : Int64).toInt -
          (helloAt (sampleConfig .release) 1700000000).timestamp.toInt).natAbs : Int) ≤
            (sampleConfig .release).clockSkewSecs.toInt) ∧
      ∃ d, timestampDistance .release 1700000060
          (helloAt (sampleConfig .release) 1700000000).timestamp = some d ∧
        d.toInt = ((1700000060 : Int64).toInt -
          (helloAt (sampleConfig .release) 1700000000).timestamp.toInt).natAbs) := by
  refine (clock_skew_exact_iff (checkClientHello_helloAt rfl 1700000000) (by decide)).mpr ?_
  decide

/-- **The difference can leave `i64`**: a hello with the timestamp
`now - 2 ^ 63`, 292 billion years in the past, passes a server with 30 s of skew
in a release build; in a debug build the same hello panics. -/
theorem clock_skew_overflow :
    (checkClientHello (sampleConfig .release)
        (helloAt (sampleConfig .release) (-9223372035154775808)) = .ok () ∧
      TimestampPasses (sampleConfig .release)
        (helloAt (sampleConfig .release) (-9223372035154775808)) 1700000000 ∧
      (sampleConfig .release).clockSkewSecs.toInt <
        ((1700000000 : Int64).toInt - (helloAt (sampleConfig .release)
          (-9223372035154775808)).timestamp.toInt).natAbs) ∧
    ∀ s, (verifyClientHello (sampleConfig .debug)
      (helloAt (sampleConfig .debug) (-9223372035154775808)) 1700000000).run s =
        .error .panic s := by
  refine ⟨⟨checkClientHello_helloAt rfl _, ?_, ?_⟩, fun s => ?_⟩
  · rw [timestampPasses_iff (checkClientHello_helloAt rfl _) (by decide)]
    decide
  · decide
  · have hpa : checkTimestamp (sampleConfig .debug) 1700000000 (-9223372035154775808) =
        .error .panic := by
      rfl
    have hcl : unixNow 1700000000 = .ok 1700000000 := rfl
    rw [run_verifyClientHello (checkClientHello_helloAt rfl _) hcl, helloAt_timestamp, hpa]

end Espejismo
