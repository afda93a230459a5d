import Espejismo.Crypto.Handshake.Hello

/-!
# Crypto.Handshake.Read

When the server finds a client in what it has read.  A plain read goes through
the candidates twice, first for the length and then for the hello
(`readPlainClientHelloForUsers_eq_ok`); a stealth read goes through them once
(`readStealthClientHelloBy_eq_ok`).  Either way it succeeds with the hello of the
only candidate that opens the packet (`readClientHelloForUsers_eq_ok`).
-/

namespace Espejismo

open Binary

section Read

variable {P : Platform} {users : List (HandshakeUser P)} {env : ServerEnv} {s s' : HandshakeIo}
  {r : ParsedClientHello × Nat}

theorem exactlyOne_eq_ok : exactlyOne noneText manyText results = .ok a ↔ results = [a] := by
  match results with
  | [] | [b] | b :: c :: rest => simp [exactlyOne]

/-- **A plain read succeeds** when the candidates with a length in range agree
on it and one of them opens the payload. -/
theorem readPlainClientHelloForUsers_eq_ok :
    (readPlainClientHelloForUsers users env).run s = .ok r s' ↔
      ∃ nonce len payload rest now tried,
        nonce.length = variableHandshakeNonceLen ∧ len.length = variableHandshakeLenLen ∧
        s.input = nonce ++ (len ++ (payload ++ rest)) ∧ s' = { s with input := rest } ∧
        unixNow env.parseClock = .ok now ∧ triedCandidates none now users = .ok tried ∧
        uniqueCandidatePayloadLen ((tried.filter (Candidate.inRange · nonce len)).map
          (Candidate.payloadLen · nonce len)) = some payload.length ∧
        (tried.filter (Candidate.inRange · nonce len)).filterMap
          (Candidate.openPlain · nonce payload
          (firstPacketDigest P [nonce, len, payload])) = [r] := by
  simp only [readPlainClientHelloForUsers, run_bind_eq_ok, run_readExact_eq_ok,
    run_liftExcept_eq_ok]
  constructor
  · rintro ⟨nonce, _, ⟨hno, _, hi, rfl⟩, len, _, ⟨hl, _, hi', rfl⟩, now, _, ⟨hn, rfl⟩,
      tried, _, ⟨ht, rfl⟩, hru⟩
    dsimp only at hi'
    split at hru
    · split at hru <;> contradiction
    · next payloadLen hun =>
      rw [run_bind_eq_ok] at hru
      obtain ⟨payload, _, hpa, ho⟩ := hru
      obtain ⟨rfl, rest, hi'', rfl⟩ := run_readExact_eq_ok.mp hpa
      obtain ⟨hre, rfl⟩ := run_liftExcept_eq_ok.mp ho
      dsimp only at hi''
      refine ⟨nonce, len, payload, rest, now, tried, hno, hl, ?_, rfl, hn, ht, hun,
        exactlyOne_eq_ok.mp hre⟩
      rw [hi, hi', hi'']
  · rintro ⟨nonce, len, payload, rest, now, tried, hno, hl, hi, rfl, hn, ht, hun, ho⟩
    refine ⟨nonce, _, ⟨hno, _, hi, rfl⟩, len, _, ⟨hl, _, rfl, rfl⟩, now, _, ⟨hn, rfl⟩,
      tried, _, ⟨ht, rfl⟩, ?_⟩
    simp only [hun, run_bind_eq_ok]
    exact ⟨payload, _, run_readExact_eq_ok.mpr ⟨rfl, rest, rfl, rfl⟩,
      run_liftExcept_eq_ok.mpr ⟨exactlyOne_eq_ok.mpr ho, rfl⟩⟩

/-- **A stealth read succeeds** when one candidate opens the block. -/
theorem readStealthClientHelloBy_eq_ok :
    (readStealthClientHelloBy noneText manyText users frameSize env).run s = .ok r s' ↔
      validateStealthHandshakeFrame frameSize = .ok () ∧ ∃ block rest now tried,
        block.length = frameSize ∧ s.input = block ++ rest ∧ s' = { s with input := rest } ∧
        unixNow env.parseClock = .ok now ∧
        triedCandidates (some frameSize) now users = .ok tried ∧
        tried.filterMap (Candidate.openStealth · frameSize block (firstPacketDigest P [block])) =
          [r] := by
  simp only [readStealthClientHelloBy, run_bind_eq_ok, run_readExact_eq_ok, run_liftExcept_eq_ok,
    exactlyOne_eq_ok]
  constructor
  · rintro ⟨_, _, ⟨hv, rfl⟩, block, _, ⟨hl, rest, hi, rfl⟩, now, _, ⟨hn, rfl⟩, tried, _,
      ⟨ht, rfl⟩, ho, rfl⟩
    exact ⟨hv, block, rest, now, tried, hl, hi, rfl, hn, ht, ho⟩
  · rintro ⟨hv, block, rest, now, tried, hl, hi, rfl, hn, ht, ho⟩
    exact ⟨(), _, ⟨hv, rfl⟩, block, _, ⟨hl, rest, hi, rfl⟩, now, _, ⟨hn, rfl⟩, tried, _,
      ⟨ht, rfl⟩, ho, rfl⟩

theorem readClientHelloForUsers_eq_ok
    (h : (readClientHelloForUsers first users env).run s = .ok r s') :
    ∃ packet now tried, s.input = packet ++ s'.input ∧ s'.output = s.output ∧
      s'.replay = s.replay ∧ unixNow env.parseClock = .ok now ∧
      triedCandidates first.config.stealthFrameSize now users = .ok tried ∧
      tried.filterMap (Candidate.openPacket · first.config.stealthFrameSize packet) = [r] := by
  unfold readClientHelloForUsers at h
  cases hs : first.config.stealthFrameSize with
  | none =>
    rw [hs] at h
    obtain ⟨nonce, len, payload, rest, now, tried, hno, hl, hi, rfl, hn, ht, _, ho⟩ :=
      readPlainClientHelloForUsers_eq_ok.mp h
    obtain ⟨hta, hsl, hdr⟩ := packet_parts payload hno hl
    refine ⟨nonce ++ (len ++ payload), now, tried, by simpa using hi, rfl, rfl, hn, ht, ?_⟩
    rw [List.filterMap_filter] at ho
    rw [← ho]
    simp [Candidate.openPacket, packetDigest, hta, hsl, hdr]
  | some =>
    rw [hs] at h
    obtain ⟨_, block, rest, now, tried, _, hi, rfl, hn, ht, ho⟩ :=
      readStealthClientHelloBy_eq_ok.mp h
    exact ⟨block, now, tried, hi, rfl, rfl, hn, ht, ho⟩

theorem readClientHello_of_users
    (h : (readClientHelloForUsers (.default cfg) [.default cfg] env).run s =
      .ok (hello, index) s') :
    (readClientHello cfg env).run s = .ok hello s' := by
  unfold readClientHelloForUsers at h
  unfold readClientHello
  cases hs : cfg.stealthFrameSize with
  | none =>
    rw [HandshakeUser.default, hs] at h
    exact run_map_ok h
  | some =>
    rw [HandshakeUser.default, hs] at h
    -- the two functions differ in the texts of their errors
    exact run_map_ok (readStealthClientHelloBy_eq_ok.mpr (readStealthClientHelloBy_eq_ok.mp h))

end Read

end Espejismo
