import Espejismo.Crypto.Handshake.Agreement

/-!
# Crypto.Handshake.Sound

What an accepted handshake guarantees, for any bytes a peer may send: one user
and one slot opened the packet, and the hello passed every check of that user
(`Accepted`).  Nothing is written until the reply, so a peer that is refused
learns nothing from the server.
-/

namespace Espejismo

open Binary List

/-! ## Frames -/

section Frames

variable {P : Platform} {users : List (HandshakeUser P)} {env : ServerEnv} {s s' : HandshakeIo}
  {e : Error}

theorem keeps_liftExcept (x : Except Error α) : Keeps f (liftExcept x) := by
  intro s
  cases x <;> rfl

theorem keeps_readExact (hf : ∀ s input, f { s with input } = f s) (context : String) (n : Nat) :
    Keeps f (readExact context n) := by
  intro s
  by_cases hn : s.input.length < n
  · rw [run_readExact_short hn, finalState_error]
  · rw [run_readExact (by rw [length_take]; omega) (take_append_drop n s.input).symm,
      finalState_ok, hf]

theorem keeps_readPlainClientHelloForUsers (hf : ∀ s input, f { s with input } = f s) :
    Keeps f (readPlainClientHelloForUsers users env) := by
  refine .bind (keeps_readExact hf _ _) fun nonce => .bind (keeps_readExact hf _ _) fun maskedLen =>
    .bind (keeps_liftExcept _) fun now => .bind (keeps_liftExcept _) fun tried => ?_
  dsimp only
  split
  · split <;> exact .throw _
  · exact .bind (keeps_readExact hf _ _) fun payload => keeps_liftExcept _

theorem keeps_readClientHelloForUsers (hf : ∀ s input, f { s with input } = f s)
    (first : HandshakeUser P) : Keeps f (readClientHelloForUsers first users env) := by
  unfold readClientHelloForUsers
  split
  · exact .bind (keeps_liftExcept _) fun _ => .bind (keeps_readExact hf _ _) fun block =>
      .bind (keeps_liftExcept _) fun now => .bind (keeps_liftExcept _) fun tried =>
        keeps_liftExcept _
  · exact keeps_readPlainClientHelloForUsers hf

theorem keeps_output_checkReplay (now : Int64) (digest publicKey : Bytes 32) :
    Keeps HandshakeIo.output (checkReplay now digest publicKey) := by
  intro s
  rw [run_checkReplay]
  split
  · rfl
  · split <;> rfl

theorem keeps_output_verifyClientHello (cfg : HandshakeConfig P) (hello : ParsedClientHello)
    (clock : Int) : Keeps HandshakeIo.output (verifyClientHello cfg hello clock) :=
  .bind (keeps_liftExcept _) fun _ => .bind (keeps_liftExcept _) fun _ =>
    .bind (keeps_liftExcept _) fun _ => keeps_output_checkReplay _ _ _

/-- **Nothing is written before the reply.** -/
theorem keeps_output_authenticateClient :
    Keeps HandshakeIo.output (authenticateClient users env) := by
  unfold authenticateClient
  split
  · exact .throw _
  refine .bind (keeps_readClientHelloForUsers (fun _ _ => rfl) _) fun r => ?_
  dsimp only
  split
  · exact .throw _
  · exact .bind (keeps_output_verifyClientHello _ _ _) fun _ => .pure _

theorem keeps_writeAll (hf : ∀ s output, f { s with output } = f s) (failsAfter : Option Nat)
    (bytes : List UInt8) : Keeps f (writeAll failsAfter bytes) := by
  intro s
  cases failsAfter with
  | none | some => exact hf s _

theorem keeps_sendServerHelloAndDeriveKeys (hf : ∀ s output, f { s with output } = f s)
    (cfg : HandshakeConfig P) (hello : ParsedClientHello) :
    Keeps f (sendServerHelloAndDeriveKeys cfg hello env) := by
  refine .bind (keeps_liftExcept _) fun reply => ?_
  split
  · exact .bind (keeps_liftExcept _) fun block =>
      .bind (keeps_writeAll hf _ _) fun _ => .pure _
  · exact .bind (keeps_writeAll hf _ _) fun _ => .pure _

theorem run_writeAll_error
    (h : (writeAll failsAfter bytes).run s = .error e s') : e = .io ∧ failsAfter.isSome = true := by
  cases failsAfter with
  | none => contradiction
  | some => exact ⟨(EStateM.Result.error.inj h).1.symm, rfl⟩

theorem sendServerHelloAndDeriveKeys_error
    (h : (sendServerHelloAndDeriveKeys cfg hello env).run s = .error e s') :
    s'.output = s.output ∨ e = .io ∧ env.failsAfter.isSome = true := by
  rcases run_bind_eq_error.mp h with hrp | ⟨reply, s₁, hrp, h⟩
  · exact .inl ((keeps_liftExcept _).error hrp)
  have h₁ : s₁.output = s.output := (keeps_liftExcept _).ok hrp
  cases hsi : cfg.stealthFrameSize with
  | none =>
    simp only [hsi] at h
    rcases run_bind_eq_error.mp h with hwr | ⟨_, _, _, hp⟩
    · exact .inr (run_writeAll_error hwr)
    · contradiction
  | some =>
    simp only [hsi] at h
    rcases run_bind_eq_error.mp h with hma | ⟨block, s₂, hma, h⟩
    · exact .inl (((keeps_liftExcept _).error hma).trans h₁)
    · rcases run_bind_eq_error.mp h with hwr | ⟨_, _, _, hp⟩
      · exact .inr (run_writeAll_error hwr)
      · contradiction

end Frames

section Sound

variable {P : Platform} {users : List (HandshakeUser P)} {env : ServerEnv} {s s' : HandshakeIo}

/-! ## What a candidate opened -/

variable {c : Candidate P} {digest : Bytes 32} {frameSize : Option Nat} {hello : ParsedClientHello}
  {tried : List (Candidate P)} {packet : List UInt8} {publicKey : Bytes 32} {user : HandshakeUser P}

theorem authenticated_eq_some (h : c.authenticated parsed digest = some r) :
    ∃ hello, parsed = .ok hello ∧ hello.authenticates P = true ∧
      r = (hello.withFirstPacketDigest digest, c.index) := by
  unfold Candidate.authenticated at h
  cases parsed with
  | error => contradiction
  | ok hello =>
    simp only [Option.ite_none_right_eq_some, Option.some.injEq] at h
    exact ⟨hello, rfl, h.1, h.2.symm⟩

/-- **A candidate that opens a packet** has authenticated it under its own key. -/
theorem openPacket_eq_some (h : c.openPacket frameSize packet = some r) :
    r.2 = c.index ∧ r.1.authKey = c.key ∧ r.1.authenticates P = true ∧
      r.1.paddingLen ≤ c.user.config.paddingCapIn frameSize ∧
      r.1.firstPacketDigest = packetDigest P frameSize packet := by
  unfold Candidate.openPacket at h
  cases frameSize with
  | none =>
    simp only [Option.ite_none_right_eq_some] at h
    obtain ⟨hello, hpr, ha, rfl⟩ := authenticated_eq_some h.2
    obtain ⟨hke, cap, hcp, hle⟩ := parseClientHello_eq_ok hpr
    obtain rfl := Except.ok.inj hcp
    exact ⟨rfl, hke, ha, hle, rfl⟩
  | some =>
    unfold Candidate.openStealth at h
    dsimp only at h
    split at h
    · contradiction
    obtain ⟨hello, hpr, ha, rfl⟩ := authenticated_eq_some h
    obtain ⟨hke, cap, hcp, hle⟩ := parseClientHello_eq_ok hpr
    obtain rfl := HandshakeConfig.stealthClientPaddingCap_eq_ok hcp
    exact ⟨rfl, hke, ha, hle, rfl⟩

/-! ## Accepted handshakes -/

/-- What the server knows when it has verified a client: `c` is the user and
slot that opened the packet, `hello` what was in it, `parsedAt` and `verifiedAt`
the clock when it was parsed and verified. -/
structure Accepted (users : List (HandshakeUser P)) (s : HandshakeIo) (user : HandshakeUser P)
    (s' : HandshakeIo) (frameSize : Option Nat) (packet : List UInt8)
    (parsedAt verifiedAt : Int64) (tried : List (Candidate P)) (c : Candidate P)
    (hello : ParsedClientHello) : Prop where
  read : s.input = packet ++ s'.input
  tried_eq : triedCandidates frameSize parsedAt users = .ok tried
  mem : c ∈ tried
  opened : c.openPacket frameSize packet = some (hello, c.index)
  only : ∀ d ∈ tried, (d.openPacket frameSize packet).isSome = true → d = c
  user_at : users[c.index]? = some user
  user_eq : c.user = user
  /-- The tag is an HMAC under the user's key of an accepted slot. -/
  tag : P.hmacSha256 (user.config.slotKey c.slot).val hello.body = hello.tag
  slot : user.config.window.enabled = false ∧ c.slot = .static ∨
    user.config.window.enabled = true ∧ ∃ current n,
      windowSlot parsedAt user.config.window.stepSecs = .ok current ∧ c.slot = .window n ∧
      current ≤ n + user.config.window.previousWindows ∧
      n ≤ current + user.config.window.futureWindows
  version : hello.version = 1
  tcp : hello.capabilities &&& capTcpConnect ≠ 0
  mux : hello.capabilities &&& user.config.muxMode.capability ≠ 0
  puzzle : Puzzle.verify P hello.body user.config.puzzleDifficultyBits = .ok true
  padding : hello.paddingLen ≤ user.config.paddingCapIn frameSize
  digest : hello.firstPacketDigest = packetDigest P frameSize packet
  timestamp : checkTimestamp user.config verifiedAt hello.timestamp = .ok ()
  /-- Neither identifier was live in the cache; both are now stored. -/
  replay : ∀ cache, s.replay = some cache → ∃ cache', s'.replay = some cache' ∧
    ∀ k ∈ handshakeKeys hello.firstPacketDigest hello.publicKey,
      k ∉ (cache.prune verifiedAt).seen ∧ k ∈ cache'.seen

theorem verifyClientHello_eq_ok (h : (verifyClientHello cfg hello clock).run s = .ok () s') :
    checkClientHello cfg hello = .ok () ∧ ∃ now, unixNow clock = .ok now ∧
      checkTimestamp cfg now hello.timestamp = .ok () ∧
      (checkReplay now hello.firstPacketDigest hello.publicKey).run s = .ok () s' := by
  simp only [verifyClientHello, run_bind_eq_ok, run_liftExcept_eq_ok] at h
  obtain ⟨_, _, ⟨hch, rfl⟩, now, _, ⟨hno, rfl⟩, _, _, ⟨hts, rfl⟩, hr⟩ := h
  exact ⟨hch, now, hno, hts, hr⟩

theorem checkReplay_input (h : (checkReplay now digest publicKey).run s = .ok () s') :
    s'.input = s.input := by
  rw [checkReplay_eq_ok] at h
  split at h
  · rw [h]
  · rw [h.2]

theorem checkReplay_stored (h : (checkReplay now digest publicKey).run s = .ok () s')
    (hca : s.replay = some cache) :
    ∃ cache', s'.replay = some cache' ∧ ∀ k ∈ handshakeKeys digest publicKey,
      k ∉ (cache.prune now).seen ∧ k ∈ cache'.seen := by
  rw [checkReplay_eq_ok, hca] at h
  obtain ⟨hfr, rfl⟩ := h
  refine ⟨_, rfl, fun k hk => ⟨hfr k hk, ?_⟩⟩
  rw [ReplayCache.seen_store]
  exact Finset.mem_union_right _ (mem_toFinset.mpr hk)

theorem candidate_of_mem_tried (h : triedCandidates frameSize now users = .ok tried)
    (hc : c ∈ tried) :
    users[c.index]? = some c.user ∧
      ∃ slots, c.user.config.window.acceptedSlots now = .ok slots ∧ c.slot ∈ slots := by
  unfold triedCandidates at h
  split at h
  · exact ⟨((mem_candidatesFrom h c).mp hc).2.1, ((mem_candidatesFrom h c).mp hc).2.2.2⟩
  · exact ⟨((mem_candidatesFrom h c).mp hc).2.1, ((mem_candidatesFrom h c).mp hc).2.2.2⟩

theorem exists_only_of_filterMap (h : tried.filterMap f = [r]) :
    ∃ c ∈ tried, f c = some r ∧ ∀ d ∈ tried, (f d).isSome = true → d = c := by
  obtain ⟨before, c, after, rfl, hbe, hc, haf⟩ := filterMap_eq_cons_iff.mp h
  rw [filterMap_eq_nil_iff] at haf
  refine ⟨c, by simp, hc, fun d hd hso => ?_⟩
  rcases mem_append.mp hd with hd | hd
  · rw [hbe d hd] at hso
    contradiction
  rcases mem_cons.mp hd with rfl | hd
  · rfl
  · rw [haf d hd] at hso
    contradiction

/-- **A verified client is known**, whatever was read. -/
theorem accepted_of_ok (h : (authenticateClient users env).run s = .ok (hello, user) s') :
    ∃ first packet parsedAt verifiedAt tried c, users.head? = some first ∧
      unixNow env.parseClock = .ok parsedAt ∧ unixNow env.verifyClock = .ok verifiedAt ∧
      Accepted users s user s' first.config.stealthFrameSize packet parsedAt verifiedAt tried c
        hello := by
  unfold authenticateClient at h
  cases hfi : users.head? with
  | none =>
    simp only [hfi] at h
    contradiction
  | some first =>
    simp only [hfi] at h
    obtain ⟨⟨hello, index⟩, s₁, hrd, hrs⟩ := run_bind_eq_ok.mp h
    obtain ⟨packet, parsedAt, tried, hi, _, hr₁, hpa, htr, hone⟩ :=
      readClientHelloForUsers_eq_ok hrd
    obtain ⟨c, hme, hon, hol⟩ := exists_only_of_filterMap hone
    obtain ⟨hid, hke, ha, hpd, hdi⟩ := openPacket_eq_some hon
    subst hid
    obtain ⟨hus, slots, hsl, hslo⟩ := candidate_of_mem_tried htr hme
    simp only [hus] at hrs
    obtain ⟨_, s₂, hvf, hp⟩ := run_bind_eq_ok.mp hrs
    obtain ⟨heq, rfl⟩ := EStateM.Result.ok.inj hp
    obtain ⟨rfl, rfl⟩ := Prod.mk.inj heq
    obtain ⟨hch, verifiedAt, hve, hts, hst⟩ := verifyClientHello_eq_ok hvf
    obtain ⟨hpz, _, hvr, htc, hmu⟩ := checkClientHello_iff.mp hch
    refine ⟨first, packet, parsedAt, verifiedAt, tried, c, rfl, hpa, hve, ?_⟩
    exact
      { read := by rw [hi, checkReplay_input hst]
        tried_eq := htr
        mem := hme
        opened := hon
        only := hol
        user_at := hus
        user_eq := rfl
        tag := by
          rw [authenticates_iff, hke] at ha
          exact ha
        slot := mem_acceptedSlots hsl hslo
        version := hvr
        tcp := htc
        mux := hmu
        puzzle := hpz
        padding := hpd
        digest := hdi
        timestamp := hts
        replay := by
          rw [← hr₁]
          exact fun cache hca => checkReplay_stored hst hca }

/-- **A refused client sees nothing**: an error comes before any byte is
written, or from writing the reply. -/
theorem output_of_error (h : (acceptHandshakeUsersInner users env).run s = .error e s') :
    s'.output = s.output ∨ e = .io ∧ env.failsAfter.isSome = true := by
  rcases run_bind_eq_error.mp h with ha | ⟨r, s₁, ha, hrs⟩
  · exact .inl (keeps_output_authenticateClient.error ha)
  have h₁ := keeps_output_authenticateClient.ok ha
  rcases run_bind_eq_error.mp hrs with hs | ⟨_, _, _, hp⟩
  · exact (sendServerHelloAndDeriveKeys_error hs).imp_left (·.trans h₁)
  · contradiction

theorem authenticateClient_of_accept
    (h : (acceptHandshakeUsersInner users env).run s = .ok session s') :
    ∃ hello user s₁, (authenticateClient users env).run s = .ok (hello, user) s₁ ∧
      session.user = user.name ∧ s'.input = s₁.input ∧ s'.replay = s₁.replay := by
  obtain ⟨⟨hello, user⟩, s₁, ha, hrs⟩ := run_bind_eq_ok.mp h
  obtain ⟨keys, s₂, hs, hp⟩ := run_bind_eq_ok.mp hrs
  obtain ⟨rfl, rfl⟩ := EStateM.Result.ok.inj hp
  have hi := (keeps_sendServerHelloAndDeriveKeys (f := HandshakeIo.input)
    (fun _ _ => rfl) user.config hello).ok hs
  have hr := (keeps_sendServerHelloAndDeriveKeys (f := HandshakeIo.replay)
    (fun _ _ => rfl) user.config hello).ok hs
  exact ⟨hello, user, s₁, ha, rfl, hi, hr⟩

theorem Accepted.congr
    (h : Accepted users s user s₁ frameSize packet parsedAt verifiedAt tried c hello)
    (hi : s₂.input = s₁.input) (hr : s₂.replay = s₁.replay) :
    Accepted users s user s₂ frameSize packet parsedAt verifiedAt tried c hello :=
  { h with
    read := by rw [hi]; exact h.read
    replay := by rw [hr]; exact h.replay }

/-- **Handshake soundness**: a server that accepts has found exactly one user
and slot, and the hello has passed every check of that user; a server that
refuses has written nothing, unless it was the reply that could not be written. -/
theorem handshake_sound (users : List (HandshakeUser P)) (env : ServerEnv) (s : HandshakeIo) :
    (∀ session s', (acceptHandshakeUsersInner users env).run s = .ok session s' →
      ∃ first user packet parsedAt verifiedAt tried c hello, users.head? = some first ∧
        session.user = user.name ∧
        unixNow env.parseClock = .ok parsedAt ∧ unixNow env.verifyClock = .ok verifiedAt ∧
        Accepted users s user s' first.config.stealthFrameSize packet parsedAt verifiedAt tried c
          hello) ∧
    ∀ e s', (acceptHandshakeUsersInner users env).run s = .error e s' →
      s'.output = s.output ∨ e = .io ∧ env.failsAfter.isSome = true := by
  refine ⟨fun session s' h => ?_, fun e s' => output_of_error⟩
  obtain ⟨hello, user, s₁, ha, hna, hi, hr⟩ := authenticateClient_of_accept h
  obtain ⟨first, packet, parsedAt, verifiedAt, tried, c, hfi, hpa, hve, hap⟩ := accepted_of_ok ha
  exact ⟨first, user, packet, parsedAt, verifiedAt, tried, c, hello, hfi, hna, hpa,
    hve, hap.congr hi hr⟩

end Sound

theorem handshake_sound_sample :
    ∃ session s', (acceptHandshakeUsersInner (sampleEncounter (.reference .release)).users
        (sampleEncounter (.reference .release)).serverEnv).run
        { input := (sampleEncounter (.reference .release)).packet, output := []
          replay := some (.new 300) } = .ok session s' ∧ session.user = "alice" ∧
      ∃ user frameSize packet parsedAt verifiedAt tried c hello, user.name = "alice" ∧
        Accepted (sampleEncounter (.reference .release)).users
          { input := (sampleEncounter (.reference .release)).packet, output := []
            replay := some (.new 300) } user s' frameSize packet parsedAt verifiedAt tried c
          hello := by
  obtain ⟨puzzleNonce, padding, hb⟩ := compatible_reference.exists_built
  obtain ⟨_, _, _, hs, _⟩ := compatible_reference.reply hb
  obtain ⟨_, _, _, _, hac, _⟩ := compatible_reference.accept hb hs []
  rw [Encounter.arrival, append_nil] at hac
  obtain ⟨first, user, packet, parsedAt, verifiedAt, tried, c, hello, _, hna, _, _, h⟩ :=
    (handshake_sound _ _ _).1 _ _ hac
  exact ⟨_, _, hac, rfl, user, _, packet, parsedAt, verifiedAt, tried, c, hello, hna.symm, h⟩

end Espejismo
