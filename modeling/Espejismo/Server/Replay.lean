import Espejismo.Server.Remote
import Espejismo.Crypto.Base64
import Espejismo.Crypto.Handshake.Sound

/-!
# Server.Replay

How long a running remote refuses a hello it has verified.  The replay cache
keeps an identifier for the replay window the remote was started with, whatever a
reload does to the settings (`Remote.Remembers`).  A hello is fresh for the sum of
the clock skews, so the window has to be at least as long; no check says so.
-/

namespace Espejismo

open Binary List
open scoped Standard

variable {P : Platform}

/-! ## What a connection does to the cache -/

section Connection

variable {users : List (HandshakeUser P)} {env : ServerEnv} {s : HandshakeIo} {cache : ReplayCache}

theorem checkReplay_after (hs : s.replay = some cache) (now : Int64) (digest publicKey : Bytes 32) :
    (finalState ((checkReplay now digest publicKey).run s)).replay =
      some ((ReplayCall.handshake now digest publicKey).after cache) := by
  rw [run_checkReplay, hs]
  unfold ReplayCall.after
  dsimp only
  split <;> simp_all

theorem not_rejected_of_checkReplay (hs : s.replay = some cache) {now : Int64}
    {digest publicKey : Bytes 32} {s' : HandshakeIo}
    (h : (checkReplay now digest publicKey).run s = .ok () s') :
    ¬ (ReplayCall.handshake now digest publicKey).Rejected cache := by
  rw [checkReplay_eq_ok, hs] at h
  rw [ReplayCall.rejected_iff]
  rintro ⟨k, hk, hm⟩
  exact h.1 k hk hm

/-- **Verification asks the cache once or not at all.**  If it does not ask, it
has failed; if it does, a hello that passes was not refused and its timestamp was
within the skew at the clock of the call. -/
theorem verifyClientHello_asks (hs : s.replay = some cache) (cfg : HandshakeConfig P)
    (hello : ParsedClientHello) (clock : Int) :
    ((∃ e, (verifyClientHello cfg hello clock).run s = .error e s)) ∨
    ∃ now, unixNow clock = .ok now ∧
      (finalState ((verifyClientHello cfg hello clock).run s)).replay =
        some ((ReplayCall.handshake now hello.firstPacketDigest hello.publicKey).after cache) ∧
      ∀ s', (verifyClientHello cfg hello clock).run s = .ok () s' →
        ¬ (ReplayCall.handshake now hello.firstPacketDigest hello.publicKey).Rejected cache ∧
        checkTimestamp cfg now hello.timestamp = .ok () := by
  cases hch : checkClientHello cfg hello with
  | error =>
    simp [verifyClientHello, hch]
  | ok =>
    cases hn : unixNow clock with
    | error =>
      simp [verifyClientHello, hch, hn]
    | ok now =>
      have hru := run_verifyClientHello hch hn s
      cases hts : checkTimestamp cfg now hello.timestamp with
      | error e => exact .inl ⟨e, by rw [hru, hts]⟩
      | ok =>
        rw [hts] at hru
        refine .inr ⟨now, rfl, ?_, fun s' h => ⟨?_, hts⟩⟩
        · rw [hru, checkReplay_after hs]
        · exact not_rejected_of_checkReplay hs (hru ▸ h)

theorem authenticateClient_asks (hs : s.replay = some cache) :
    (finalState ((authenticateClient users env).run s)).replay = some cache ∧
      (∀ r s', (authenticateClient users env).run s ≠ .ok r s') ∨
    ∃ now hello, unixNow env.verifyClock = .ok now ∧
      (finalState ((authenticateClient users env).run s)).replay =
        some ((ReplayCall.handshake now hello.firstPacketDigest hello.publicKey).after cache) ∧
      ∀ r s', (authenticateClient users env).run s = .ok r s' → r.1 = hello ∧
        ¬ (ReplayCall.handshake now hello.firstPacketDigest hello.publicKey).Rejected cache ∧
        checkTimestamp r.2.config now hello.timestamp = .ok () := by
  unfold authenticateClient
  cases users.head? with
  | none => exact .inl ⟨hs, fun _ _ h => by contradiction⟩
  | some first =>
    have hrs : Keeps HandshakeIo.replay (readClientHelloForUsers first users env) :=
      keeps_readClientHelloForUsers (fun _ _ => rfl) first
    have hke := hrs s
    simp only [EStateM.run_bind]
    cases hrd : (readClientHelloForUsers first users env).run s with
    | error =>
      rw [hrd] at hke
      exact .inl ⟨hke.trans hs, fun _ _ h => by contradiction⟩
    | ok read s₁ =>
      rw [hrd] at hke
      have hs₁ : s₁.replay = some cache := hke.trans hs
      dsimp only
      cases users[read.2]? with
      | none => exact .inl ⟨hs₁, fun _ _ h => by contradiction⟩
      | some user =>
        simp only [EStateM.run_bind]
        rcases verifyClientHello_asks hs₁ user.config read.1 env.verifyClock with
          ⟨e, hru⟩ | ⟨now, hn, ha, hp⟩
        · rw [hru]
          exact .inl ⟨hs₁, fun _ _ h => by contradiction⟩
        refine .inr ⟨now, read.1, hn, ?_⟩
        cases hru : (verifyClientHello user.config read.1 env.verifyClock).run s₁ with
        | error =>
          rw [hru] at ha
          exact ⟨ha, fun _ _ h => by contradiction⟩
        | ok _ s₂ =>
          rw [hru] at ha
          refine ⟨ha, fun r s' h => ?_⟩
          obtain ⟨rfl, rfl⟩ := EStateM.Result.ok.inj h
          exact ⟨rfl, hp s₂ hru⟩

theorem acceptHandshakeUsersInner_replay (users : List (HandshakeUser P)) (env : ServerEnv)
    (s : HandshakeIo) :
    (finalState ((acceptHandshakeUsersInner users env).run s)).replay =
      (finalState ((authenticateClient users env).run s)).replay := by
  unfold acceptHandshakeUsersInner
  rw [EStateM.run_bind]
  cases (authenticateClient users env).run s with
  | error => rfl
  | ok r s₁ =>
    have hke : Keeps HandshakeIo.replay (do
        let keys ← sendServerHelloAndDeriveKeys r.2.config r.1 env
        return ({ keys, user := r.2.name } : AuthenticatedSession)) :=
      .bind (keeps_sendServerHelloAndDeriveKeys (fun _ _ => rfl) _ _) fun _ => .pure _
    exact hke s₁

end Connection

/-! ## What the remote remembers -/

def Verification.keys (v : Verification P) : List ReplayKey :=
  handshakeKeys v.hello.firstPacketDigest v.hello.publicKey

/-- One packet, or one ephemeral key, was verified twice. -/
def Verification.SharesIdentifier (first second : Verification P) : Prop :=
  first.hello.firstPacketDigest = second.hello.firstPacketDigest ∨
    first.hello.publicKey = second.hello.publicKey

theorem Verification.SharesIdentifier.exists_key {first second : Verification P}
    (h : first.SharesIdentifier second) : ∃ k ∈ first.keys, k ∈ second.keys := by
  rcases h with h | h
  · exact ⟨.firstPacketDigest first.hello.firstPacketDigest, by simp [keys, handshakeKeys],
      by simp [keys, handshakeKeys, h]⟩
  · exact ⟨.ephemeralPublicKey first.hello.publicKey, by simp [keys, handshakeKeys],
      by simp [keys, handshakeKeys, h]⟩

def Verification.Timely (v : Verification P) : Prop :=
  checkTimestamp v.user.config v.verifiedAt v.hello.timestamp = .ok ()

namespace Remote

variable {clock window : Int} {r : Remote P}

theorem unixNow_eq_ok {now : Int64} (h : unixNow clock = .ok now) :
    now = .ofInt clock ∧ 0 ≤ clock := by
  unfold unixNow at h
  split at h
  · contradiction
  · exact ⟨(Except.ok.inj h).symm, by omega⟩

theorem toInt_unixNow_le {now : Int64} (h : unixNow clock = .ok now) : now.toInt ≤ clock := by
  obtain ⟨rfl, hcl⟩ := unixNow_eq_ok h
  rw [Int64.toInt_ofInt, show Int64.size = 2 ^ 64 from rfl]
  unfold Int.bmod
  dsimp only
  split <;> omega

/-- **What a step does to the cache and the log.**  It asks the cache at most
once, at a clock that has passed, and the log grows only with a hello the cache
let through. -/
theorem step_asks [Codecs] {r' : Remote P} {event : Event} (h : r.step event = some r') :
    (r'.replay = r.replay ∧ r'.verified = r.verified ∧ r.clock ≤ r'.clock) ∨
    ∃ call : ReplayCall, call.now.toInt ≤ r.clock ∧ r'.clock = r.clock ∧
      r'.replay = call.after r.replay ∧
      (r'.verified = r.verified ∨ ∃ v : Verification P, r'.verified = r.verified ++ [v] ∧
        ¬ call.Rejected r.replay ∧ v.keys = call.keys ∧ v.verifiedAt = call.now ∧
        v.checkedAt = r.clock ∧ v.Timely) := by
  rcases step_cases h with hqu | ⟨settings, env, input, hcl, hn, hre, hve⟩
  · exact .inl hqu
  rw [accept, acceptHandshakeUsersInner_replay] at hre
  unfold verification at hve
  have hak := @authenticateClient_asks P settings.users env
    { input, output := [], replay := some r.replay } r.replay rfl
  rcases hak with ⟨hkp, hfa⟩ | ⟨now, hello, hrd, ha, hp⟩
  · refine .inl ⟨?_, ?_, Int.le_of_eq hn.symm⟩
    · rw [hre, hkp, Option.getD_some]
    · rw [hve]
      split
      · exact absurd ‹_› (hfa _ _)
      · simp
  · refine .inr ⟨.handshake now hello.firstPacketDigest hello.publicKey,
      (toInt_unixNow_le hrd).trans hcl, hn, ?_, ?_⟩
    · rw [hre, ha, Option.getD_some]
    · rw [hve]
      split
      · obtain ⟨rfl, hf, hti⟩ := hp _ _ ‹_›
        obtain ⟨rfl, -⟩ := unixNow_eq_ok hrd
        exact .inr ⟨_, rfl, hf, rfl, rfl, rfl, hti⟩
      · exact .inl (by simp)

/-- What the remote knows about the hellos it has verified: each identifier is
in the cache, stored no earlier than it was verified, or the window has passed
since; and two hellos with one identifier are more than the window apart. -/
structure Remembers (window : Int) (r : Remote P) : Prop where
  cache : r.replay.Inv
  ttl : r.replay.ttlSecs.toInt = window
  stored : ∀ v ∈ r.verified, ∀ k ∈ v.keys,
    (∃ t, v.verifiedAt.toInt ≤ t.toInt ∧ (t, k) ∈ r.replay.order) ∨
      window < r.clock - v.verifiedAt.toInt
  timely : ∀ v ∈ r.verified, v.Timely
  apart : r.verified.Pairwise fun first second => (∃ k ∈ first.keys, k ∈ second.keys) →
    window < second.checkedAt - first.verifiedAt.toInt

theorem remembers_start {runtime : RemoteRuntime P} (h : 0 < runtime.replayWindowSecs)
    (clock : Int) : Remembers runtime.replayWindowSecs.toInt (start runtime clock) where
  cache := ReplayCache.inv_new _
  ttl := by
    have hpo := Int64.lt_iff_toInt_lt.mp h
    rw [start, ReplayCache.toInt_ttlSecs_new]
    exact Int.max_eq_left (Int.le_of_lt hpo)
  stored := fun v hv => by contradiction
  timely := fun v hv => by contradiction
  apart := .nil

theorem Remembers.stored_after (h : r.Remembers window) {call : ReplayCall}
    (hc : call.now.toInt ≤ r.clock) {v : Verification P} (hv : v ∈ r.verified) {k : ReplayKey}
    (hk : k ∈ v.keys) :
    (∃ t, v.verifiedAt.toInt ≤ t.toInt ∧ (t, k) ∈ (call.after r.replay).order) ∨
      window < r.clock - v.verifiedAt.toInt := by
  rcases h.stored v hv k hk with ⟨t, hle, hm⟩ | hov
  · by_cases hli : call.now.toInt - t.toInt ≤ window
    · exact .inl ⟨t, hle, ReplayCall.mem_order_after h.cache call hm (h.ttl ▸ hli)⟩
    · exact .inr (by omega)
  · exact .inr hov

theorem Remembers.apart_of_accepted (h : r.Remembers window) {call : ReplayCall}
    (hc : call.now.toInt ≤ r.clock) (hf : ¬ call.Rejected r.replay) {v : Verification P}
    (hv : v ∈ r.verified) {k : ReplayKey} (hk : k ∈ v.keys) (hne : k ∈ call.keys) :
    window < r.clock - v.verifiedAt.toInt := by
  rcases h.stored v hv k hk with ⟨t, hle, hm⟩ | hov
  · have hexpired : ¬ call.now.toInt - t.toInt ≤ window := fun hli =>
      hf ((ReplayCall.rejected_iff _ _).mpr ⟨k, hne,
        (ReplayCache.mem_seen_prune h.cache _ k).mpr ⟨t, hm, h.ttl ▸ hli⟩⟩)
    omega
  · exact hov

theorem remembers_step [Codecs] {r' : Remote P} {event : Event} (h : r.Remembers window)
    (hst : r.step event = some r') : r'.Remembers window := by
  rcases step_asks hst with ⟨hre, hve, hcl⟩ |
    ⟨call, hc, hcl, hre, hve⟩
  · exact
      { cache := hre ▸ h.cache
        ttl := hre ▸ h.ttl
        stored := fun v hv k hk => by
          rw [hve] at hv
          rw [hre]
          exact (h.stored v hv k hk).imp_right (by omega)
        timely := hve ▸ h.timely
        apart := hve ▸ h.apart }
  · have hca := hre ▸ ReplayCall.inv_after h.cache call
    have htt : r'.replay.ttlSecs.toInt = window := by
      rw [hre, ReplayCall.ttlSecs_after, h.ttl]
    rcases hve with hve | ⟨v, hve, hf, hky, hat, hcc, hti⟩
    · exact
        { cache := hca
          ttl := htt
          stored := fun u hu k hk => by
            rw [hve] at hu
            rw [hre, hcl]
            exact h.stored_after hc hu hk
          timely := hve ▸ h.timely
          apart := hve ▸ h.apart }
    · refine ⟨hca, htt, fun u hu k hk => ?_, fun u hu => ?_, ?_⟩
      · rw [hre, hcl]
        rw [hve, mem_append, mem_singleton] at hu
        rcases hu with hu | rfl
        · exact h.stored_after hc hu hk
        -- the new hello is stored at the time of the call or later
        refine .inl ⟨(r.replay.prune call.now).insertionTime call.now, ?_, ?_⟩
        · rw [hat]
          exact Int64.le_iff_toInt_le.mp (ReplayCache.le_insertionTime _ _)
        · rw [ReplayCall.after_of_accepted hf, ReplayCache.order_store]
          exact mem_append_right _ (mem_map.mpr ⟨k, hky ▸ hk, rfl⟩)
      · rw [hve, mem_append, mem_singleton] at hu
        rcases hu with hu | rfl
        · exact h.timely u hu
        · exact hti
      · rw [hve, pairwise_append]
        refine ⟨h.apart, pairwise_singleton _ _, fun u hu w hw ⟨k, hk, hne⟩ => ?_⟩
        rw [mem_singleton.mp hw] at hne ⊢
        rw [hcc]
        exact h.apart_of_accepted hc hf hu hk (hky ▸ hne)

theorem remembers_run [Codecs] {config accepted : EspejismoConfig} {args : Args}
    {runtime : RemoteRuntime P}
    {events : List Event} (hco : applyCliOverridesToConfig config args = .ok accepted)
    (hrn : buildRuntime P accepted args = .ok runtime)
    (hru : (start runtime clock).run events = some r) :
    r.Remembers accepted.remote.replayWindowSecs.toInt := by
  obtain ⟨hwi, hpo⟩ := replayWindowSecs_of_buildRuntime hco hrn
  rw [← hwi] at hpo ⊢
  exact run_induct hru (remembers_start hpo clock) remembers_step

end Remote

/-! ## The window and the skews -/

def Verification.skew (v : Verification P) : Int := v.user.config.clockSkewSecs.toInt

/-- The subtraction of the skew check did not overflow; it does not for a
timestamp that a clock has shown. -/
def Verification.InRange (v : Verification P) : Prop :=
  (v.verifiedAt.toInt - v.hello.timestamp.toInt).natAbs < 2 ^ 63

theorem Verification.Timely.natAbs_le {v : Verification P} (h : v.Timely) (hra : v.InRange) :
    ((v.verifiedAt.toInt - v.hello.timestamp.toInt).natAbs : Int) ≤ v.skew := by
  obtain ⟨d, hd, hva⟩ := timestampDistance_exact P.build hra
  rw [← hva]
  exact (checkTimestamp_iff hd).mp h

/-- **A hello is verified once per window**: in every run of a remote, two verified
hellos that share the digest of their packet or an ephemeral key are more than the
replay window of the start-up configuration apart.  If they carry one timestamp, the
window is shorter than the two skews and the time the second one waited for the
cache. -/
theorem hello_once_per_window [Codecs] {config accepted : EspejismoConfig} {args : Args}
    {runtime : RemoteRuntime P} {clock : Int} {events : List Event} {r : Remote P}
    (hco : applyCliOverridesToConfig config args = .ok accepted)
    (hrn : buildRuntime P accepted args = .ok runtime)
    (hru : (Remote.start runtime clock).run events = some r) :
    r.verified.Pairwise fun first second => first.SharesIdentifier second →
      accepted.remote.replayWindowSecs.toInt < second.checkedAt - first.verifiedAt.toInt ∧
      (first.hello.timestamp = second.hello.timestamp → first.InRange → second.InRange →
        accepted.remote.replayWindowSecs.toInt <
          first.skew + second.skew + (second.checkedAt - second.verifiedAt.toInt)) := by
  have hr := Remote.remembers_run hco hrn hru
  refine hr.apart.imp_of_mem fun {first second} hfi hse hap hsh => ?_
  have hwi := hap hsh.exists_key
  refine ⟨hwi, fun heq hra₁ hra₂ => ?_⟩
  have h₁ := (hr.timely first hfi).natAbs_le hra₁
  have h₂ := (hr.timely second hse).natAbs_le hra₂
  rw [heq] at h₁
  omega

/-! ## A window that is too short -/

section Sample

/-- A configuration that passes every check: one user, no puzzle, a replay
window of a second beside the default skew of 30. -/
def shortWindowConfig : EspejismoConfig :=
  { shared := { puzzleBits := 0 }
    remote :=
      { maxHandshakePadding := 256, replayWindowSecs := 1
        users := [{ name := "alice", psk := "0123456789abcdef" }] } }

theorem accepted_shortWindowConfig :
    applyCliOverridesToConfig shortWindowConfig {} = .ok shortWindowConfig :=
  parseConfig_eq_ok_iff.mpr ⟨rfl, by decide +kernel, none, rfl⟩

def shortWindowRuntime (P : Platform) : RemoteRuntime P :=
  { settings := { users := (sampleEncounter P).users }, replayWindowSecs := 1, reloadArgs := {} }

theorem buildRuntime_shortWindowConfig (P : Platform) :
    buildRuntime P shortWindowConfig {} = .ok (shortWindowRuntime P) := by
  rfl

def sampleAt (P : Platform) (parsedAt verifiedAt : Int64) (cache : ReplayCache) : Encounter P :=
  { sampleEncounter P with
    serverEnv :=
      { (sampleEncounter P).serverEnv with
        parseClock := parsedAt.toInt, verifyClock := verifiedAt.toInt }
    replay := some cache, parsedAt, verifiedAt }

def visit (P : Platform) (index : Nat) (parsedAt verifiedAt : Int64) : List Event :=
  [.connect, .tick verifiedAt.toInt,
    .handshake index (sampleAt P parsedAt verifiedAt (.new 1)).serverEnv (sampleEncounter P).packet]

def replayEvents (P : Platform) : List Event := visit P 0 100 101 ++ visit P 1 102 103

/-- A compatible client is verified, and its identifiers go to the cache. -/
theorem Remote.settles {e : Encounter P} (h : e.Compatible) {r : Remote P}
    (hr : e.replay = some r.replay) :
    ∃ v, r.verification { users := e.users } e.serverEnv e.packet = [v] ∧
      v.hello.firstPacketDigest = packetDigest P e.client.stealthFrameSize e.packet ∧
      v.hello.publicKey = P.x25519Public e.clientEnv.secret ∧
      (finalState (r.accept { users := e.users } e.serverEnv e.packet)).replay =
        some ((ReplayCall.handshake e.verifiedAt v.hello.firstPacketDigest v.hello.publicKey).after
          r.replay) := by
  obtain ⟨_, _, hb⟩ := h.exists_built
  obtain ⟨_, _, _, _, _, hau⟩ := h.authenticate hb []
  rw [Encounter.arrival, append_nil, hr] at hau
  refine ⟨_, by rw [verification, hau], rfl, Encounter.parsed_publicKey .., ?_⟩
  rw [accept, acceptHandshakeUsersInner_replay]
  rcases @authenticateClient_asks P e.users e.serverEnv ⟨e.packet, [], some r.replay⟩ _ rfl with
    ⟨-, hno⟩ | ⟨now, hello, hn, ha, hp⟩
  · exact absurd hau (hno _ _)
  · rw [h.verifiedAt] at hn
    obtain rfl := Except.ok.inj hn
    obtain ⟨rfl, -⟩ := hp _ _ hau
    exact ha

theorem compatible_sampleAt (parsedAt verifiedAt : Int64) (h : (sampleEncounter P).Compatible)
    (hpr : unixNow parsedAt.toInt = .ok parsedAt)
    (hsl : HandshakeWindow.default.acceptedSlots parsedAt = .ok [.window 3, .window 2])
    (hve : unixNow verifiedAt.toInt = .ok verifiedAt)
    (hsk : ((verifiedAt.toInt - 80).natAbs : Int) ≤ 30)
    (hf : (cache.prune verifiedAt).seen = ∅) :
    (sampleAt P parsedAt verifiedAt cache).Compatible :=
  { h with
    parsedAt := hpr
    tried := by
      change candidatesFrom (fun _ => true) parsedAt 0 [(sampleEncounter P).user] = _
      rw [candidatesFrom, if_pos rfl,
        show (sampleEncounter P).user.config.window = .default from rfl, hsl]
      rfl
    accepted := ⟨_, hsl, mem_cons_of_mem _ (mem_singleton_self _)⟩
    verifiedAt := hve
    skew := hsk
    fresh := by
      intro _ hca k _
      obtain rfl := Option.some.inj hca
      exact hf ▸ Finset.notMem_empty k }

theorem run_replayEvents (P : Platform) : ∃ r r₁ r₂ : Remote P,
    (Remote.start (shortWindowRuntime P) 99).run (replayEvents P) = some r ∧
    let e₁ := sampleAt P 100 101 r₁.replay
    let e₂ := sampleAt P 102 103 r₂.replay
    r.verified = ([] ++ r₁.verification { users := e₁.users } e₁.serverEnv e₁.packet) ++
      r₂.verification { users := e₂.users } e₂.serverEnv e₂.packet ∧
    r₁.replay = .new 1 ∧
    r₂.replay =
      (finalState (r₁.accept { users := e₁.users } e₁.serverEnv e₁.packet)).replay.getD r₁.replay :=
  ⟨_, _, _, rfl, rfl, rfl, rfl⟩

/-- At 103 the identifiers of 101 have left the cache. -/
theorem seen_after_window (digest publicKey : Bytes 32) :
    (((ReplayCall.handshake 101 digest publicKey).after (.new 1)).prune 103).seen = ∅ := by
  have hexpired : ReplayCache.expired (max 1 0) 103 101 = true := by decide
  rw [ReplayCall.after_of_accepted (by simp [ReplayCall.rejected_iff, ReplayCache.new,
    ReplayCache.prune, ReplayCache.pruneLoop])]
  ext k
  simp [ReplayCall.keys, ReplayCall.now, ReplayCache.new, ReplayCache.prune,
    ReplayCache.pruneLoop, ReplayCache.store, ReplayCache.insertionTime, hexpired]
  grind

/-- What the first visit asks of the cache. -/
def firstCall (P : Platform) : ReplayCall :=
  .handshake 101 (packetDigest P (sampleEncounter P).client.stealthFrameSize
    (sampleEncounter P).packet)
    (P.x25519Public (sampleEncounter P).clientEnv.secret)

/-- **A hello is accepted while the cache still holds its identifiers**: those of the
first visit are older than the window, and the check drops them before it looks. -/
theorem stored_hello_accepted :
    let P := Platform.reference .release
    let cache := (firstCall P).after (.new 1)
    (∀ k ∈ (firstCall P).keys, k ∈ cache.seen) ∧
    ∃ session s', (acceptHandshakeUsersInner (sampleEncounter P).users
      (sampleAt P 102 103 cache).serverEnv).run
        { input := (sampleEncounter P).packet, output := [], replay := some cache } =
      .ok session s' := by
  intro P cache
  refine ⟨fun k hk => ?_, ?_⟩
  · rw [show cache = _ from ReplayCall.after_of_accepted (by simp [ReplayCall.rejected_iff,
      ReplayCache.new, ReplayCache.prune, ReplayCache.pruneLoop]), ReplayCache.seen_store]
    simp [hk]
  · obtain ⟨_, _, session, _, _, _, _, _, _, _, hac, _⟩ :=
      (compatible_sampleAt 102 103 compatible_reference rfl rfl rfl (by decide)
        (seen_after_window _ _)).agree [] []
    rw [Encounter.arrival, append_nil] at hac
    exact ⟨session, _, hac⟩

/-- **The packet is verified both times.**  On any platform, so that no hash is evaluated. -/
theorem replayed_run (h : (sampleEncounter P).Compatible) :
    ∃ r first second, (Remote.start (shortWindowRuntime P) 99).run (replayEvents P) = some r ∧
      r.verified = [first, second] ∧
      first.hello.firstPacketDigest = second.hello.firstPacketDigest ∧
      first.hello.publicKey = second.hello.publicKey := by
  obtain ⟨r, r₁, r₂, hru, hve, h₁, h₂⟩ := run_replayEvents P
  obtain ⟨first, hfi, hdi₁, hkey₁, ha⟩ :=
    Remote.settles (r := r₁)
      (compatible_sampleAt 100 101 h rfl rfl rfl (by decide) (h₁ ▸ rfl)) rfl
  have hca : r₂.replay = (ReplayCall.handshake 101 first.hello.firstPacketDigest
      first.hello.publicKey).after (.new 1) := by
    rw [h₂, ha, h₁]
    rfl
  obtain ⟨second, hse, hdi₂, hkey₂, -⟩ := Remote.settles (r := r₂)
    (compatible_sampleAt 102 103 h rfl rfl rfl (by decide) (hca ▸ seen_after_window _ _)) rfl
  refine ⟨r, first, second, hru, ?_, hdi₁.trans hdi₂.symm, hkey₁.trans hkey₂.symm⟩
  rw [hve, hfi, hse]
  rfl

theorem exists_replayed_run :
    ∃ r first second, (Remote.start (shortWindowRuntime (.reference .release)) 99).run
        (replayEvents (.reference .release)) = some r ∧
      r.verified = [first, second] ∧
      first.hello.firstPacketDigest = second.hello.firstPacketDigest ∧
      first.hello.publicKey = second.hello.publicKey :=
  replayed_run compatible_reference

/-- **A short window lets a hello in twice**: the checks accept the
configuration, the remote starts with it, and a packet that was verified at 101
is verified again at 103. -/
theorem hello_replayed_after_window :
    applyCliOverridesToConfig shortWindowConfig {} = .ok shortWindowConfig ∧
    buildRuntime (.reference .release) shortWindowConfig {} =
      .ok (shortWindowRuntime (.reference .release)) ∧
    ∃ r first second, (Remote.start (shortWindowRuntime (.reference .release)) 99).run
        (replayEvents (.reference .release)) = some r ∧
      r.verified = [first, second] ∧
      first.hello.firstPacketDigest = second.hello.firstPacketDigest ∧
      first.hello.publicKey = second.hello.publicKey := by
  exact ⟨accepted_shortWindowConfig, buildRuntime_shortWindowConfig _, exists_replayed_run⟩

theorem hello_once_per_window_sample :
    ∃ r first second, (Remote.start (shortWindowRuntime (.reference .release)) 99).run
        (replayEvents (.reference .release)) = some r ∧
      r.verified = [first, second] ∧ first.SharesIdentifier second ∧
      shortWindowConfig.remote.replayWindowSecs.toInt <
        second.checkedAt - first.verifiedAt.toInt := by
  obtain ⟨r, first, second, hru, hve, hdi, -⟩ := exists_replayed_run
  have hwi := hello_once_per_window accepted_shortWindowConfig
    (buildRuntime_shortWindowConfig _) hru
  rw [hve, pairwise_cons] at hwi
  exact ⟨r, first, second, hru, hve, .inl hdi, (hwi.1 _ (mem_singleton_self _) (.inl hdi)).1⟩

end Sample

end Espejismo
