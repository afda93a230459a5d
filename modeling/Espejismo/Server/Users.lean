import Espejismo.Config.Frames
import Espejismo.Crypto.Base64
import Espejismo.Crypto.Handshake.Agreement
import Espejismo.Server.Remote

/-!
# Server.Users

Whether the users of a configuration can log in: the settings that
`build_handshake_users` makes of an accepted configuration meet what the
handshake needs of them (`Encounter.Compatible`), when no two users share a key.
-/

namespace Espejismo

open Binary List
open scoped Standard

variable {P : Platform}

/-! ## The users of the settings -/

theorem getElem?_of_mapM {β : Type} {f : α → Except Error β} {l : List α} {l' : List β}
    (h : l.mapM f = .ok l') (i : Nat) :
    (∃ a b, l[i]? = some a ∧ l'[i]? = some b ∧ f a = .ok b) ∨ l[i]? = none ∧ l'[i]? = none := by
  induction l generalizing l' i with
  | nil =>
    cases h
    exact .inr ⟨rfl, rfl⟩
  | cons a l ih =>
    rw [mapM_cons] at h
    obtain ⟨b, hb, h⟩ := bind_eq_ok.mp h
    obtain ⟨rest, hre, rfl⟩ := map_eq_ok.mp h
    cases i with
    | zero => exact .inl ⟨a, b, rfl, rfl, hb⟩
    | succ i => exact ih hre i

/-- What a user of the settings takes from the configuration. -/
structure HandshakeUser.Of [Codecs] (config : EspejismoConfig) (entry : RemoteUserConfig)
    (user : HandshakeUser P) : Prop where
  name : user.name = entry.name
  psk : parsePsk entry.psk = .ok user.config.psk
  window : user.config.window = config.shared.handshakeWindow
  stealthFrameSize : user.config.stealthFrameSize =
    if config.shared.obfuscation.profile = .stealth then some config.shared.stealth.frameSize
    else none

theorem users_of_buildRemoteSettings [Codecs] (h : buildRemoteSettings P config args = .ok settings)
    (hne : config.remote.users ≠ []) (i : Nat) :
    (∀ entry, config.remote.users[i]? = some entry →
      ∃ user, settings.users[i]? = some user ∧ user.Of config entry) ∧
    ∀ user : HandshakeUser P, settings.users[i]? = some user →
      ∃ entry, config.remote.users[i]? = some entry ∧ user.Of config entry := by
  obtain ⟨users, hbu, rfl⟩ := map_eq_ok.mp h
  rw [buildHandshakeUsers, if_neg (by simpa using hne)] at hbu
  rcases getElem?_of_mapM hbu i with ⟨entry, user, hen, hu, hbl⟩ | ⟨hno, hno'⟩
  · obtain ⟨psk, hps, hmd⟩ := map_eq_ok.mp hbl
    have hof : user.Of config entry := by
      rw [← hmd]
      exact ⟨rfl, hps, rfl, rfl⟩
    simp only [hen, hu, Option.some.injEq]
    exact ⟨fun _ he => ⟨user, rfl, he ▸ hof⟩, fun _ he => ⟨entry, rfl, he ▸ hof⟩⟩
  · simp [hno, hno']

theorem validFrameSize_of_parseConfig (h : parseConfig config = .ok config) :
    ValidFrameSize (if config.shared.obfuscation.profile = .stealth then
      some config.shared.stealth.frameSize else none) := by
  intro n hn
  split at hn
  case isTrue hst =>
    obtain rfl := Option.some.inj hn
    exact (stealth_of_parseConfig h hst).1.validateStealthHandshakeFrame
  case isFalse => cases hn

variable {users : List (HandshakeUser P)}

theorem exists_candidatesFrom
    (h : ∀ user ∈ users, ∃ slots, user.config.window.acceptedSlots now = .ok slots) :
    ∃ tried, candidatesFrom keep now start users = .ok tried := by
  induction users generalizing start with
  | nil => exact ⟨[], rfl⟩
  | cons user users ih =>
    obtain ⟨rest, hre⟩ : ∃ rest, candidatesFrom keep now (start + 1) users = .ok rest :=
      ih fun other ho => h other (mem_cons_of_mem _ ho)
    obtain ⟨slots, hs⟩ := h user (mem_cons_self ..)
    rw [candidatesFrom, hs, hre]
    split
    · exact ⟨_, rfl⟩
    · exact ⟨rest, rfl⟩

theorem exists_triedCandidates
    (h : ∀ user ∈ users, ∃ slots, user.config.window.acceptedSlots now = .ok slots) :
    ∃ tried, triedCandidates frameSize now users = .ok tried := by
  unfold triedCandidates
  split <;> exact exists_candidatesFrom h

theorem mem_triedCandidates
    (h : triedCandidates frameSize now users = .ok tried) (c : Candidate P) :
    c ∈ tried ↔ users[c.index]? = some c.user ∧
      (∀ n, frameSize = some n → c.user.config.stealthFrameSize = some n) ∧
      ∃ slots, c.user.config.window.acceptedSlots now = .ok slots ∧ c.slot ∈ slots := by
  unfold triedCandidates at h
  split at h <;> rw [mem_candidatesFrom h] <;> simp

/-! ## A client that logs in -/

/-- A client that connects, and the clocks at which it is heard. -/
structure Login (P : Platform) where
  client : HandshakeConfig P
  clientEnv : ClientEnv
  serverEnv : ServerEnv
  replay : Option ReplayCache
  slot : Slot
  hello : ClientHelloMaterial
  sentAt : Int64
  parsedAt : Int64
  verifiedAt : Int64

namespace Login

def packet (l : Login P) : List UInt8 := clientPacket l.client l.clientEnv

def paddingLen (l : Login P) : Nat :=
  randomPaddingLen (min l.client.effectivePaddingCap maxHandshakePadding) l.clientEnv.paddingDraw

/-- The client holds the user's key and agrees with the server's settings for the
user; the clocks are close, the hello is new, and no key of another PSK or slot
reads anything from it. -/
structure Matches (l : Login P) (users : List (HandshakeUser P)) (user : HandshakeUser P) :
    Prop where
  psk : l.client.psk = user.config.psk
  profile : l.client.stealthFrameSize = user.config.stealthFrameSize
  muxMode : l.client.muxMode = user.config.muxMode
  difficulty : user.config.puzzleDifficultyBits ≤ l.client.puzzleDifficultyBits
  padding : l.paddingLen ≤ user.config.effectivePaddingCap
  clientSlot : l.client.window.clientSlot l.clientEnv.authClock = .ok l.slot
  parsedAt : unixNow l.serverEnv.parseClock = .ok l.parsedAt
  accepted : ∃ slots, user.config.window.acceptedSlots l.parsedAt = .ok slots ∧ l.slot ∈ slots
  chance : ∀ tried, triedCandidates l.client.stealthFrameSize l.parsedAt users = .ok tried →
    ∀ c ∈ tried, (c.user.config.psk, c.slot) ≠ (l.client.psk, l.slot) →
      c.couldRead l.client.stealthFrameSize l.packet = false
  built : buildClientHello l.client l.clientEnv l.client.effectivePaddingCap
    (l.client.slotKey l.slot) = .ok l.hello
  sentAt : unixNow l.clientEnv.clock = .ok l.sentAt
  verifiedAt : unixNow l.serverEnv.verifyClock = .ok l.verifiedAt
  skew : ((l.verifiedAt.toInt - l.sentAt.toInt).natAbs : Int) ≤ user.config.clockSkewSecs.toInt
  fresh : ∀ cache, l.replay = some cache → ∀ k ∈ handshakeKeys
    (packetDigest P l.client.stealthFrameSize l.packet) (P.x25519Public l.clientEnv.secret),
    k ∉ (cache.prune l.verifiedAt).seen
  dh : P.x25519 l.clientEnv.secret (P.x25519Public l.serverEnv.secret) =
    P.x25519 l.serverEnv.secret (P.x25519Public l.clientEnv.secret)
  clientWrites : l.clientEnv.failsAfter = none
  serverWrites : l.serverEnv.failsAfter = none

/-! ### The padding that was drawn

What a client sends depends on the padding it draws, not on how much it might
have drawn: the same client with its cap at what it drew sends the same. -/

def exactClient (l : Login P) : HandshakeConfig P :=
  { l.client with maxHandshakePadding := l.paddingLen }

def exactEnv (l : Login P) : ClientEnv := { l.clientEnv with paddingDraw := l.paddingLen }

variable {l : Login P}

theorem paddingLen_le (l : Login P) :
    l.paddingLen ≤ l.client.effectivePaddingCap ∧ l.paddingLen ≤ maxHandshakePadding := by
  have hle := randomPaddingLen_le (min l.client.effectivePaddingCap maxHandshakePadding)
    l.clientEnv.paddingDraw
  exact Nat.le_min.mp hle

theorem effectivePaddingCap_exactClient (l : Login P) :
    l.exactClient.effectivePaddingCap = l.paddingLen := by
  obtain ⟨hca, hmx⟩ := l.paddingLen_le
  unfold HandshakeConfig.effectivePaddingCap HandshakeConfig.paddingCapIn
    HandshakeConfig.plainPaddingCap at hca ⊢
  simp only [exactClient]
  split at hca <;> omega

theorem randomPaddingLen_paddingLen (l : Login P) :
    randomPaddingLen (min l.paddingLen maxHandshakePadding) l.paddingLen = l.paddingLen := by
  have hmx : l.paddingLen ≤ 1024 := l.paddingLen_le.2
  rw [Nat.min_eq_left l.paddingLen_le.2, randomPaddingLen]
  split
  · omega
  · rw [Nat.mod_eq_of_lt (by omega), Nat.mod_eq_of_lt (by omega)]

theorem buildClientHello_exactClient (l : Login P) (key : Bytes 32)
    (hca : min cap maxHandshakePadding = min l.client.effectivePaddingCap maxHandshakePadding) :
    buildClientHello l.exactClient l.exactEnv l.paddingLen key =
      buildClientHello l.client l.clientEnv cap key := by
  unfold buildClientHello
  rw [show l.exactEnv.paddingDraw = l.paddingLen from rfl, randomPaddingLen_paddingLen, hca]
  rfl

theorem run_connectHandshake_exactClient (hva : ValidFrameSize l.client.stealthFrameSize)
    (s : HandshakeIo) :
    (connectHandshake l.exactClient l.exactEnv).run s =
      (connectHandshake l.client l.clientEnv).run s := by
  unfold connectHandshake
  rw [show l.exactClient.stealthFrameSize = l.client.stealthFrameSize from rfl]
  cases hsi : l.client.stealthFrameSize with
  | none =>
    have hbu (key : Bytes 32) :
        buildClientHello l.exactClient l.exactEnv l.exactClient.maxHandshakePadding key =
          buildClientHello l.client l.clientEnv l.client.maxHandshakePadding key := by
      refine buildClientHello_exactClient l key ?_
      simp [HandshakeConfig.effectivePaddingCap, HandshakeConfig.paddingCapIn, hsi,
        HandshakeConfig.plainPaddingCap]
    simp only [connectPlainHandshake, hbu]
    rfl
  | some n =>
    have hv := hva n hsi
    have hca : l.exactClient.paddingCapIn (some n) = l.paddingLen := by
      have hexact := l.effectivePaddingCap_exactClient
      rwa [HandshakeConfig.effectivePaddingCap,
        show l.exactClient.stealthFrameSize = some n from hsi] at hexact
    have hbu (key : Bytes 32) :
        buildClientHello l.exactClient l.exactEnv l.paddingLen key =
          buildClientHello l.client l.clientEnv (l.client.paddingCapIn (some n)) key := by
      refine buildClientHello_exactClient l key ?_
      rw [HandshakeConfig.effectivePaddingCap, hsi]
    simp only [connectStealthHandshake, EStateM.run_bind, run_liftExcept_ok,
      HandshakeConfig.stealthClientPaddingCap_eq _ hv, hca, hbu]
    rfl

def encounter (l : Login P) (users : List (HandshakeUser P)) (index : Nat)
    (user : HandshakeUser P) (tried : List (Candidate P)) : Encounter P :=
  { client := l.exactClient, clientEnv := l.exactEnv, users, serverEnv := l.serverEnv
    replay := l.replay, index, user, slot := l.slot, hello := l.hello, sentAt := l.sentAt
    parsedAt := l.parsedAt, verifiedAt := l.verifiedAt, tried }

variable {users : List (HandshakeUser P)} {index : Nat} {user : HandshakeUser P}
  {tried : List (Candidate P)}

theorem packet_encounter (hva : ValidFrameSize l.client.stealthFrameSize) :
    (l.encounter users index user tried).packet = l.packet := by
  change clientPacket l.exactClient l.exactEnv = clientPacket l.client l.clientEnv
  unfold clientPacket
  rw [run_connectHandshake_exactClient hva]

/-- **A client that matches a user is compatible** with a server on which nobody
else holds the user's key. -/
theorem Matches.compatible (h : l.Matches users user) (ha : users[index]? = some user)
    (hfi : users.head?.map (·.config.stealthFrameSize) = some l.client.stealthFrameSize)
    (hva : ValidFrameSize l.client.stealthFrameSize)
    (ht : triedCandidates l.client.stealthFrameSize l.parsedAt users = .ok tried)
    (hk : ∀ j other, users[j]? = some other → j ≠ index → other.config.psk ≠ user.config.psk) :
    (l.encounter users index user tried).Compatible where
  users_at := ha
  first_profile := hfi
  user_profile := h.profile.symm
  valid := hva
  psk := h.psk.symm
  muxMode := h.muxMode
  padding := by
    change l.exactClient.effectivePaddingCap ≤ user.config.effectivePaddingCap
    rw [effectivePaddingCap_exactClient]
    exact h.padding
  difficulty := h.difficulty
  clientSlot := h.clientSlot
  parsedAt := h.parsedAt
  tried := ht
  accepted := h.accepted
  others := by
    intro c hc hne
    rw [packet_encounter hva]
    refine h.chance tried ht c hc fun he => hne ?_
    obtain ⟨hps, hsl⟩ := Prod.mk.inj he
    rw [h.psk] at hps
    have hin : c.index = index := by
      by_contra ho
      exact hk c.index c.user ((mem_triedCandidates ht c).mp hc).1 ho hps
    exact Prod.ext hin hsl
  built := by
    change buildClientHello l.exactClient l.exactEnv l.exactClient.effectivePaddingCap
      (l.client.slotKey l.slot) = .ok l.hello
    rw [effectivePaddingCap_exactClient, buildClientHello_exactClient l _ rfl]
    exact h.built
  sentAt := h.sentAt
  verifiedAt := h.verifiedAt
  skew := h.skew
  fresh := by
    rw [packet_encounter hva]
    exact h.fresh
  dh := h.dh
  clientWrites := h.clientWrites
  serverWrites := h.serverWrites

end Login

/-! ## Every user can log in -/

/-- **Every user of an accepted configuration can log in** who shares a key with no
other: a client that matches the user is accepted under the user's name, and both
ends hold mirrored keys. -/
theorem users_can_log_in [Codecs] {config : EspejismoConfig} {args : Args}
    {settings : RemoteSettings P}
    (hco : parseConfig config = .ok config)
    (hbu : buildRemoteSettings P config args = .ok settings)
    {index : Nat} {entry : RemoteUserConfig} (hen : config.remote.users[index]? = some entry)
    (hk : ∀ j other, config.remote.users[j]? = some other → j ≠ index →
      parsePsk other.psk ≠ parsePsk entry.psk) :
    ∃ user, settings.users[index]? = some user ∧
      ∀ l : Login P, l.Matches settings.users user → ∀ more moreBack : List UInt8,
        ∃ session clientKeys reply replay,
          (acceptHandshakeUsersInner settings.users l.serverEnv).run
              { input := l.packet ++ more, output := [], replay := l.replay } =
            .ok session { input := more, output := reply, replay } ∧
          session.user = entry.name ∧
          (connectHandshake l.client l.clientEnv).run
              { input := reply ++ moreBack, output := [], replay := none } =
            .ok clientKeys { input := moreBack, output := l.packet, replay := none } ∧
          SessionKeys.Mirrored clientKeys session.keys := by
  have hne : config.remote.users ≠ [] := by
    intro hni
    rw [hni] at hen
    exact nomatch hen
  have hof := users_of_buildRemoteSettings hbu hne
  obtain ⟨user, hu, huo⟩ := (hof index).1 entry hen
  refine ⟨user, hu, fun l h more moreBack => ?_⟩
  have hva : ValidFrameSize l.client.stealthFrameSize := by
    rw [h.profile, huo.stealthFrameSize]
    exact validFrameSize_of_parseConfig hco
  have hwi : ∀ other ∈ settings.users, ∃ slots,
      other.config.window.acceptedSlots l.parsedAt = .ok slots := by
    intro other hme
    obtain ⟨j, hj⟩ := List.mem_iff_getElem?.mp hme
    obtain ⟨_, -, hoo⟩ := (hof j).2 other hj
    obtain ⟨slots, hs, -⟩ := h.accepted
    rw [hoo.window, ← huo.window]
    exact ⟨slots, hs⟩
  obtain ⟨tried, ht⟩ : ∃ tried,
      triedCandidates l.client.stealthFrameSize l.parsedAt settings.users = .ok tried :=
    exists_triedCandidates hwi
  have hfi : settings.users.head?.map (·.config.stealthFrameSize) =
      some l.client.stealthFrameSize := by
    have hpo : 0 < settings.users.length := by
      have := (List.getElem?_eq_some_iff.mp hu).1
      omega
    obtain ⟨_, -, hfo⟩ := (hof 0).2 _ (List.getElem?_eq_getElem hpo)
    rw [List.head?_eq_getElem?, List.getElem?_eq_getElem hpo, Option.map_some,
      hfo.stealthFrameSize, h.profile, huo.stealthFrameSize]
  have hdi : ∀ j other, settings.users[j]? = some other → j ≠ index →
      other.config.psk ≠ user.config.psk := by
    intro j other ho hj he
    obtain ⟨otherEntry, hoe, hoo⟩ := (hof j).2 other ho
    refine hk j otherEntry hoe hj ?_
    rw [hoo.psk, huo.psk, he]
  obtain ⟨_, _, session, clientKeys, reply, replay, -, -, -, -, hac, hna, -, hcn,
    hmi⟩ := (h.compatible hu hfi hva ht hdi).agree more moreBack
  rw [Encounter.arrival, Login.packet_encounter hva] at hac
  rw [Login.packet_encounter hva] at hcn
  refine ⟨session, clientKeys, reply, replay, hac, hna.trans huo.name, ?_, hmi⟩
  rw [← Login.run_connectHandshake_exactClient hva]
  exact hcn

section Twins

variable {c d : Candidate P} (hco : d.user.config = c.user.config) (hsl : d.slot = c.slot)

include hco hsl

theorem Candidate.key_twin : d.key = c.key := by
  rw [Candidate.key, Candidate.key, hco, hsl]

theorem Candidate.inRange_twin (nonce len : List UInt8) :
    d.inRange nonce len = c.inRange nonce len := by
  unfold Candidate.inRange Candidate.payloadLen
  rw [key_twin hco hsl, hco]

theorem Candidate.openPacket_twin (frameSize : Option Nat) (packet : List UInt8) :
    d.openPacket frameSize packet =
      (c.openPacket frameSize packet).map fun r => (r.1, d.index) := by
  have hah (parsed : Except Error ParsedClientHello) (digest : Bytes 32) :
      d.authenticated parsed digest =
        (c.authenticated parsed digest).map fun r => (r.1, d.index) := by
    unfold Candidate.authenticated
    split
    · rfl
    · split <;> rfl
  have hky := key_twin hco hsl
  unfold Candidate.openPacket
  split
  · unfold Candidate.openStealth
    rw [hky, hco]
    split
    · rfl
    · exact hah _ _
  · have hon (nonce payload : List UInt8) (digest : Bytes 32) :
        d.openPlain nonce payload digest =
          (c.openPlain nonce payload digest).map fun r => (r.1, d.index) := by
      simp only [Candidate.openPlain, hky, hco]
      exact hah _ _
    dsimp only
    rw [inRange_twin hco hsl, hon, apply_ite (Option.map _)]
    rfl

end Twins

/-- **Nobody is accepted** by a server on which every user has a twin: two of them
open each packet that one opens. -/
theorem not_accepted_of_twins (htn : ∀ i (user : HandshakeUser P), users[i]? = some user →
      ∃ (j : Nat) (other : HandshakeUser P),
        j ≠ i ∧ users[j]? = some other ∧ other.config = user.config) (env : ServerEnv)
    (s s' : HandshakeIo) (session : AuthenticatedSession) :
    (acceptHandshakeUsersInner users env).run s ≠ .ok session s' := by
  intro h
  obtain ⟨_, s₁, hau, -⟩ := run_bind_eq_ok.mp h
  unfold authenticateClient at hau
  split at hau
  · contradiction
  · next first hfi =>
    obtain ⟨r, s₂, hrd, -⟩ := run_bind_eq_ok.mp hau
    obtain ⟨packet, now, tried, -, -, -, -, ht, hone⟩ := readClientHelloForUsers_eq_ok hrd
    -- the candidate that opened the packet, and its twin
    obtain ⟨c, hc, hon⟩ := mem_filterMap.mp (hone ▸ mem_singleton_self r)
    obtain ⟨ha, hkp, hs⟩ := (mem_triedCandidates ht c).mp hc
    obtain ⟨j, other, hne, ho, hco⟩ := htn c.index c.user ha
    let d : Candidate P := { index := j, user := other, slot := c.slot }
    have hd : d ∈ tried := by
      refine (mem_triedCandidates ht d).mpr ⟨ho, ?_, ?_⟩
      · rw [show d.user.config = c.user.config from hco]
        exact hkp
      · rw [show d.user.config = c.user.config from hco]
        exact hs
    have hsf := Candidate.openPacket_twin (d := c) rfl rfl
      first.config.stealthFrameSize packet
    have htw := Candidate.openPacket_twin (d := d) hco rfl first.config.stealthFrameSize packet
    rw [hon] at hsf htw
    have hse : (r.1, j) ∈ [r] := by
      rw [← hone]
      exact mem_filterMap.mpr ⟨d, hd, htw⟩
    have hin : r.2 = c.index := congrArg Prod.snd (Option.some.inj hsf)
    have hti : j = r.2 := congrArg Prod.snd (mem_singleton.mp hse)
    exact hne (hti.trans hin)

section Sample

def aliceAnd (others : List RemoteUserConfig) : EspejismoConfig :=
  { shared := { puzzleBits := 0 }
    remote :=
      { maxHandshakePadding := 256
        users := { name := "alice", psk := "0123456789abcdef" } :: others } }

def sampleUser (P : Platform) (name : String) : HandshakeUser P :=
  { (sampleEncounter P).user with name }

def sampleLogin (P : Platform) : Login P :=
  let e := sampleEncounter P
  { client := e.client, clientEnv := e.clientEnv, serverEnv := e.serverEnv, replay := e.replay
    slot := e.slot, hello := e.hello, sentAt := e.sentAt, parsedAt := e.parsedAt
    verifiedAt := e.verifiedAt }

def bobUser (P : Platform) : HandshakeUser P :=
  { name := "bob", config := .new P (ascii "fedcba9876543210") 30 256 0 }

def bobCandidate (P : Platform) (slot : Slot) : Candidate P :=
  { index := 1, user := bobUser P, slot }

theorem matches_sampleLogin (h : (sampleEncounter P).Compatible)
    (hus : ∀ user ∈ users,
      user.config = (sampleEncounter P).user.config ∨ user.config = (bobUser P).config)
    (hbo : ∀ slots, (bobUser P).config.window.acceptedSlots (sampleLogin P).parsedAt = .ok slots →
      ∀ slot ∈ slots, (bobCandidate P slot).couldRead (sampleLogin P).client.stealthFrameSize
        (sampleLogin P).packet = false) :
    (sampleLogin P).Matches users (sampleEncounter P).user where
  psk := rfl
  profile := rfl
  muxMode := rfl
  difficulty := Nat.le_refl _
  padding := by
    change 3 ≤ 256
    decide
  clientSlot := h.clientSlot
  parsedAt := h.parsedAt
  accepted := h.accepted
  chance := by
    intro tried ht c hc hne
    obtain ⟨ha, -, slots, hs, hsl⟩ := (mem_triedCandidates ht c).mp hc
    obtain hco | hco := hus c.user (mem_of_getElem? ha)
    · rw [hco] at hne hs
      -- alice's own candidate for the slot
      let own : Candidate P := { index := 0, user := (sampleEncounter P).user, slot := c.slot }
      have how : own ∈ (sampleEncounter P).tried :=
        (mem_triedCandidates h.tried own).mpr
          ⟨h.users_at, fun n (hn : none = some n) => (nomatch hn), slots, hs, hsl⟩
      have ho := h.others own how fun he => hne (congrArg _ (congrArg Prod.snd he))
      exact (Candidate.inRange_twin (c := own) hco rfl _ _).trans ho
    · rw [hco] at hs
      exact (Candidate.inRange_twin (c := bobCandidate P c.slot) hco rfl _ _).trans
        (hbo slots hs c.slot hsl)
  built := h.built
  sentAt := h.sentAt
  verifiedAt := h.verifiedAt
  skew := h.skew
  fresh := h.fresh
  dh := h.dh
  clientWrites := rfl
  serverWrites := rfl

theorem bob_cannot_read (slots : List Slot)
    (h : (bobUser (.reference .release)).config.window.acceptedSlots
      (sampleLogin (.reference .release)).parsedAt = .ok slots) :
    ∀ slot ∈ slots, (bobCandidate (.reference .release) slot).couldRead
      (sampleLogin (.reference .release)).client.stealthFrameSize
      (sampleLogin (.reference .release)).packet = false := by
  obtain rfl : [.window 3, .window 2] = slots := Except.ok.inj h
  decide +kernel

def bobEntry : RemoteUserConfig := { name := "bob", psk := "fedcba9876543210" }

theorem parsePsk_bobEntry : parsePsk bobEntry.psk ≠ parsePsk "0123456789abcdef" := by
  decide +kernel

theorem users_can_log_in_alice :
    ∃ session clientKeys reply replay,
      (acceptHandshakeUsersInner
          [sampleUser (.reference .release) "alice", bobUser (.reference .release)]
          (sampleLogin (.reference .release)).serverEnv).run
          { input := (sampleLogin (.reference .release)).packet, output := []
            replay := (sampleLogin (.reference .release)).replay } =
        .ok session { input := [], output := reply, replay } ∧
      session.user = "alice" ∧
      (connectHandshake (sampleLogin (.reference .release)).client
          (sampleLogin (.reference .release)).clientEnv).run
          { input := reply, output := [], replay := none } =
        .ok clientKeys
          { input := [], output := (sampleLogin (.reference .release)).packet, replay := none } ∧
      SessionKeys.Mirrored clientKeys session.keys := by
  have hco : parseConfig (aliceAnd [bobEntry]) = .ok (aliceAnd [bobEntry]) :=
    parseConfig_eq_ok_iff.mpr ⟨rfl, by decide, none, rfl⟩
  have hbu : buildRemoteSettings (.reference .release) (aliceAnd [bobEntry]) {} =
      .ok { users := [sampleUser (.reference .release) "alice",
        bobUser (.reference .release)] } := by
    rfl
  have hen : (aliceAnd [bobEntry]).remote.users[0]? =
      some { name := "alice", psk := "0123456789abcdef" } := rfl
  have hk : ∀ j other, (aliceAnd [bobEntry]).remote.users[j]? = some other → j ≠ 0 →
      parsePsk other.psk ≠ parsePsk "0123456789abcdef" := by
    intro j other ho hj
    match j with
    | 0 => exact absurd rfl hj
    | 1 =>
      obtain rfl : bobEntry = other := Option.some.inj ho
      exact parsePsk_bobEntry
  obtain ⟨user, hu, hlo⟩ := users_can_log_in hco hbu hen hk
  obtain rfl := Option.some.inj hu
  have hma : (sampleLogin (.reference .release)).Matches
      [sampleUser (.reference .release) "alice", bobUser (.reference .release)]
      (sampleUser (.reference .release) "alice") :=
    matches_sampleLogin compatible_reference (by simp [sampleUser]) bob_cannot_read
  have hru := hlo _ hma [] []
  simp only [append_nil] at hru
  exact hru

/-- With alice's key written in another way for bob, the configuration is accepted
and the client matches, but no client is let in. -/
theorem same_key_turned_away :
    parseConfig (aliceAnd [{ name := "bob", psk := "hex:30313233343536373839616263646566" }]) =
      .ok (aliceAnd [{ name := "bob", psk := "hex:30313233343536373839616263646566" }]) ∧
    buildRemoteSettings (.reference .release)
        (aliceAnd [{ name := "bob", psk := "hex:30313233343536373839616263646566" }]) {} =
      .ok { users :=
        [sampleUser (.reference .release) "alice", sampleUser (.reference .release) "bob"] } ∧
    (sampleLogin (.reference .release)).Matches
      [sampleUser (.reference .release) "alice", sampleUser (.reference .release) "bob"]
      (sampleUser (.reference .release) "alice") ∧
    ∀ s s' session, (acceptHandshakeUsersInner
        [sampleUser (.reference .release) "alice", sampleUser (.reference .release) "bob"]
        (sampleLogin (.reference .release)).serverEnv).run s ≠ .ok session s' := by
  refine ⟨parseConfig_eq_ok_iff.mpr ⟨rfl, by decide, none, rfl⟩, by rfl,
    matches_sampleLogin compatible_reference (by simp [sampleUser]) bob_cannot_read,
    fun s s' session => not_accepted_of_twins ?_ _ _ _ _⟩
  rintro (_ | _ | i) user hu
  · exact ⟨1, _, by decide, rfl, by cases hu; rfl⟩
  · exact ⟨0, _, by decide, rfl, by cases hu; rfl⟩
  · contradiction

end Sample

end Espejismo
