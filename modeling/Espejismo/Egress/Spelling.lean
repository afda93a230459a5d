import Espejismo.Egress.Policy

/-!
# Egress.Spelling

One destination can be asked for under several spellings.  `destination` says
what an authority denotes; the policy's host rules see the text that
`split_authority` leaves.  Two authorities of one destination are treated alike by
every block list exactly when they are `SpelledAlike` (`block_rules_respelling`).
-/

namespace Espejismo

open Net List Option

/-! ## What an authority denotes -/

/-- The host an authority denotes; names are compared in lower case. -/
inductive Host where
  | ip (ip : IpAddr)
  | name (name : List Char)
  deriving DecidableEq

def unmapped : IpAddr → IpAddr
  | .v4 a b c d => .v4 a b c d
  | .v6 segments => (toIpv4Mapped segments).getD (.v6 segments)

def withoutDot (name : List Char) : List Char :=
  if name.getLast? = some '.' then name.dropLast else name

/-- The host text of an authority, without the brackets, and its port text. -/
def writtenHost (authority : List Char) : Option (List Char × List Char) :=
  (rsplitOnce ':' authority).map fun (host, port) =>
    (trimMatches (fun c => c == '[' || c == ']') host, port)

def destination (authority : List Char) : Option (Host × Nat) :=
  match parseSocketAddr authority with
  | some addr => some (.ip (unmapped addr.ip), addr.port)
  | none => do
    let (host, port) ← writtenHost authority
    let port ← parseU16 port
    if host.isEmpty then none
    else
      match parseIpAddr host with
      | some ip => some (.ip (unmapped ip), port)
      | none => some (.name (toAsciiLowercase (withoutDot host)), port)

/-! ## Spellings -/

/-- The authority is a socket address with this IP, or its host text is the text
in which the IP is printed. -/
def SpellsIp (authority : List Char) (ip : IpAddr) : Prop :=
  (∃ addr, parseSocketAddr authority = some addr ∧ addr.ip = ip) ∨
    parseSocketAddr authority = none ∧ ∃ host port, writtenHost authority = some (host, port) ∧
      toAsciiLowercase host = toAsciiLowercase ip.display

/-- Both spell one IP address, or their host texts are equal up to the case of
ASCII letters. -/
def SpelledAlike (a b : List Char) : Prop :=
  (∃ ip, SpellsIp a ip ∧ SpellsIp b ip) ∨
    (parseSocketAddr a = none ∧ parseSocketAddr b = none ∧ ∃ host host' port port',
      writtenHost a = some (host, port) ∧ writtenHost b = some (host', port') ∧
        toAsciiLowercase host = toAsciiLowercase host')

/-! ## What the host rules see -/

theorem toLower_toLower (c : Char) : c.toLower.toLower = c.toLower := by
  have hup : ¬('A'.val ≤ c.toLower.val ∧ c.toLower.val ≤ 'Z'.val) := by
    unfold Char.toLower
    split
    case isTrue h =>
      have hle : c.val.toNat ≤ 90 := UInt32.le_iff_toNat_le.mp h.2
      have hge : 65 ≤ c.val.toNat := UInt32.le_iff_toNat_le.mp h.1
      simp only [UInt32.le_iff_toNat_le, not_and, Nat.not_le]
      intro _
      show 90 < (c.val.toNat + 32) % 2 ^ 32
      omega
    case isFalse h => exact h
  exact dif_neg hup

theorem toAsciiLowercase_idem (text : List Char) :
    toAsciiLowercase (toAsciiLowercase text) = toAsciiLowercase text := by
  unfold toAsciiLowercase
  rw [List.map_map]
  exact List.map_congr_left fun c _ => toLower_toLower c

def ruleHost (authority : List Char) : List Char :=
  match parseSocketAddr authority with
  | some addr => toAsciiLowercase addr.ip.display
  | none => toAsciiLowercase ((writtenHost authority).getD ([], [])).1

variable {authority : List Char} {dest : Host × Nat} {ip : IpAddr} {host : List Char}
  {policy : EgressPolicy}

theorem destination_cases (h : destination authority = some dest) :
    (∃ addr, parseSocketAddr authority = some addr ∧ dest = (.ip (unmapped addr.ip), addr.port) ∧
      ruleHost authority = toAsciiLowercase addr.ip.display) ∨
    parseSocketAddr authority = none ∧ ∃ host port, writtenHost authority = some (host, port) ∧
      parseU16 port = some dest.2 ∧ host.isEmpty = false ∧
      ruleHost authority = toAsciiLowercase host := by
  unfold destination at h
  unfold ruleHost
  cases had : parseSocketAddr authority with
  | some addr =>
    rw [had] at h
    exact .inl ⟨addr, rfl, (Option.some.inj h).symm, rfl⟩
  | none =>
    simp only [had, bind_eq_bind, bind_eq_some_iff] at h
    obtain ⟨⟨host, port⟩, hwr, n, hpo, hd⟩ := h
    have hd : dest.2 = n ∧ host.isEmpty = false := by
      split at hd
      · contradiction
      · split at hd <;> cases hd <;> simp_all
    rw [← hd.1] at hpo
    exact .inr ⟨rfl, host, port, hwr, hpo, hd.2, by rw [hwr, getD_some]⟩

theorem splitAuthority_of_destination (h : destination authority = some dest) :
    ∃ host, splitAuthority authority = .ok (host, dest.2) ∧
      toAsciiLowercase host = ruleHost authority := by
  unfold splitAuthority
  obtain ⟨addr, had, rfl, hr⟩ | ⟨hn, host, port, hwr, hpo, hho, hr⟩ :=
    destination_cases h
  · rw [had]
    exact ⟨addr.ip.display, rfl, hr.symm⟩
  obtain ⟨⟨raw, _⟩, hsp, heq⟩ := map_eq_some_iff.mp hwr
  obtain ⟨htr, rfl⟩ := Prod.mk.injEq .. ▸ heq
  refine ⟨host, ?_, hr.symm⟩
  simp [hn, hsp, htr, hpo, hho]

/-- A pattern for one host and what ends in a dot and that host; a host that
looks like a pattern needs one of its own. -/
def patternFor (host : List Char) : String :=
  String.ofList (if ['*', '.'] <+: host then '*' :: '.' :: host else host)

theorem hostMatches_patternFor (hlo : toAsciiLowercase host = host) (host' : List Char) :
    hostMatches host' (patternFor host) = true ↔
      host' = host ∨ ['*', '.'] <+: host ∧ '.' :: host <:+ host' := by
  unfold hostMatches patternFor
  rw [String.toList_ofList]
  by_cases hst : ['*', '.'] <+: host
  · have hpa : toAsciiLowercase ('*' :: '.' :: host) = ['*', '.'] ++ host := by
      simpa [toAsciiLowercase] using hlo
    have hsr : stripStart "*.".toList (['*', '.'] ++ host) = some host :=
      stripStart_append ['*', '.'] host
    rw [if_pos hst, hpa]
    simp only [hsr]
    simp [hst]
  · rw [if_neg hst, hlo]
    simp [stripStart_eq_none hst, hst]

theorem eq_of_hostMatches (hlo : toAsciiLowercase host = host)
    (hlo' : toAsciiLowercase host' = host') (h : hostMatches host' (patternFor host) = true)
    (h' : hostMatches host (patternFor host') = true) : host = host' := by
  rw [hostMatches_patternFor hlo] at h
  rw [hostMatches_patternFor hlo'] at h'
  rcases h with h | ⟨-, h⟩
  · exact h.symm
  rcases h' with h' | ⟨-, h'⟩
  · exact h'
  -- each would be longer than the other
  have hl := h.length_le
  have hl' := h'.length_le
  simp only [length_cons] at hl hl'
  omega

/-! ## Which texts say that a block rule matched -/

theorem ne_of_endings {s : String} (hs : u <:+ s.toList) (ht : v <:+ t.toList)
    (hl : u.length = v.length) (huv : u ≠ v) : s ≠ t := by
  rintro rfl
  exact huv ((suffix_of_suffix_length_le hs ht (Nat.le_of_eq hl)).eq_of_length hl)

theorem ending_append (s t : String) (h : u <:+ t.toList) : u <:+ (s ++ t).toList := by
  rw [String.toList_append]
  exact h.trans (suffix_append _ _)

namespace EgressPolicy

theorem blockedHost_ending (host : List Char) : "block_hosts".toList <:+
    (blockedHost host).toList :=
  ending_append _ _ (by decide)

theorem unlistedHost_ending (host : List Char) :
    "allow_hosts".toList <:+ (unlistedHost host).toList :=
  ending_append _ _ (by decide)

theorem privateTarget_ending (ip : IpAddr) : " is enabled".toList <:+ (privateTarget ip).toList :=
  ending_append _ _ (by decide)

variable {host : List Char} {port : Nat}

theorem blocked_iff :
    (∃ shown, policy.validateTarget host port = .error (.msg (blockedHost shown))) ↔
      policy.blockHosts.any (hostMatches (toAsciiLowercase host)) = true := by
  have hoh {text : String} {ending : List Char} (shown : List Char)
      (hen : ending <:+ text.toList) (hl : ending.length = 11)
      (hne : ending ≠ "block_hosts".toList) : Error.msg (blockedHost shown) ≠ .msg text := by
    intro heq
    exact ne_of_endings hen (blockedHost_ending shown) hl hne (Error.msg.inj heq).symm
  unfold validateTarget
  constructor
  · rintro ⟨shown, herr⟩
    simp only [ensure_bind_eq_error] at herr
    rcases herr with ⟨hbl, -⟩ | ⟨-, ⟨-, heq⟩ | ⟨-, ⟨-, heq⟩ | ⟨-, ⟨-, heq⟩ | ⟨-, hp⟩⟩⟩⟩
    · simpa using hbl
    · exact absurd heq (hoh shown (unlistedHost_ending host) rfl (by decide))
    · exact absurd heq (hoh shown (ending_append _ _ (u := "block_ports".toList) (by decide)) rfl
        (by decide))
    · exact absurd heq (hoh shown (ending_append _ _ (u := "allow_ports".toList) (by decide)) rfl
        (by decide))
    · split at hp
      · split at hp
        · rw [ensure_eq_error] at hp
          exact absurd hp.2 (hoh shown (privateTarget_ending _) rfl (by decide))
        · cases hp
      · cases hp
  · intro hbl
    refine ⟨host, ?_⟩
    rw [ensure_bind_eq_error]
    exact .inl ⟨by rw [hbl]; rfl, rfl⟩

def blockOnly (host : List Char) : EgressPolicy := { blockHosts := [patternFor host] }

theorem hostMatches_of_blockOnly (h : (blockOnly blocked).validateTarget host port = .error e) :
    hostMatches (toAsciiLowercase host) (patternFor blocked) = true := by
  simp only [validateTarget, ensure_bind_eq_error, blockOnly] at h
  have hmt : hostMatches (toAsciiLowercase host) (patternFor blocked) = true ∧
      e = .msg (blockedHost host) := by
    simpa [pure, Except.pure] using h
  exact hmt.1

end EgressPolicy

/-! ## Respelling -/

def EgressPolicy.Rejects (policy : EgressPolicy) (authority : List Char) : Prop :=
  ∃ e, policy.validateAuthority authority = .error e

def EgressPolicy.Blocks (policy : EgressPolicy) (authority : List Char) : Prop :=
  ∃ shown, policy.validateAuthority authority = .error (.msg (blockedHost shown))

theorem EgressPolicy.Blocks.rejects (h : policy.Blocks authority) : policy.Rejects authority :=
  let ⟨_, herr⟩ := h
  ⟨_, herr⟩

theorem toIpv4Mapped_inj (hs : toIpv4Mapped s = some ip)
    (ht : toIpv4Mapped t = some ip) : s = t := by
  unfold toIpv4Mapped at hs ht
  split at hs
  case h_2 => contradiction
  case h_1 high low hse =>
    split at ht
    case h_2 => contradiction
    case h_1 high' low' hse' =>
      have heq := Option.some.inj (hs.trans ht.symm)
      simp only [IpAddr.v4.injEq, ← UInt8.toNat_inj, UInt8.toNat_ofNat'] at heq
      have hhi : high = high' := by
        apply UInt16.toNat_inj.mp
        have := high.toNat_lt
        have := high'.toNat_lt
        omega
      have hlw : low = low' := by
        apply UInt16.toNat_inj.mp
        have := low.toNat_lt
        have := low'.toNat_lt
        omega
      rw [← Vector.toList_inj, hse, hse', hhi, hlw]

theorem display_of_toIpv4Mapped (h : toIpv4Mapped s = some ip) :
    (∃ a b c d, ip = .v4 a b c d) ∧ (IpAddr.v6 s).display = "::ffff:".toList ++ ip.display := by
  unfold toIpv4Mapped at h
  split at h
  case h_2 => contradiction
  case h_1 high low hse =>
    obtain rfl := Option.some.inj h
    refine ⟨⟨_, _, _, _, rfl⟩, ?_⟩
    simp [IpAddr.display, hse]

theorem eq_of_display (h : unmapped x = unmapped y)
    (hdi : toAsciiLowercase x.display = toAsciiLowercase y.display) : x = y := by
  have hl : x.display.length = y.display.length := by
    simpa [toAsciiLowercase] using congrArg List.length hdi
  have hma {a b c d : UInt8} {s} (hs : unmapped (.v6 s) = .v4 a b c d) :
      (IpAddr.v6 s).display.length = (IpAddr.v4 a b c d).display.length + 7 := by
    cases hi : toIpv4Mapped s with
    | none => simp [unmapped, hi] at hs
    | some =>
      simp only [unmapped, hi] at hs
      subst hs
      rw [(display_of_toIpv4Mapped hi).2, length_append, Nat.add_comm]
      rfl
  cases x with
  | v4 =>
    cases y with
    | v4 => exact h
    | v6 =>
      have := hma h.symm
      omega
  | v6 s =>
    cases y with
    | v4 =>
      have := hma h
      omega
    | v6 t =>
      simp only [unmapped] at h
      cases hs : toIpv4Mapped s with
      | none =>
        cases ht : toIpv4Mapped t with
        | none => simpa [hs, ht] using h
        | some =>
          obtain ⟨⟨_, _, _, _, rfl⟩, -⟩ := display_of_toIpv4Mapped ht
          simp [hs, ht] at h
      | some =>
        obtain ⟨⟨_, _, _, _, rfl⟩, -⟩ := display_of_toIpv4Mapped hs
        cases ht : toIpv4Mapped t with
        | none => simp [hs, ht] at h
        | some =>
          simp only [hs, ht, getD_some] at h
          rw [toIpv4Mapped_inj hs (h ▸ ht)]

theorem SpellsIp.ruleHost_eq (h : SpellsIp authority ip) :
    ruleHost authority = toAsciiLowercase ip.display := by
  unfold ruleHost
  rcases h with ⟨addr, had, rfl⟩ | ⟨hn, host, port, hwr, hho⟩
  · rw [had]
  · rw [hn, hwr]
    exact hho

theorem spelledAlike_iff (ha : destination a = some dest)
    (hb : destination b = some dest) : SpelledAlike a b ↔ ruleHost a = ruleHost b := by
  constructor
  · rintro (⟨ip, hsl, hsl'⟩ | ⟨hn, hn', host, host', port, port', hw, hw', heq⟩)
    · rw [hsl.ruleHost_eq, hsl'.ruleHost_eq]
    · unfold ruleHost
      rw [hn, hn', hw, hw']
      exact heq
  · intro heq
    rcases destination_cases ha with
        ⟨addr, had, hi, hr⟩ | ⟨hn, host, port, hw, -, -, hr⟩ <;>
      rcases destination_cases hb with
        ⟨addr', had', hi', hr'⟩ | ⟨hn', host', port', hw', -, -, hr'⟩ <;>
      rw [hr, hr'] at heq
    · have hhs := congrArg Prod.fst (hi.symm.trans hi')
      have hsa : addr.ip = addr'.ip := eq_of_display (Host.ip.inj hhs) heq
      exact .inl ⟨addr.ip, .inl ⟨addr, had, rfl⟩, .inl ⟨addr', had', hsa.symm⟩⟩
    · exact .inl ⟨addr.ip, .inl ⟨addr, had, rfl⟩, .inr ⟨hn', host', port', hw', heq.symm⟩⟩
    · exact .inl ⟨addr'.ip, .inr ⟨hn, host, port, hw, heq⟩, .inl ⟨addr', had', rfl⟩⟩
    · exact .inr ⟨hn, hn', host, host', port, port', hw, hw', heq⟩

theorem blocks_iff (h : destination authority = some dest) :
    policy.Blocks authority ↔ policy.blockHosts.any (hostMatches (ruleHost authority)) = true := by
  obtain ⟨host, hsp, hr⟩ := splitAuthority_of_destination h
  unfold EgressPolicy.Blocks EgressPolicy.validateAuthority
  rw [hsp, ← hr]
  exact EgressPolicy.blocked_iff

theorem hostMatches_of_rejects (h : destination authority = some dest)
    (hre : (EgressPolicy.blockOnly blocked).Rejects authority) :
    hostMatches (ruleHost authority) (patternFor blocked) = true := by
  obtain ⟨host, hsp, hr⟩ := splitAuthority_of_destination h
  obtain ⟨e, he⟩ := hre
  unfold EgressPolicy.validateAuthority at he
  rw [hsp] at he
  rw [← hr]
  exact EgressPolicy.hostMatches_of_blockOnly he

theorem toAsciiLowercase_ruleHost (authority : List Char) :
    toAsciiLowercase (ruleHost authority) = ruleHost authority := by
  unfold ruleHost
  split <;> exact toAsciiLowercase_idem _

theorem blocks_blockOnly (h : destination authority = some dest) :
    (EgressPolicy.blockOnly (ruleHost authority)).Blocks authority := by
  rw [blocks_iff h]
  have hsf := (hostMatches_patternFor (toAsciiLowercase_ruleHost authority) _).mpr (.inl rfl)
  simpa [EgressPolicy.blockOnly] using hsf

/-- **Respelling and the block list**: every policy treats two authorities of one
destination alike exactly when they are spelled alike. -/
theorem block_rules_respelling {a b : List Char} {dest : Host × Nat}
    (ha : destination a = some dest) (hb : destination b = some dest) :
    (∀ policy : EgressPolicy, (policy.Blocks a → policy.Rejects b) ∧
      (policy.Blocks b → policy.Rejects a)) ↔ SpelledAlike a b := by
  rw [spelledAlike_iff ha hb]
  constructor
  · intro h
    -- the policies that block only one of the two tell their hosts apart
    have hb' := hostMatches_of_rejects hb ((h _).1 (blocks_blockOnly ha))
    have ha' := hostMatches_of_rejects ha ((h _).2 (blocks_blockOnly hb))
    exact eq_of_hostMatches (toAsciiLowercase_ruleHost a) (toAsciiLowercase_ruleHost b) hb' ha'
  · intro heq policy
    have hif : policy.Blocks a ↔ policy.Blocks b := by rw [blocks_iff ha, blocks_iff hb, heq]
    exact ⟨fun h => (hif.mp h).rejects, fun h => (hif.mpr h).rejects⟩

theorem block_rules_respelling_case :
    ({ blockHosts := ["example.com"] } : EgressPolicy).Blocks "EXAMPLE.com:80".toList ∧
      ({ blockHosts := ["example.com"] } : EgressPolicy).Rejects "example.COM:80".toList := by
  have hd : destination "EXAMPLE.com:80".toList = some (.name "example.com".toList, 80) := by
    decide +kernel
  have hd' : destination "example.COM:80".toList = some (.name "example.com".toList, 80) := by
    decide +kernel
  have hal : SpelledAlike "EXAMPLE.com:80".toList "example.COM:80".toList :=
    .inr ⟨by decide +kernel, by decide +kernel, "EXAMPLE.com".toList, "example.COM".toList,
      "80".toList, "80".toList, by decide +kernel, by decide +kernel, by decide +kernel⟩
  have hbc : ({ blockHosts := ["example.com"] } : EgressPolicy).Blocks "EXAMPLE.com:80".toList :=
    ⟨"EXAMPLE.com".toList, rfl⟩
  exact ⟨hbc, ((block_rules_respelling hd hd').mpr hal _).1 hbc⟩

/-- A trailing dot gets a name past the list, the IPv6 form an IPv4 address. -/
theorem respelled_host_not_blocked :
    destination "example.com:80".toList = some (.name "example.com".toList, 80) ∧
    destination "example.com.:80".toList = some (.name "example.com".toList, 80) ∧
    destination "169.254.169.254:80".toList = some (.ip (.v4 169 254 169 254), 80) ∧
    destination "[::ffff:169.254.169.254]:80".toList = some (.ip (.v4 169 254 169 254), 80) ∧
    ∃ policy : EgressPolicy, policy.Blocks "example.com:80".toList ∧
      ¬policy.Rejects "example.com.:80".toList ∧ policy.Blocks "169.254.169.254:80".toList ∧
      ¬policy.Rejects "[::ffff:169.254.169.254]:80".toList := by
  have hac {policy : EgressPolicy} {authority : List Char}
      (h : policy.validateAuthority authority = .ok ()) : ¬policy.Rejects authority := by
    rintro ⟨e, he⟩
    rw [h] at he
    contradiction
  refine ⟨by decide +kernel, by decide +kernel, by decide +kernel, by decide +kernel,
    { blockHosts := ["example.com", "169.254.169.254"] }, ⟨"example.com".toList, rfl⟩,
    hac rfl, ⟨"169.254.169.254".toList, rfl⟩, hac rfl⟩

end Espejismo
