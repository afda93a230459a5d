import Espejismo.Crypto.Base64
import Espejismo.Data.Incoming
import Espejismo.Data.Text
import Espejismo.Data.Utf8
import Espejismo.Egress.Policy

/-!
# Server.HttpChain

Egress through an upstream HTTP proxy (`http_chain.rs`): the CONNECT request a
remote sends and the answer it reads.
-/

namespace Espejismo

open List
open scoped Standard

/-! ## The request -/

def buildConnectRequest [Codecs] (proxy : EgressProxy) (authority : List Char) :
    Except Error (List Char) := do
  let _ ← splitAuthority authority
  let request := "CONNECT ".toList ++ authority ++ " HTTP/1.1\r\nHost: ".toList ++ authority ++
    "\r\nProxy-Connection: Keep-Alive\r\n".toList
  let credentials := match proxy.username with
    | some username =>
      let password := proxy.password.getD []
      let token := base64Encode (utf8Bytes (username ++ ':' :: password))
      "Proxy-Authorization: Basic ".toList ++ token ++ "\r\n".toList
    | none => []
  return request ++ credentials ++ "\r\n".toList

/-- A text that is one CONNECT request for a host and a port: a request line of
three parts with single blanks between them, the fields in their order, and the
empty line. -/
def IsConnectRequest (request host : List Char) (port : Nat) : Prop :=
  ∃ requestLine target hostField connectionField credentials,
    Text.splitPair '\r' '\n' request =
      requestLine :: hostField :: connectionField :: credentials ++ [[], []] ∧
    requestLine.splitOn ' ' = ["CONNECT".toList, target, "HTTP/1.1".toList] ∧
    splitAuthority target = .ok (host, port) ∧ "Host: ".toList <+: hostField ∧
    "Proxy-Connection: ".toList <+: connectionField ∧
    (credentials = [] ∨ ∃ field, credentials = [field] ∧ "Proxy-Authorization: ".toList <+: field)

def credentialFields [Codecs] (proxy : EgressProxy) : List (List Char) :=
  match proxy.username with
  | some username =>
    ["Proxy-Authorization: Basic ".toList ++
      base64Encode (utf8Bytes (username ++ ':' :: proxy.password.getD []))]
  | none => []

def connectLines [Codecs] (proxy : EgressProxy) (authority : List Char) : List (List Char) :=
  ("CONNECT ".toList ++ authority ++ " HTTP/1.1".toList) :: ("Host: ".toList ++ authority) ::
    "Proxy-Connection: Keep-Alive".toList :: credentialFields proxy ++ [[]]

variable {proxy : EgressProxy} {authority : List Char} {host request : List Char} {port : Nat}

theorem buildConnectRequest_eq [Codecs] (h : splitAuthority authority = .ok (host, port)) :
    buildConnectRequest proxy authority =
      .ok ((connectLines proxy authority).flatMap (· ++ ['\r', '\n'])) := by
  unfold buildConnectRequest connectLines credentialFields
  rw [h]
  cases proxy.username <;> simp [bind, Except.bind, pure, Except.pure]

theorem credentialFields_line [Codecs] (h : field ∈ credentialFields proxy) : ¬['\r', '\n'] <:+:
    field := by
  unfold credentialFields at h
  split at h
  · obtain rfl := mem_singleton.mp h
    refine Text.not_infix_append_left (by decide) fun hin => ?_
    exact Codecs.cr_notMem_base64Encode (hin.subset (.head _))
  · contradiction

theorem splitPair_connectLines [Codecs] (proxy : EgressProxy) (hl : ¬['\r', '\n'] <:+: authority) :
    Text.splitPair '\r' '\n' ((connectLines proxy authority).flatMap (· ++ ['\r', '\n'])) =
      connectLines proxy authority ++ [[]] := by
  have hal : ∀ line ∈ connectLines proxy authority, ¬['\r', '\n'] <:+: line := by
    intro line hme
    simp only [connectLines, mem_cons, mem_append, cons_append, not_mem_nil, or_false] at hme
    rcases hme with rfl | rfl | rfl | hfi | rfl
    · exact Text.not_infix_append_right (Text.not_infix_append_left (by decide) hl) (by decide)
    · exact Text.not_infix_append_left (by decide) hl
    · decide
    · exact credentialFields_line hfi
    · decide
  have hsp := Text.splitPair_flatMap (by decide) hal []
  rwa [append_nil] at hsp

theorem length_splitPair_connectLines [Codecs] (proxy : EgressProxy)
    (hl : ['\r', '\n'] <:+: authority) :
    7 ≤ (Text.splitPair '\r' '\n'
      ((connectLines proxy authority).flatMap (· ++ ['\r', '\n']))).length := by
  have hcr : '\r' ≠ '\n' := by decide
  have htw (before after : List Char) :
      2 ≤ (Text.splitPair '\r' '\n' (before ++ authority ++ after)).length :=
    Text.two_le_length_splitPair hcr (hl.trans (infix_append before authority after))
  have hre := htw "CONNECT ".toList " HTTP/1.1".toList
  have hho := htw "Host: ".toList []
  rw [append_nil] at hho
  let rest := "Proxy-Connection: Keep-Alive".toList :: credentialFields proxy ++ [[]]
  have hrs := Text.length_lt_splitPair_flatMap hcr rest
  have hle : 2 ≤ rest.length := by simp [rest]
  have hsec := Text.length_splitPair_append_pair hcr ("Host: ".toList ++ authority)
    (rest.flatMap (· ++ ['\r', '\n']))
  have hfir := Text.length_splitPair_append_pair hcr
    ("CONNECT ".toList ++ authority ++ " HTTP/1.1".toList)
    (("Host: ".toList ++ authority) ++ '\r' :: '\n' :: rest.flatMap (· ++ ['\r', '\n']))
  have hli : (connectLines proxy authority).flatMap (· ++ ['\r', '\n']) =
      ("CONNECT ".toList ++ authority ++ " HTTP/1.1".toList) ++ '\r' :: '\n' ::
        (("Host: ".toList ++ authority) ++ '\r' :: '\n' :: rest.flatMap (· ++ ['\r', '\n'])) := by
    simp [connectLines, rest]
  rw [hli]
  omega

theorem IsConnectRequest.length_le (h : IsConnectRequest request host port) :
    (Text.splitPair '\r' '\n' request).length ≤ 6 := by
  obtain ⟨_, _, _, _, _, hli, _, _, _, _, hcd⟩ := h
  rw [hli]
  rcases hcd with rfl | ⟨field, rfl, -⟩ <;> simp

/-- **The CONNECT request**: for an authority the policy accepts, the request is
one request for the host and the port that were checked exactly when the
authority has no blank and no line break in it. -/
theorem connect_request_iff [Codecs] {policy : EgressPolicy} {proxy : EgressProxy}
    {authority : List Char}
    (_ : policy.upstreamProxy = .ok (some proxy)) (_ : proxy.kind = .http ∨ proxy.kind = .https)
    (hac : policy.validateAuthority authority = .ok ()) :
    (∃ request host port, buildConnectRequest proxy authority = .ok request ∧
      splitAuthority authority = .ok (host, port) ∧ IsConnectRequest request host port) ↔
      ' ' ∉ authority ∧ ¬['\r', '\n'] <:+: authority := by
  obtain ⟨host, port, hsp⟩ : ∃ host port, splitAuthority authority = .ok (host, port) := by
    unfold EgressPolicy.validateAuthority at hac
    cases hsp : splitAuthority authority with
    | error => simp [hsp, bind, Except.bind] at hac
    | ok split => exact ⟨split.1, split.2, rfl⟩
  -- the parts of the request line, whatever the authority is
  have hpa : ("CONNECT ".toList ++ authority ++ " HTTP/1.1".toList).splitOn ' ' =
      "CONNECT".toList :: authority.splitOn ' ' ++ ["HTTP/1.1".toList] := by
    rw [show "CONNECT ".toList ++ authority ++ " HTTP/1.1".toList =
      "CONNECT".toList ++ ' ' :: (authority ++ ' ' :: "HTTP/1.1".toList) by simp,
      splitOn_append_cons_self, splitOn_append_cons_self]
    rfl
  constructor
  · rintro ⟨request, _, _, hre, -, hc⟩
    rw [buildConnectRequest_eq hsp] at hre
    obtain rfl := Except.ok.inj hre
    have hbr : ¬['\r', '\n'] <:+: authority := fun hin =>
      absurd (Nat.le_trans (length_splitPair_connectLines proxy hin) hc.length_le) (by decide)
    refine ⟨fun hbl => ?_, hbr⟩
    obtain ⟨requestLine, target, _, _, _, hli, hl, -⟩ := hc
    rw [splitPair_connectLines proxy hbr] at hli
    rw [← (List.cons.inj hli).1, hpa] at hl
    -- a blank in the authority would make a fourth part
    obtain ⟨s, t, rfl⟩ := append_of_mem hbl
    rw [splitOn_append_cons_self] at hl
    have hle := congrArg List.length hl
    have hs := length_pos_iff.mpr (splitOn_ne_nil ' ' s)
    have ht := length_pos_iff.mpr (splitOn_ne_nil ' ' t)
    simp at hle
    omega
  · rintro ⟨hbl, hbr⟩
    have hli := splitPair_connectLines proxy hbr
    refine ⟨_, host, port, buildConnectRequest_eq hsp, hsp, _, authority,
      "Host: ".toList ++ authority, "Proxy-Connection: Keep-Alive".toList, credentialFields proxy,
      by rw [hli, connectLines, append_assoc]; rfl, ?_, hsp, prefix_append .., by decide, ?_⟩
    · rw [hpa, splitOn_eq_singleton hbl]
      rfl
    · unfold credentialFields
      cases proxy.username with
      | none => exact .inl rfl
      | some => exact .inr ⟨_, rfl, by simp⟩

theorem connect_request_plain :
    ∃ request host port,
      buildConnectRequest ⟨.http, "proxy.test:8080".toList, some "u".toList, some "p".toList⟩
        "example.com:443".toList = .ok request ∧
      splitAuthority "example.com:443".toList = .ok (host, port) ∧
      IsConnectRequest request host port := by
  have hpr : ({ proxy := some "http://u:p@proxy.test:8080" } : EgressPolicy).upstreamProxy =
      .ok (some ⟨.http, "proxy.test:8080".toList, some "u".toList, some "p".toList⟩) := rfl
  exact (connect_request_iff hpr (.inl rfl) rfl).mpr (by decide)

/-- A line break in the authority sends the proxy to a target that the policy
rejects. -/
theorem connect_request_smuggled :
    let policy : EgressPolicy :=
      { proxy := some "http://proxy.test:8080", allowHosts := ["*.allowed.test"] }
    let authority := "evil.test:80 HTTP/1.1\r\nX: .allowed.test:443".toList
    ∃ proxy request, policy.upstreamProxy = .ok (some proxy) ∧ proxy.kind = .http ∧
      policy.validateAuthority authority = .ok () ∧
      buildConnectRequest proxy authority = .ok request ∧
      (Text.splitPair '\r' '\n' request).head? = some "CONNECT evil.test:80 HTTP/1.1".toList ∧
      (∃ e, policy.validateAuthority "evil.test:80".toList = .error e) ∧
      ∀ host port, ¬IsConnectRequest request host port := by
  refine ⟨⟨.http, "proxy.test:8080".toList, none, none⟩, _, rfl, rfl, rfl, rfl, by decide +kernel,
    ⟨_, rfl⟩, fun host port hc => ?_⟩
  exact absurd hc.length_le (by decide +kernel)

/-! ## The answer -/

def maxHttpConnectResponse : Nat := 16 * 1024

/-- `lines().next()`: up to the first line feed, without a carriage return
before it. -/
def firstLine (text : List Char) : Option (List Char) :=
  let line := text.takeWhile (· != '\n')
  if text.isEmpty then none
  else if line.length < text.length ∧ line.getLast? = some '\r' then some line.dropLast
  else some line

def checkConnectResponse (response : List UInt8) : Except Error Unit :=
  match Utf8.decode response with
  | none => .error (.msg "HTTP proxy response is not UTF-8")
  | some text =>
    match firstLine text with
    | none => .error (.msg "HTTP proxy response is empty")
    | some statusLine =>
      let parts := splitWhitespace statusLine
      let version := parts.getD 0 []
      let status := parts.getD 1 []
      let shown := String.ofList statusLine
      ensure ("HTTP/".toList.isPrefixOf version && status == "200".toList)
        s!"HTTP proxy CONNECT failed: {shown}"

/-- `read_connect_response`: blocks of at most 512 bytes until one completes the
header.  Every block has at least one byte, so the limit bounds the blocks. -/
def readConnectResponse : (fuel : Nat) → (response : List UInt8) → Incoming UInt8 →
    Except Error (Incoming UInt8)
  | 0, _, _ => .error .hang
  | fuel + 1, response, inc =>
    match inc.read 512 with
    | none =>
      match inc.ending with
      | .closed => .error (.msg "HTTP proxy closed before CONNECT response")
      | .silent => .error .hang
      | .broken => .error .io
    | some (chunk, inc) =>
      let response := response ++ chunk
      if maxHttpConnectResponse < response.length then
        .error (.msg "HTTP proxy CONNECT response too large")
      else if headerEnd <:+: response then do
        checkConnectResponse response
        return inc
      else readConnectResponse fuel response inc

/-- What the network does when a proxy is contacted. -/
structure ProxyEnv where
  connect : (endpoint : List Char) → Except Error (Incoming UInt8)
  /-- The TLS handshake with the host over the connection. -/
  tls : (host : List Char) → Incoming UInt8 → Except Error (Incoming UInt8)
  write : List UInt8 → Except Error Unit

/-- A connection through a proxy: what was sent on it so far and what is still
to come. -/
structure ProxyStream where
  sent : List UInt8
  incoming : Incoming UInt8

def connectViaHttpProxy [Codecs] (env : ProxyEnv) (proxy : EgressProxy) (authority : List Char) :
    Except Error ProxyStream := do
  let endpoint := String.ofList proxy.endpoint
  let stream ← (env.connect proxy.endpoint).mapError fun _ =>
    .msg s!"connect HTTP proxy {endpoint}"
  let request := utf8Bytes (← buildConnectRequest proxy authority)
  let stream ← match proxy.kind with
    | .http => pure stream
    | .https =>
      match splitAuthority proxy.endpoint with
      | .error _ => .error (.msg "HTTPS proxy endpoint must be host:port")
      | .ok (host, _) => env.tls host stream
    | _ => .error (.msg "invalid proxy kind for HTTP CONNECT")
  env.write request
  let incoming ← readConnectResponse (maxHttpConnectResponse + 1) [] stream
  return { sent := request, incoming }

/-! ## What is left of the stream -/

/-- The header of an answer that accepts: ASCII, within the limit, up to and
including its first CR LF CR LF, with an `HTTP/` version and status 200. -/
structure AcceptingHeader (header : List UInt8) : Prop where
  ascii : ∀ b ∈ header, b < 128
  length_le : header.length ≤ maxHttpConnectResponse
  ends : headerEnd <:+ header
  first : ¬headerEnd <:+: header.dropLast
  status : ∃ line version rest, firstLine (header.map fun b => Char.ofNat b.toNat) = some line ∧
    splitWhitespace line = version :: "200".toList :: rest ∧ "HTTP/".toList <+: version

namespace AcceptingHeader

variable {header : List UInt8}

theorem checkConnectResponse_eq (h : AcceptingHeader header) :
    checkConnectResponse header = .ok () := by
  obtain ⟨line, version, rest, hl, hwo, hve⟩ := h.status
  unfold checkConnectResponse
  rw [Utf8.decode_ascii h.ascii]
  simp only [hl, hwo, ensure_eq_ok]
  simpa using hve

theorem readConnectResponse_iff (h : AcceptingHeader header) (fuel : Nat) (before : List UInt8)
    (hh : header = before ++ rest)
    (hrs : rest ≠ []) (hfu : rest.length ≤ fuel) (hby : inc.bytes = rest ++ following) :
    (∃ inc', readConnectResponse fuel before inc = .ok inc' ∧ inc'.bytes = following) ↔
      Incoming.Aligned 512 rest.length inc.pieces := by
  induction fuel generalizing before rest inc with
  | zero => exact absurd (length_eq_zero_iff.mp (Nat.le_zero.mp hfu)) hrs
  | succ fuel ih =>
    cases hr : inc.read 512 with
    | none =>
      have hni := Incoming.read_eq_none hr
      simp [hby, hrs] at hni
    | some result =>
      obtain ⟨chunk, inc₁⟩ := result
      obtain ⟨hi, hcn, -⟩ := Incoming.read_eq_some hr (by decide)
      have hpos := length_pos_iff.mpr hcn
      rw [hby] at hi
      unfold readConnectResponse
      simp only [hr]
      rcases Nat.lt_trichotomy chunk.length rest.length with hlt | heq | hgt
      · -- more of the header is to come
        obtain ⟨tail, rfl⟩ : chunk <+: rest :=
          prefix_of_prefix_length_le ⟨_, hi.symm⟩ (prefix_append ..) (Nat.le_of_lt hlt)
        rw [append_assoc, append_cancel_left_eq] at hi
        rw [length_append] at hlt hfu
        have hta : tail ≠ [] := length_pos_iff.mp (by omega)
        have hsr : ¬headerEnd <:+: before ++ chunk := by
          intro hin
          apply h.first
          rw [hh, ← append_assoc, dropLast_append_of_ne_nil hta]
          exact hin.trans (prefix_append ..).isInfix
        have hle := h.length_le
        rw [hh, length_append, length_append] at hle
        rw [if_neg (by simp only [length_append]; omega), if_neg hsr,
          ih _ (by rw [hh, append_assoc]) hta (by omega) hi.symm,
          Incoming.aligned_read hr (by simp), length_append, Nat.add_sub_cancel_left]
      · -- the block ends with the header
        obtain ⟨rfl, hfo⟩ := append_inj hi heq.symm
        rw [← hh, if_neg (Nat.not_lt.mpr h.length_le), if_pos h.ends.isInfix,
          h.checkConnectResponse_eq, Incoming.aligned_read hr (Nat.le_refl _), Nat.sub_self]
        exact iff_of_true ⟨inc₁, rfl, hfo.symm⟩ (Incoming.aligned_zero ..)
      · -- the block goes on after it, and that part is dropped
        obtain ⟨extra, rfl⟩ : rest <+: chunk :=
          prefix_of_prefix_length_le (prefix_append ..) ⟨_, hi.symm⟩ (Nat.le_of_lt hgt)
        rw [append_assoc, append_cancel_left_eq] at hi
        refine iff_of_false ?_ (Incoming.not_aligned_of_read hr (length_pos_iff.mpr hrs) hgt)
        rintro ⟨inc', hru, hfl⟩
        have hend : headerEnd <:+: before ++ (rest ++ extra) := by
          rw [← append_assoc, ← hh]
          exact h.ends.isInfix.trans (prefix_append ..).isInfix
        split at hru
        · contradiction
        cases hch : checkConnectResponse (before ++ (rest ++ extra)) with
        | error => simp [hch] at hru
        | ok =>
          simp only [hch, bind, Except.bind, pure, Except.pure, Except.ok.injEq] at hru
          have hsh := congrArg List.length hi
          rw [hru, hfl, length_append] at hsh
          rw [length_append] at hgt
          omega

end AcceptingHeader

def ProxyEnv.answers (env : ProxyEnv) (proxy : EgressProxy) : Except Error (Incoming UInt8) := do
  let stream ← env.connect proxy.endpoint
  if proxy.kind = .https then env.tls (← splitAuthority proxy.endpoint).1 stream else return stream

theorem connectViaHttpProxy_eq [Codecs] (hki : proxy.kind = .http ∨ proxy.kind = .https)
    (hre : buildConnectRequest proxy authority = .ok request)
    (ha : env.answers proxy = .ok inc) (hwr : ∀ request, env.write request = .ok ()) :
    connectViaHttpProxy env proxy authority =
      (readConnectResponse (maxHttpConnectResponse + 1) [] inc).map fun incoming =>
        { sent := utf8Bytes request, incoming } := by
  unfold ProxyEnv.answers at ha
  unfold connectViaHttpProxy
  cases hc : env.connect proxy.endpoint with
  | error => simp [hc, bind, Except.bind] at ha
  | ok =>
    simp only [hc, bind, Except.bind] at ha
    simp only [hre, Except.mapError, bind, Except.bind, pure, Except.pure]
    rcases hki with hhp | hht
    · rw [if_neg (by rw [hhp]; decide)] at ha
      cases ha
      simp only [hhp, hwr]
      cases readConnectResponse (maxHttpConnectResponse + 1) [] inc <;> rfl
    · rw [if_pos hht] at ha
      cases hsp : splitAuthority proxy.endpoint with
      | error => simp [hsp] at ha
      | ok =>
        simp only [hsp] at ha
        simp only [hht, ha, hwr]
        cases readConnectResponse (maxHttpConnectResponse + 1) [] inc <;> rfl

/-- **Nothing is lost** through an HTTP proxy that accepts exactly when a read
ends where its header ends. -/
theorem connect_lossless_iff [Codecs] {env : ProxyEnv} {proxy : EgressProxy}
    {authority host : List Char}
    {port : Nat} {header following : List UInt8} {inc : Incoming UInt8}
    (hki : proxy.kind = .http ∨ proxy.kind = .https)
    (hau : splitAuthority authority = .ok (host, port))
    (ha : env.answers proxy = .ok inc) (hwr : ∀ request, env.write request = .ok ())
    (hh : AcceptingHeader header) (hby : inc.bytes = header ++ following) :
    (∃ stream, connectViaHttpProxy env proxy authority = .ok stream ∧
      stream.incoming.bytes = following) ↔ Incoming.Aligned 512 header.length inc.pieces := by
  have hne : header ≠ [] := by
    rintro rfl
    exact absurd hh.ends (by decide)
  rw [← hh.readConnectResponse_iff (maxHttpConnectResponse + 1) [] rfl hne
    (Nat.le_succ_of_le hh.length_le) hby]
  rw [connectViaHttpProxy_eq hki (buildConnectRequest_eq hau) ha hwr]
  cases readConnectResponse (maxHttpConnectResponse + 1) [] inc <;> simp [Except.map]

def acceptingEnv (pieces : List (Piece UInt8)) : ProxyEnv :=
  { connect := fun _ => .ok { pieces }, tls := fun _ stream => .ok stream, write := fun _ =>
    .ok () }

def acceptingAnswer : Piece UInt8 := ⟨utf8Bytes "HTTP/1.1 200\r\n\r\n".toList, by decide⟩

theorem acceptingHeader_answer : AcceptingHeader acceptingAnswer.val where
  ascii := by decide +kernel
  length_le := by decide +kernel
  ends := by decide +kernel
  first := by decide +kernel
  status := ⟨"HTTP/1.1 200".toList, "HTTP/1.1".toList, [], by decide, by decide, by decide⟩

theorem connect_lossless_separate :
    ∃ stream, connectViaHttpProxy (acceptingEnv [acceptingAnswer, ⟨[104, 105], by decide⟩])
        ⟨.http, "proxy.test:8080".toList, none, none⟩ "example.com:443".toList = .ok stream ∧
      stream.incoming.bytes = [104, 105] :=
  (connect_lossless_iff (.inl rfl) rfl rfl (fun _ => rfl) acceptingHeader_answer rfl).mpr
    (by decide)

/-- Early bytes in the block that completes the header never reach the tunnel. -/
theorem connect_loses_early_bytes :
    ∃ stream, connectViaHttpProxy
        (acceptingEnv [⟨acceptingAnswer.val ++ [104, 105], by decide⟩])
        ⟨.http, "proxy.test:8080".toList, none, none⟩ "example.com:443".toList = .ok stream ∧
      stream.incoming.bytes = [] := by
  exact ⟨_, rfl, rfl⟩

end Espejismo
