import Espejismo.Crypto.Base64
import Espejismo.Data.Text
import Espejismo.Data.Utf8
import Espejismo.Ingress

/-!
# Ingress.HttpProxy

A request of an application to the HTTP proxy (`ingress/http_proxy.rs`): the
header is read up to its end, checked, and for a request in absolute form
rewritten for the server it goes to.
-/

namespace Espejismo

open ClientStream List EStateM

/-! ## The program -/

def httpProxyMaxHeaderSize : Nat := 32 * 1024

structure HttpTarget where
  authority : List Char
  method : List Char
  path : List Char
  prebuffer : List UInt8
  prebufferBodyBytes : Nat
  contentLength : Option Nat
  deriving DecidableEq

def fieldValue (name : String) (line : List Char) : Option (List Char) :=
  match splitOnce ':' line with
  | some (written, value) => if eqIgnoreAsciiCase written name.toList then some value else none
  | none => none

def parseContentLength (lines : List (List Char)) : Option Nat :=
  lines.findSome? fun line => (fieldValue "content-length" line).bind (parseU64 <| trim ·)

def transferCodings (value : List Char) : List (List Char) := (value.splitOn ',').map trim

def validateTransferEncoding (lines : List (List Char)) : Except Error Unit :=
  let encodings := (lines.filterMap (fieldValue "transfer-encoding")).flatMap transferCodings
  let hasContentLength := lines.any fun line => (fieldValue "content-length" line).isSome
  if encodings.isEmpty then .ok ()
  else if hasContentLength then
    .error (.msg "HTTP request has both Transfer-Encoding and Content-Length")
  else
    ensure (encodings.length == 1 && encodings.all (eqIgnoreAsciiCase · "chunked".toList))
      "HTTP proxy only supports a single chunked Transfer-Encoding"

def parseAbsoluteHttpTarget (target : List Char) : Except Error (List Char × List Char) :=
  match stripStart "http://".toList target with
  | none => .error (.msg "HTTP proxy only supports CONNECT or absolute http:// requests")
  | some withoutScheme =>
    let authority := withoutScheme.takeWhile (· != '/')
    let path := withoutScheme.dropWhile (· != '/')
    let path := if path.isEmpty then ['/'] else path
    if authority.isEmpty then .error (.msg "empty HTTP authority")
    else .ok (if authority.contains ':' then authority else authority ++ ":80".toList, path)

def hasValidProxyAuth [Codecs] (lines : List (List Char)) (auth : ProxyAuth) : Except Error Bool :=
  match lines.findSome? (fieldValue "proxy-authorization") with
  | none => .ok false
  | some value =>
    let value := trim value
    match (stripStart "Basic ".toList value).or (stripStart "basic ".toList value) with
    | none => .ok false
    | some encoded =>
      match base64Decode (trim encoded) with
      | none => .ok false
      | some decoded =>
        let username := decoded.takeWhile (· != 58)
        let passwordStart := username.length + 1
        -- `then_some` evaluates the slice that its guard is meant to protect
        if decoded.length < passwordStart then .error .panic
        else .ok (auth.matches username (decoded.drop passwordStart))

def isAuthorized [Codecs] (auth : Option ProxyAuth) (lines : List (List Char)) :
    Except Error Bool :=
  match auth with
  | some auth => hasValidProxyAuth lines auth
  | none => .ok true

def rewriteAbsoluteRequest (method path version : List Char) (lines : List (List Char)) :
    List Char :=
  let kept := lines.filter fun line => (fieldValue "proxy-authorization" line).isNone
  method ++ ' ' :: path ++ ' ' :: version ++ "\r\n".toList ++
    kept.flatMap (· ++ "\r\n".toList) ++ "\r\n".toList

def headerLines (text : List Char) : List (List Char) :=
  (Text.splitPair '\r' '\n' text).tail.filter (!·.isEmpty)

def unauthorized : List Char :=
  "HTTP/1.1 407 Proxy Authentication Required\r\nProxy-Authenticate: Basic realm=\"Espejismo\"\r\nContent-Length: 0\r\n\r\n".toList

def parseAndRespond [Codecs] (header : List UInt8) (auth : Option ProxyAuth)
    (overflow : Option (List UInt8)) : EStateM Error ClientStream HttpTarget :=
  match Utf8.decode header with
  | none => throw (.msg "HTTP proxy header is not UTF-8")
  | some text =>
    let requestLine := (Text.splitPair '\r' '\n' text).headD []
    match splitWhitespace requestLine with
    | [] => throw (.msg "missing HTTP method")
    | [_] => throw (.msg "missing HTTP target")
    | method :: target :: parts => do
      let version := parts.headD "HTTP/1.1".toList
      let lines := headerLines text
      if !(← MonadExcept.ofExcept (isAuthorized auth lines)) then
        send (utf8Bytes unauthorized)
        throw (.msg "HTTP proxy authentication failed")
      else if eqIgnoreAsciiCase method "CONNECT".toList then
        send (utf8Bytes "HTTP/1.1 200 Connection Established\r\n\r\n".toList)
        return { authority := target, method, path := [], prebuffer := overflow.getD [],
                 prebufferBodyBytes := 0, contentLength := none }
      else
        MonadExcept.ofExcept (validateTransferEncoding lines)
        let contentLength := parseContentLength lines
        let (authority, path) ← MonadExcept.ofExcept (parseAbsoluteHttpTarget target)
        let rewritten := rewriteAbsoluteRequest method path version lines
        -- what was already read of the body stays as it is
        let extra := overflow.getD []
        return { authority, method, path, prebuffer := utf8Bytes rewritten ++ extra,
                 prebufferBodyBytes := extra.length, contentLength }

def findHeaderEnd (data : List UInt8) (searchFrom : Nat) : Option Nat :=
  if data.length < 4 then none
  else
    let start := min searchFrom (data.length - 4)
    (List.range' start (data.length - 3 - start)).find? fun i => headerEnd.isPrefixOf (data.drop i)

/-- The reads of `accept_http_proxy_with_auth`, up to the end of the header, with
what came after it.  Every read brings at least one byte, so the limit bounds
the reads. -/
def readHeader : (fuel : Nat) → (header : List UInt8) →
    EStateM Error ClientStream (List UInt8 × Option (List UInt8))
  | 0, _ => throw .hang
  | fuel + 1, header => do
    let remaining := httpProxyMaxHeaderSize - header.length
    if remaining = 0 then throw (.msg "HTTP proxy header too large")
    else
    let stream ← get
    match stream.incoming.read (min remaining 2048) with
    | none =>
      match stream.incoming.ending with
      | .closed => throw (.msg "HTTP proxy connection closed before headers complete")
      | .silent => throw (.msg "HTTP proxy header read timeout")
      | .broken => throw .io
    | some (chunk, incoming) =>
      set { stream with incoming }
      let data := header ++ chunk
      match findHeaderEnd data (header.length - 3) with
      | some pos =>
        let headerEnd := pos + 4
        return (data.take headerEnd,
          if headerEnd < data.length then some (data.drop headerEnd) else none)
      | none => readHeader fuel data

def acceptHttpProxyWithAuth [Codecs] (auth : Option ProxyAuth) :
    EStateM Error ClientStream HttpTarget := do
  let (header, overflow) ← readHeader (httpProxyMaxHeaderSize + 1) []
  parseAndRespond header auth overflow

theorem decode_utf8Bytes (text : List Char) : Utf8.decode (utf8Bytes text) = some text :=
  Utf8.decode_encode text

/-! ## The end of the header -/

structure IsHeader (header : List UInt8) : Prop where
  ends : headerEnd <:+ header
  first : ¬headerEnd <:+: header.dropLast

section HeaderEnd

variable {data before chunk : List UInt8} {searchFrom pos : Nat}

theorem infix_iff_drop : l <:+: l' ↔ ∃ i, l <+: l'.drop i := by
  constructor
  · rintro ⟨s, t, rfl⟩
    exact ⟨s.length, by simp⟩
  · rintro ⟨i, h⟩
    exact h.isInfix.trans (drop_suffix i l').isInfix

variable {i : Nat}

theorem length_of_prefix_drop (h : headerEnd <+: data.drop i) : i + 4 ≤ data.length := by
  have hl := h.length_le
  simp only [headerEnd, length_cons, length_drop] at hl
  omega

theorem findHeaderEnd_eq_some (h : findHeaderEnd data searchFrom = some pos) :
    headerEnd <+: data.drop pos ∧ ∀ i, searchFrom ≤ i → i < pos → ¬headerEnd <+: data.drop i := by
  unfold findHeaderEnd at h
  split at h
  · contradiction
  rw [find?_range'_eq_some] at h
  obtain ⟨hpo, hmm, hb⟩ := h
  have hfo := isPrefixOf_iff_prefix.mp hpo
  refine ⟨hfo, fun i hfro hi => ?_⟩
  have hnt := hb i (by omega) hi
  rwa [Bool.not_eq_true', ← Bool.not_eq_true, isPrefixOf_iff_prefix] at hnt

theorem findHeaderEnd_eq_none (h : findHeaderEnd data searchFrom = none) (hi : searchFrom ≤ i) :
    ¬headerEnd <+: data.drop i := by
  intro hm
  have hl := length_of_prefix_drop hm
  unfold findHeaderEnd at h
  rw [if_neg (by omega), find?_range'_eq_none] at h
  have hnt := h i (by omega) (by omega)
  rw [Bool.not_eq_true', ← Bool.not_eq_true, isPrefixOf_iff_prefix] at hnt
  exact hnt hm

theorem not_prefix_drop_append (h : ¬headerEnd <:+: before) (hi : i < before.length - 3) :
    ¬headerEnd <+: (before ++ chunk).drop i := by
  intro hm
  rw [drop_append_of_le_length (by omega)] at hm
  refine h (infix_iff_drop.mpr ⟨i, prefix_of_prefix_length_le hm (prefix_append ..) ?_⟩)
  simp only [headerEnd, length_cons, length_nil, length_drop]
  omega

theorem isHeader_of_findHeaderEnd (hb : ¬headerEnd <:+: before)
    (h : findHeaderEnd (before ++ chunk) (before.length - 3) = some pos) :
    IsHeader ((before ++ chunk).take (pos + 4)) := by
  obtain ⟨hpo, hfi⟩ := findHeaderEnd_eq_some h
  constructor
  · obtain ⟨rest, hrs⟩ := hpo
    rw [take_add, ← hrs]
    exact suffix_append ..
  · rw [infix_iff_drop]
    rintro ⟨i, hi⟩
    have hfr : ((before ++ chunk).take (pos + 4)).dropLast <+: before ++ chunk :=
      calc ((before ++ chunk).take (pos + 4)).dropLast
        _ <+: (before ++ chunk).take (pos + 4) := dropLast_prefix _
        _ <+: before ++ chunk := take_prefix ..
    have hi' : headerEnd <+: (before ++ chunk).drop i := hi.trans (hfr.drop i)
    have hlt : i < pos := by
      have hl := length_of_prefix_drop hi
      rw [length_dropLast, length_take] at hl
      omega
    by_cases hold : i < before.length - 3
    · exact not_prefix_drop_append hb hold hi'
    · exact hfi i (by omega) hlt hi'

theorem not_infix_of_findHeaderEnd (hb : ¬headerEnd <:+: before)
    (h : findHeaderEnd (before ++ chunk) (before.length - 3) = none) :
    ¬headerEnd <:+: before ++ chunk := by
  rw [infix_iff_drop]
  rintro ⟨i, hi⟩
  by_cases hold : i < before.length - 3
  · exact not_prefix_drop_append hb hold hi
  · exact findHeaderEnd_eq_none h (by omega) hi

theorem readHeader_eq_ok (before : List UInt8) (hb : ¬headerEnd <:+: before)
    (h : (readHeader fuel before).run stream = .ok (header, overflow) stream') :
    IsHeader header ∧
      before ++ stream.incoming.bytes = header ++ overflow.getD [] ++ stream'.incoming.bytes := by
  induction fuel generalizing before stream with
  | zero => cases h
  | succ fuel ih =>
    simp only [readHeader] at h
    split at h
    · cases h
    · next hre =>
    simp only [run_bind, run_get] at h
    split at h
    · split at h <;> cases h
    · next chunk incoming hr =>
      have hby := (Incoming.read_eq_some hr (by omega)).1
      rw [hby, ← append_assoc]
      split at h
      · next pos hf =>
        cases h
        refine ⟨isHeader_of_findHeaderEnd hb hf, ?_⟩
        congr 1
        split
        · exact (take_append_drop ..).symm
        · next hle => rw [Option.getD_none, append_nil, take_of_length_le (by omega)]
      · next hf =>
        exact ih _ (not_infix_of_findHeaderEnd hb hf) h

theorem IsHeader.unique (h : IsHeader header)
    (h' : IsHeader header') (he : header ++ rest = header' ++ rest') : header = header' := by
  have shorter {x y xs ys : List UInt8} (hx : IsHeader x) (hy : IsHeader y)
      (he : x ++ xs = y ++ ys) : ¬x.length < y.length := by
    intro hlt
    have hle : x <+: y.dropLast := by
      have hsh := dropLast_prefix y
      refine prefix_of_prefix_length_le (prefix_append x xs)
        (hsh.trans (he ▸ prefix_append y ys)) ?_
      rw [length_dropLast]
      omega
    exact hy.first (hx.ends.isInfix.trans hle.isInfix)
  have h₁ := shorter h h' he
  have h₂ := shorter h' h he.symm
  exact (append_inj he (by omega)).1

theorem readHeader_total {fuel : Nat} {stream : ClientStream} {before : List UInt8}
    (hb : ¬headerEnd <:+: before) (hl : before.length ≤ httpProxyMaxHeaderSize)
    (hfue : httpProxyMaxHeaderSize < before.length + fuel) :
    (∃ header overflow incoming, header.length ≤ httpProxyMaxHeaderSize ∧
      (readHeader fuel before).run stream = .ok (header, overflow) { stream with incoming }) ∨
    ∃ e stream', (readHeader fuel before).run stream = .error e stream' ∧ e ≠ .hang ∧
      ∀ header rest, IsHeader header → before ++ stream.incoming.bytes = header ++ rest →
        httpProxyMaxHeaderSize < header.length := by
  induction fuel generalizing before stream with
  | zero => omega
  | succ fuel ih =>
    have hn {header : List UInt8} (hh : IsHeader header) : ¬header <+: before :=
      fun hle => hb (hh.ends.isInfix.trans hle.isInfix)
    by_cases hre : httpProxyMaxHeaderSize - before.length = 0
    · refine .inr ⟨_, stream, by simp only [readHeader, if_pos hre]; rfl, by simp, ?_⟩
      intro header rest hh he
      by_contra hle
      exact hn hh (prefix_of_prefix_length_le (prefix_append header rest)
        (he ▸ prefix_append ..) (by omega))
    · simp only [readHeader, if_neg hre, run_bind, run_get]
      cases hr : stream.incoming.read (min (httpProxyMaxHeaderSize - before.length) 2048) with
      | none =>
        have hen : ∀ header rest, IsHeader header →
            before ++ stream.incoming.bytes = header ++ rest →
            httpProxyMaxHeaderSize < header.length := by
          intro header rest hh he
          rw [Incoming.read_eq_none hr, append_nil] at he
          exact absurd (he ▸ prefix_append ..) (hn hh)
        cases henn : stream.incoming.ending <;> exact .inr ⟨_, _, rfl, by simp, hen⟩
      | some result =>
        obtain ⟨chunk, incoming⟩ := result
        obtain ⟨hby, hne, hcap⟩ := Incoming.read_eq_some hr (by omega)
        have hpo := length_pos_iff.mpr hne
        have hda : (before ++ chunk).length ≤ httpProxyMaxHeaderSize := by
          rw [length_append]
          omega
        cases hf : findHeaderEnd (before ++ chunk) (before.length - 3) with
        | some =>
          refine .inl ⟨_, _, incoming, ?_, by simp only [hf]; rfl⟩
          rw [length_take]
          omega
        | none =>
          rw [hby, ← append_assoc]
          simp only [hf]
          exact @ih { stream with incoming } (before ++ chunk)
            (not_infix_of_findHeaderEnd hb hf) hda (by simp; omega)

/-- **Segmentation does not matter**: the request is parsed from the bytes up to the first
CR LF CR LF if that ends within the limit, and rejected otherwise; what follows them is
kept, part of it read already. -/
theorem accept_http_proxy_header [Codecs] (auth : Option ProxyAuth) (stream : ClientStream) :
    (∀ header rest, IsHeader header → stream.incoming.bytes = header ++ rest →
      header.length ≤ httpProxyMaxHeaderSize →
      ∃ overflow incoming, overflow.getD [] ++ incoming.bytes = rest ∧
        (acceptHttpProxyWithAuth auth).run stream =
          (parseAndRespond header auth overflow).run { stream with incoming }) ∧
    ((∀ header rest, IsHeader header → stream.incoming.bytes = header ++ rest →
      httpProxyMaxHeaderSize < header.length) →
      ∃ e stream', (acceptHttpProxyWithAuth auth).run stream = .error e stream' ∧ e ≠ .hang) := by
  have htt := @readHeader_total (httpProxyMaxHeaderSize + 1) stream [] (by decide) (by simp)
    (by simp)
  rw [acceptHttpProxyWithAuth, run_bind]
  rcases htt with ⟨found, overflow, incoming, hl, hru⟩ | ⟨e, stream', hru, hha, hn⟩
  · obtain ⟨hfo, hby⟩ := readHeader_eq_ok [] (by decide) hru
    rw [append_assoc] at hby
    rw [hru]
    refine ⟨fun header rest hh he _ => ?_, fun hlo => ?_⟩
    · obtain rfl := hh.unique hfo (he.symm.trans hby)
      exact ⟨overflow, incoming, append_cancel_left (hby.symm.trans he), rfl⟩
    · have := hlo found _ hfo hby
      omega
  · rw [hru]
    refine ⟨fun header rest hh he hle => ?_, fun _ => ⟨e, stream', rfl, hha⟩⟩
    have := hn header rest hh he
    omega

end HeaderEnd

/-! ## Requests in absolute form -/

theorem path_of_parseAbsoluteHttpTarget {written : List Char}
    (h : parseAbsoluteHttpTarget written = .ok (authority, path)) :
    path = ['/'] ∨ path <:+ written := by
  unfold parseAbsoluteHttpTarget at h
  split at h
  · cases h
  · next withoutScheme hst =>
    simp only at h
    split at h
    · cases h
    cases h
    split
    · exact .inl rfl
    · rw [stripStart_eq_some hst]
      exact .inr ((dropWhile_suffix _).trans (suffix_append ..))

variable {stream stream' : ClientStream} {target : HttpTarget} {auth : ProxyAuth}
  {header : List UInt8} {overflow : Option (List UInt8)}

theorem parseAndRespond_absolute [Codecs] {auth : Option ProxyAuth}
    (h : (parseAndRespond header auth overflow).run stream = .ok target stream')
    (hme : eqIgnoreAsciiCase target.method "CONNECT".toList = false) :
    ∃ text version, header = utf8Bytes text ∧ stream' = stream ∧
      (∀ c ∈ target.method ++ target.path ++ version, isWhitespace c = false) ∧
      validateTransferEncoding (headerLines text) = .ok () ∧
      target.contentLength = parseContentLength (headerLines text) ∧
      target.prebuffer = utf8Bytes (rewriteAbsoluteRequest target.method target.path version
        (headerLines text)) ++ overflow.getD [] ∧
      target.prebufferBodyBytes = (overflow.getD []).length := by
  unfold parseAndRespond at h
  split at h
  · cases h
  · next text hte =>
  simp only at h
  split at h
  · cases h
  · cases h
  · next method written parts hpr =>
  cases hau : isAuthorized auth (headerLines text) with
  | error =>
    rw [hau] at h
    cases h
  | ok authorized =>
  rw [hau] at h
  change (if (!authorized) = true then _ else _ : EStateM Error ClientStream _).run stream = _ at h
  split at h
  · obtain ⟨_, _, _, hth⟩ := run_bind_eq_ok.mp h
    cases hth
  split at h
  · next hcn =>
    obtain ⟨_, _, _, hpu⟩ := run_bind_eq_ok.mp h
    cases hpu
    rw [hcn] at hme
    cases hme
  · cases hva : validateTransferEncoding (headerLines text) with
    | error =>
      rw [hva] at h
      cases h
    | ok =>
    cases hp : parseAbsoluteHttpTarget written with
    | error =>
      rw [hva, hp] at h
      cases h
    | ok =>
      rw [hva, hp] at h
      cases h
      have hpt {part : List Char} (hmm : part ∈ method :: written :: parts) :
          ∀ c ∈ part, isWhitespace c = false :=
        isWhitespace_of_mem_splitWhitespace (hpr ▸ hmm)
      refine ⟨text, parts.headD "HTTP/1.1".toList, Utf8.decode_eq_some_iff.mp hte, rfl, ?_,
        hva, rfl, rfl, rfl⟩
      intro c hc
      rcases mem_append.mp hc with hc | hve
      · rcases mem_append.mp hc with hme | hph
        · exact hpt (.head _) c hme
        rcases path_of_parseAbsoluteHttpTarget hp with hro | hsu
        · simp only [hro, mem_singleton] at hph
          rw [hph]
          rfl
        · exact hpt (.tail _ (.head _)) c (hsu.subset hph)
      · cases parts with
        | nil =>
          have hal : ∀ c ∈ "HTTP/1.1".toList, isWhitespace c = false := by simp [isWhitespace]
          exact hal c hve
        | cons => exact hpt (.tail _ (.tail _ (.head _))) c hve

/-! ## The credentials -/

/-- The first field of a header that is named `Proxy-Authorization` has the
scheme `Basic` and the credentials in base64, and a colon is not part of the
user name. -/
def ShowsCredentials [Codecs] (text : List Char) (auth : ProxyAuth) : Prop :=
  ∃ before name value after scheme encoded,
    headerLines text = before ++ (name ++ ':' :: value) :: after ∧
    (∀ line ∈ before, fieldValue "proxy-authorization" line = none) ∧
    ':' ∉ name ∧ eqIgnoreAsciiCase name "proxy-authorization".toList = true ∧
    (scheme = "Basic ".toList ∨ scheme = "basic ".toList) ∧ trim value = scheme ++ encoded ∧
    trim encoded = base64Encode (utf8Bytes (auth.username.toList ++ ':' :: auth.password.toList)) ∧
    ':' ∉ auth.username.toList

theorem fieldValue_eq_some (h : fieldValue name line = some value) :
    ∃ written, line = written ++ ':' :: value ∧ ':' ∉ written ∧
      eqIgnoreAsciiCase written name.toList = true := by
  unfold fieldValue at h
  split at h
  · next written rest hsp =>
    split at h
    · next hna =>
      cases h
      obtain ⟨hli, hco⟩ := splitOnce_eq_some hsp
      exact ⟨written, hli, hco, hna⟩
    · contradiction
  · contradiction

theorem utf8Bytes_append (text text' : List Char) :
    utf8Bytes (text ++ text') = utf8Bytes text ++ utf8Bytes text' :=
  flatMap_append

theorem eq_takeWhile_append_drop {l : List UInt8} (h : (l.takeWhile (· != c)).length < l.length) :
    l = l.takeWhile (· != c) ++ c :: l.drop ((l.takeWhile (· != c)).length + 1) := by
  induction l with
  | nil => cases h
  | cons x l ih =>
    by_cases hx : x = c
    · simp [hx]
    · simp only [takeWhile_cons, bne_iff_ne.mpr hx, if_true, length_cons,
        Nat.add_lt_add_iff_right] at h ⊢
      rw [drop_succ_cons, cons_append, ← ih h]

theorem eq_credentials_of_matches (hl : (decoded.takeWhile (· != 58)).length < decoded.length)
    (h : auth.matches (decoded.takeWhile (· != 58))
      (decoded.drop ((decoded.takeWhile (· != 58)).length + 1)) = true) :
    decoded = utf8Bytes (auth.username.toList ++ ':' :: auth.password.toList) ∧
      ':' ∉ auth.username.toList := by
  obtain ⟨hus, hps⟩ := ProxyAuth.matches_eq_true.mp h
  have hco : utf8Bytes (':' :: auth.password.toList) = 58 :: utf8Bytes auth.password.toList :=
    rfl
  constructor
  · rw [utf8Bytes_append, hco, ← hus, ← hps]
    exact eq_takeWhile_append_drop hl
  · intro hmm
    have hbt : (58 : UInt8) ∈ utf8Bytes auth.username.toList :=
      mem_flatMap.mpr ⟨':', hmm, by decide⟩
    rw [← hus] at hbt
    simpa using all_eq_true.mp all_takeWhile _ hbt

theorem showsCredentials_of_hasValidProxyAuth [Codecs]
    (h : hasValidProxyAuth (headerLines text) auth = .ok true) : ShowsCredentials text auth := by
  unfold hasValidProxyAuth at h
  split at h
  · contradiction
  · next value hf =>
  simp only at h
  split at h
  · contradiction
  · next encoded hsc =>
  split at h
  · contradiction
  · next decoded hdc =>
  split at h
  · contradiction
  · next hl =>
    obtain ⟨hde, hco⟩ := eq_credentials_of_matches (by omega) (Except.ok.inj h)
    obtain ⟨before, line, after, hln, hli, hn⟩ := findSome?_eq_some_iff.mp hf
    obtain ⟨name, rfl, hna, hca⟩ := fieldValue_eq_some hli
    have hto := Codecs.base64Encode_of_decode hdc
    rw [hde] at hto
    rw [Option.or_eq_some_iff] at hsc
    rcases hsc with hba | ⟨-, hba⟩
    · exact ⟨before, name, value, after, _, encoded, hln, hn, hna, hca, .inl rfl,
        stripStart_eq_some hba, hto, hco⟩
    · exact ⟨before, name, value, after, _, encoded, hln, hn, hna, hca, .inr rfl,
        stripStart_eq_some hba, hto, hco⟩

theorem parseAndRespond_eq_ok [Codecs]
    (h : (parseAndRespond header (some auth) overflow).run stream = .ok target stream') :
    ∃ text, header = utf8Bytes text ∧ ShowsCredentials text auth := by
  unfold parseAndRespond at h
  split at h
  · cases h
  · next text hte =>
    refine ⟨text, Utf8.decode_eq_some_iff.mp hte, ?_⟩
    simp only at h
    split at h
    · cases h
    · cases h
    · next method target parts hpr =>
      apply showsCredentials_of_hasValidProxyAuth
      cases hvl : hasValidProxyAuth (headerLines text) auth with
      | error =>
        rw [isAuthorized, hvl] at h
        cases h
      | ok authorized =>
        cases authorized with
        | true => rfl
        | false =>
          rw [isAuthorized, hvl] at h
          change (send (utf8Bytes unauthorized) >>= fun _ => throw _ :
            EStateM Error ClientStream HttpTarget).run stream = _ at h
          obtain ⟨_, _, _, hth⟩ := run_bind_eq_ok.mp h
          cases hth

theorem acceptHttpProxyWithAuth_eq_ok [Codecs]
    (h : (acceptHttpProxyWithAuth (some auth)).run stream = .ok target stream') :
    ∃ text rest, IsHeader (utf8Bytes text) ∧ stream.incoming.bytes = utf8Bytes text ++ rest ∧
      ShowsCredentials text auth := by
  obtain ⟨⟨header, overflow⟩, s₁, hr, hp⟩ := run_bind_eq_ok.mp h
  obtain ⟨text, rfl, hsw⟩ := parseAndRespond_eq_ok hp
  obtain ⟨hh, hby⟩ := readHeader_eq_ok [] (by decide) hr
  exact ⟨text, _, hh, by rw [← append_assoc]; exact hby, hsw⟩

end Espejismo
