import Espejismo.Crypto.Psk
import Espejismo.Data.Text
import Espejismo.Data.Utf8

/-!
# Underlay.Upgrade

The upgrade request of the WebSocket underlay (`underlay.rs`):
`acceptWebsocketUnderlay` reads it off the connection byte by byte, and
`websocketUpgradeHeaderMatches` judges the bytes of a peek.

Both look at the same header of the same bytes and differ in what they ask around
it: the first in its length, the second in what came with it
(`acceptWebsocketUnderlay_isOk_iff`, `websocketUpgradeHeaderMatches_iff`).
-/

namespace Espejismo.Underlay

open Text

/-! ## The functions of the source -/

def headerLimit : Nat := 16 * 1024

structure HttpHeaders where
  requestOrStatus : List Char
  fields : List (List Char × List Char)
  deriving DecidableEq

def isHttpToken (c : Char) : Bool := c.isAlphanum || "!#$%&'*+-.^_`|~".toList.contains c

def parseFields : List (List Char) → List (List Char × List Char) →
    Except Error (List (List Char × List Char))
  | [], fields => .ok fields
  | line :: lines, fields =>
    if line.isEmpty then .ok fields
    else
      match splitOnce ':' line with
      | none => .error (.msg "malformed websocket HTTP header field")
      | some (name, value) => do
        ensure (!name.isEmpty && name.all isHttpToken) "invalid websocket HTTP header name"
        let key := toAsciiLowercase name
        ensure (fields.lookup key).isNone "duplicate websocket HTTP header field"
        let value := trim value
        ensure (!value.any fun c => c == '\r' || c == '\n') "invalid websocket HTTP header value"
        parseFields lines (fields ++ [(key, value)])

def parseHttpHeaders (text : List Char) : Except Error HttpHeaders :=
  match splitPair '\r' '\n' text with
  | [] => .error (.msg "websocket HTTP header missing request/status line")
  | requestOrStatus :: lines => do
    let fields ← parseFields lines []
    return { requestOrStatus, fields }

def headerContains (fields : List (List Char × List Char)) (key needle : String) : Bool :=
  match fields.lookup key.toList with
  | some value => (value.splitOn ',').any fun part => eqIgnoreAsciiCase (trim part) needle.toList
  | none => false

def validWebsocketKey [Codecs] (key : List Char) : Bool :=
  match base64Decode key with
  | some decoded => decoded.length == 16
  | none => false

def websocketRequestMatches [Codecs] (headers : HttpHeaders) (expectedPath : List Char) : Bool :=
  let parts := splitWhitespace headers.requestOrStatus
  parts.getD 0 [] == "GET".toList && parts.getD 1 [] == expectedPath &&
    parts.getD 2 [] == "HTTP/1.1".toList && (parts.drop 3).isEmpty &&
    headerContains headers.fields "upgrade" "websocket" &&
    headerContains headers.fields "connection" "upgrade" &&
    (headers.fields.lookup "sec-websocket-version".toList == some "13".toList) &&
    (headers.fields.lookup "sec-websocket-key".toList).any validWebsocketKey

/-- The loop of `read_http_headers`, on the bytes the peer sends: one byte at a
time until the end of the header stands behind them. -/
def readHttpHeader (buf : List UInt8) : List UInt8 → Except Error (List UInt8 × List UInt8)
  | [] =>
    if headerEnd <:+ buf then .ok (buf, [])
    else if buf.length < headerLimit then .error .eof
    else .error (.msg "websocket HTTP header too large")
  | byte :: input =>
    if headerEnd <:+ buf then .ok (buf, byte :: input)
    else if buf.length < headerLimit then readHttpHeader (buf ++ [byte]) input
    else .error (.msg "websocket HTTP header too large")

def readHttpHeaders (input : List UInt8) : Except Error (HttpHeaders × List UInt8) := do
  let (buf, input) ← readHttpHeader [] input
  match Utf8.decode buf with
  | none => throw (.msg "websocket HTTP header is not UTF-8")
  | some text =>
    let headers ← parseHttpHeaders text
    return (headers, input)

/-- `accept_websocket_underlay` up to its answer: the key of the request, and
what follows the request. -/
def acceptWebsocketUnderlay [Codecs] (expectedPath : List Char) (input : List UInt8) :
    Except Error (List Char × List UInt8) := do
  let (request, input) ← readHttpHeaders input
  ensure (websocketRequestMatches request expectedPath) "invalid websocket upgrade request"
  match request.fields.lookup "sec-websocket-key".toList with
  | none => throw (.msg "websocket request missing Sec-WebSocket-Key")
  | some key => return (key, input)

def blankLine : List Char := ['\r', '\n', '\r', '\n']

def textMatches [Codecs] (text expectedPath : List Char) : Bool :=
  match parseHttpHeaders text with
  | .ok headers => websocketRequestMatches headers expectedPath
  | .error _ => false

def websocketUpgradeHeaderMatches [Codecs] (header : List UInt8) (expectedPath : List Char) :
    Bool :=
  match Utf8.decode header with
  | none => false
  | some text =>
    match through blankLine text with
    | none => false
    | some head => textMatches head expectedPath

/-! ## The header of the bytes -/

theorem encode_blankLine : Utf8.encode blankLine = headerEnd := by decide +kernel

theorem toNat_blankLine : ∀ c ∈ blankLine, c.toNat < 128 := by simp [blankLine]

theorem endsAtFirst_encode (h : EndsAtFirst blankLine head) :
    EndsAtFirst headerEnd (Utf8.encode head) := by
  obtain ⟨⟨line, rfl⟩, hf⟩ := h
  have hen : Utf8.encode (line ++ blankLine) = Utf8.encode line ++ headerEnd := by
    rw [← encode_blankLine, Utf8.encode, Utf8.encode, Utf8.encode, List.flatMap_append]
  have hdr : (Utf8.encode line ++ headerEnd).dropLast =
      Utf8.encode (line ++ blankLine).dropLast := by
    rw [List.dropLast_append_of_ne_nil (by decide), List.dropLast_append_of_ne_nil (by decide),
      Utf8.encode, Utf8.encode, List.flatMap_append]
    rfl
  rw [hen]
  refine ⟨List.suffix_append .., fun hin => hf ?_⟩
  rw [hdr] at hin
  exact Utf8.isInfix_of_encode toNat_blankLine hin

variable {header : List UInt8} {expectedPath : List Char}

theorem exists_head_of_endsAtFirst (hpr : header <+: Utf8.encode text)
    (h : EndsAtFirst headerEnd header) :
    ∃ head, through blankLine text = some head ∧ Utf8.encode head = header := by
  have hin : Utf8.encode blankLine <:+: Utf8.encode text := by
    exact h.ends.isInfix.trans hpr.isInfix
  obtain ⟨head, hhd⟩ := exists_through (by decide) (Utf8.isInfix_of_encode toNat_blankLine hin)
  obtain ⟨hfr, he⟩ := through_eq_some (by decide) hhd
  have hb : Utf8.encode head <+: Utf8.encode text := by
    obtain ⟨rest, rfl⟩ := hfr
    rw [Utf8.encode, Utf8.encode, List.flatMap_append]
    exact List.prefix_append ..
  exact ⟨head, hhd, (endsAtFirst_encode he).eq_of_isPrefix h hb hpr⟩

/-! ## Reading the header -/

theorem not_infix_of_not_suffix (he : ¬headerEnd <:+ buf)
    (hf : ¬headerEnd <:+: buf.dropLast) : ¬headerEnd <:+: buf := by
  rcases List.eq_nil_or_concat buf with rfl | ⟨init, byte, rfl⟩
  · decide
  rw [List.concat_eq_append] at *
  rw [List.dropLast_concat] at hf
  rw [List.infix_concat_iff, not_or]
  exact ⟨he, hf⟩

theorem of_readHttpHeader (h : readHttpHeader buf input = .ok (header, rest))
    (hl : buf.length ≤ headerLimit) (hf : ¬headerEnd <:+: buf.dropLast) :
    header ++ rest = buf ++ input ∧ EndsAtFirst headerEnd header ∧ header.length ≤ headerLimit := by
  induction input generalizing buf with
  | nil =>
    unfold readHttpHeader at h
    split at h
    · next he =>
      obtain ⟨rfl, rfl⟩ := Prod.mk.inj (Except.ok.inj h)
      exact ⟨rfl, ⟨he, hf⟩, hl⟩
    · split at h <;> contradiction
  | cons byte input ih =>
    unfold readHttpHeader at h
    split at h
    · next he =>
      obtain ⟨rfl, rfl⟩ := Prod.mk.inj (Except.ok.inj h)
      exact ⟨rfl, ⟨he, hf⟩, hl⟩
    · next he =>
      split at h
      · next hro =>
        have hno : ¬headerEnd <:+: (buf ++ [byte]).dropLast := by
          rw [List.dropLast_concat]
          exact not_infix_of_not_suffix he hf
        have hl' : (buf ++ [byte]).length ≤ headerLimit := by
          rw [List.length_append]
          exact hro
        obtain ⟨hb, hh⟩ := ih h hl' hno
        exact ⟨by simpa using hb, hh⟩
      · contradiction

theorem readHttpHeader_append (buf : List UInt8) (h : EndsAtFirst headerEnd (buf ++ more))
    (hl : (buf ++ more).length ≤ headerLimit) (rest : List UInt8) :
    readHttpHeader buf (more ++ rest) = .ok (buf ++ more, rest) := by
  induction more generalizing buf with
  | nil =>
    rw [List.append_nil] at h ⊢
    cases rest <;> exact if_pos h.ends
  | cons byte more ih =>
    have hnt : ¬headerEnd <:+ buf := by
      intro he
      refine h.first (he.isInfix.trans ?_)
      rw [List.dropLast_append_of_ne_nil (by simp)]
      exact (List.prefix_append ..).isInfix
    have hro : buf.length < headerLimit := by
      simp only [List.length_append, List.length_cons] at hl
      omega
    rw [List.append_cons] at h hl ⊢
    rw [List.cons_append, readHttpHeader, if_neg hnt, if_pos hro]
    exact ih _ h hl

/-- The header at the front of the bytes, which is text and asks for the
upgrade. -/
structure IsUpgrade [Codecs] (expectedPath : List Char) (bytes header : List UInt8) : Prop where
  front : header <+: bytes
  ends : EndsAtFirst headerEnd header
  request : ∃ text, header = Utf8.encode text ∧ textMatches text expectedPath = true

theorem IsUpgrade.unique [Codecs] (h : IsUpgrade expectedPath bytes header)
    (h' : IsUpgrade expectedPath bytes header') : header = header' :=
  h.ends.eq_of_isPrefix h'.ends h.front h'.front

theorem IsUpgrade.of_isPrefix [Codecs] (h : IsUpgrade expectedPath view header)
    (hvi : view <+: bytes) : IsUpgrade expectedPath bytes header :=
  ⟨h.front.trans hvi, h.ends, h.request⟩

theorem lookup_key_of_matches [Codecs] (h : websocketRequestMatches headers expectedPath = true) :
    ∃ key, headers.fields.lookup "sec-websocket-key".toList = some key := by
  have hke := (Bool.and_eq_true_iff.mp h).2
  cases hlo : headers.fields.lookup "sec-websocket-key".toList with
  | none =>
    rw [hlo] at hke
    contradiction
  | some key => exact ⟨key, rfl⟩

/-- **What is accepted**: an upgrade whose header is within the limit. -/
theorem acceptWebsocketUnderlay_isOk_iff [Codecs] (expectedPath : List Char) (input : List UInt8) :
    (acceptWebsocketUnderlay expectedPath input).isOk = true ↔
      ∃ header, IsUpgrade expectedPath input header ∧ header.length ≤ headerLimit := by
  constructor
  · intro h
    cases hru : acceptWebsocketUnderlay expectedPath input with
    | error =>
      rw [hru] at h
      contradiction
    | ok =>
      unfold acceptWebsocketUnderlay at hru
      rw [bind_eq_ok] at hru
      obtain ⟨⟨request, rest⟩, hr, hru⟩ := hru
      obtain ⟨hm, -⟩ := ensure_bind_eq_ok.mp hru
      unfold readHttpHeaders at hr
      rw [bind_eq_ok] at hr
      obtain ⟨⟨header, rest'⟩, hh, hr⟩ := hr
      obtain ⟨hb, he, hl⟩ := of_readHttpHeader hh (Nat.zero_le _) (by decide)
      refine ⟨header, ⟨⟨rest', hb⟩, he, ?_⟩, hl⟩
      cases hd : Utf8.decode header with
      | none =>
        simp only [hd] at hr
        contradiction
      | some text =>
        simp only [hd] at hr
        rw [bind_eq_ok] at hr
        obtain ⟨headers, hp, hr⟩ := hr
        obtain ⟨rfl, rfl⟩ := Prod.mk.inj (Except.ok.inj hr)
        refine ⟨text, Utf8.decode_eq_some_iff.mp hd, ?_⟩
        simp [textMatches, hp, hm]
  · rintro ⟨header, ⟨⟨rest, rfl⟩, he, text, rfl, hm⟩, hl⟩
    have hh : readHttpHeader [] (Utf8.encode text ++ rest) = .ok (Utf8.encode text, rest) :=
      readHttpHeader_append [] he hl rest
    unfold textMatches at hm
    cases hp : parseHttpHeaders text with
    | error =>
      rw [hp] at hm
      contradiction
    | ok =>
      simp only [hp] at hm
      obtain ⟨key, hke⟩ := lookup_key_of_matches hm
      simp only [acceptWebsocketUnderlay, readHttpHeaders, hh, Utf8.decode_encode, hp,
        hm, hke, ensure, bind, Except.bind, pure, Except.pure, if_true, Except.toBool]

/-- **What a peek shows**: an upgrade, if all that was peeked is text. -/
theorem websocketUpgradeHeaderMatches_iff [Codecs] (view : List UInt8) (expectedPath : List Char) :
    websocketUpgradeHeaderMatches view expectedPath = true ↔
      (Utf8.decode view).isSome = true ∧ ∃ header, IsUpgrade expectedPath view header := by
  unfold websocketUpgradeHeaderMatches
  cases hd : Utf8.decode view with
  | none => simp
  | some text =>
    obtain rfl := Utf8.decode_eq_some_iff.mp hd
    simp only [Option.isSome_some, true_and]
    constructor
    · intro h
      cases ht : through blankLine text with
      | none => simp [ht] at h
      | some head =>
        simp only [ht] at h
        obtain ⟨hpr, he⟩ := through_eq_some (by decide) ht
        obtain ⟨rest, rfl⟩ := hpr
        refine ⟨Utf8.encode head, ?_, endsAtFirst_encode he, head, rfl, h⟩
        rw [Utf8.encode, Utf8.encode, List.flatMap_append]
        exact List.prefix_append ..
    · rintro ⟨header, hfr, he, text', rfl, hm⟩
      obtain ⟨head, ht, hhd⟩ := exists_head_of_endsAtFirst hfr he
      have hte : head = text' := by
        have hd' := Utf8.decode_encode head
        rw [hhd, Utf8.decode_encode] at hd'
        exact (Option.some.inj hd').symm
      simp [ht, hte, hm]

end Espejismo.Underlay
