import Mathlib.Data.List.TakeWhile
import Espejismo.Ingress.HttpProxy

/-!
# Ingress.HttpFraming

How a server may read the length of the body from the header that the HTTP proxy
forwards.

The proxy checks `Transfer-Encoding` and takes the length from the first
`Content-Length` it can read, both under their plain names in the lines between
CR LF, and forwards every line as it is.  Servers also accept blanks around a name
and a bare line feed.
-/

namespace Espejismo

open ClientStream
open scoped Standard

/-! ## Readings of a header -/

structure Reader where
  trimsNames : Bool
  bareLf : Bool
  deriving DecidableEq

namespace Reader

/-- The reading of the proxy: names as they are, in the lines between CR LF. -/
def plain : Reader := ⟨false, false⟩

def fieldLines (reader : Reader) (lines : List (List Char)) : List (List Char) :=
  (if reader.bareLf then lines.flatMap (·.splitOn '\n') else lines).takeWhile (!·.isEmpty)

def name (reader : Reader) (written : List Char) : List Char :=
  if reader.trimsNames then trimMatches (fun c => c == ' ' || c == '\t') written else written

def values (reader : Reader) (name : String) (lines : List (List Char)) : List (List Char) :=
  (reader.fieldLines lines).filterMap fun line =>
    match splitOnce ':' line with
    | some (written, value) =>
      if eqIgnoreAsciiCase (reader.name written) name.toList then some value else none
    | none => none

def codings (reader : Reader) (lines : List (List Char)) : List (List Char) :=
  (reader.values "transfer-encoding" lines).flatMap transferCodings

def lengths (reader : Reader) (lines : List (List Char)) : List (Option Nat) :=
  (reader.values "content-length" lines).map fun value => parseU64 (trim value)

end Reader

/-- A body without a declared end, in chunks, or of a length. -/
inductive Framing where
  | undeclared
  | chunked
  | length (n : Nat)
  deriving DecidableEq

/-- What a reader makes of the lines, if they are not ambiguous to it. -/
def Reader.framing (reader : Reader) (lines : List (List Char)) : Option Framing :=
  match reader.codings lines, reader.lengths lines with
  | [], [] => some .undeclared
  | [coding], [] => if eqIgnoreAsciiCase coding "chunked".toList then some .chunked else none
  | [], some n :: lengths => if ∀ length ∈ lengths, length = some n then some (.length n) else none
  | _, _ => none

def forwardedLines (text : List Char) : List (List Char) :=
  (headerLines text).filter fun line => (fieldValue "proxy-authorization" line).isNone

/-- The lines that the client sent are not ambiguous to any reader, and one that
finds a length in them finds the one they plainly have. -/
def PlainFraming (text : List Char) : Prop :=
  ∀ reader : Reader,
    reader.framing (forwardedLines text) = some .undeclared ∨
    reader.framing (forwardedLines text) = some .chunked ∨
    ∃ n, reader.framing (forwardedLines text) = some (.length n) ∧
      Reader.plain.framing (forwardedLines text) = some (.length n)

/-! ## A clear request -/

/-- What a reader must not find in a request whose body the proxy copies with a
length. -/
structure Clear (reader : Reader) (length : Option Nat) (lines : List (List Char)) : Prop where
  notBoth : reader.values "transfer-encoding" lines = [] ∨ reader.values "content-length" lines = []
  chunked : reader.values "transfer-encoding" lines = [] ∨
    ∃ coding, reader.codings lines = [coding] ∧ eqIgnoreAsciiCase coding "chunked".toList = true
  same : ∀ n ∈ reader.lengths lines, ∀ n' ∈ reader.lengths lines, n = n'
  proxys : ∀ n ∈ reader.lengths lines, n = length ∧ n ≠ none

def HttpTarget.rewritten (target : HttpTarget) : List UInt8 :=
  target.prebuffer.take (target.prebuffer.length - target.prebufferBodyBytes)

/-- No reader finds an ambiguous framing, or another than the proxy uses, in the
request that is forwarded. -/
def HttpTarget.FramingClear (target : HttpTarget) : Prop :=
  ∃ request, target.rewritten = utf8Bytes request ∧
    ∀ reader, Clear reader target.contentLength (Text.splitPair '\r' '\n' request).tail

/-! ## Reading the forwarded lines -/

theorem takeWhile_append_of_head (h : p x = false) : (l ++ x :: r).takeWhile p = l.takeWhile p := by
  induction l with
  | nil => simp [h]
  | cons y l ih => simp [List.takeWhile_cons, ih]

theorem Reader.fieldLines_append (reader : Reader) (lines : List (List Char)) :
    reader.fieldLines (lines ++ [[], []]) = reader.fieldLines lines := by
  unfold fieldLines
  split
  · rw [List.flatMap_append]
    exact takeWhile_append_of_head rfl
  · exact takeWhile_append_of_head rfl

theorem not_infix_requestLine (h : ∀ c ∈ method ++ path ++ version, isWhitespace c = false) :
    ¬['\r', '\n'] <:+: method ++ ' ' :: path ++ ' ' :: version := by
  intro hin
  have hme : '\n' ∈ method ++ ' ' :: path ++ ' ' :: version := hin.subset (by decide)
  have hlf : '\n' ∈ method ++ path ++ version := by simpa using hme
  exact absurd (h _ hlf) (by decide)

theorem splitPair_rewriteAbsoluteRequest (text : List Char)
    (h : ∀ c ∈ method ++ path ++ version, isWhitespace c = false) :
    (Text.splitPair '\r' '\n'
      (rewriteAbsoluteRequest method path version (headerLines text))).tail =
      forwardedLines text ++ [[], []] := by
  have hli : ∀ line ∈ (method ++ ' ' :: path ++ ' ' :: version) :: forwardedLines text,
      ¬['\r', '\n'] <:+: line := by
    intro line hme
    rcases List.mem_cons.mp hme with rfl | hme
    · exact not_infix_requestLine h
    · have hlin := (List.mem_filter.mp (List.mem_filter.mp hme).1).1
      exact Text.not_infix_of_mem_splitPair (List.mem_of_mem_tail hlin)
  have hsp := Text.splitPair_flatMap (by decide) hli "\r\n".toList
  have hrw : rewriteAbsoluteRequest method path version (headerLines text) =
      ((method ++ ' ' :: path ++ ' ' :: version) :: forwardedLines text).flatMap
        (· ++ ['\r', '\n']) ++ "\r\n".toList := by
    simp [rewriteAbsoluteRequest, forwardedLines]
  rw [hrw, hsp]
  rfl

theorem Reader.framing_append (reader : Reader) (lines : List (List Char)) :
    reader.framing (lines ++ [[], []]) = reader.framing lines := by
  simp only [framing, codings, lengths, values, fieldLines_append]

/-! ## Clear readings -/

section Readings

variable {reader : Reader} {lines : List (List Char)} {length : Option Nat}

theorem codings_eq_nil :
    reader.codings lines = [] ↔ reader.values "transfer-encoding" lines = [] := by
  rw [Reader.codings, List.flatMap_eq_nil_iff]
  constructor
  · intro h
    rw [List.eq_nil_iff_forall_not_mem]
    intro value hva
    simpa [transferCodings] using h value hva
  · intro h
    simp [h]

theorem lengths_eq_nil :
    reader.lengths lines = [] ↔ reader.values "content-length" lines = [] :=
  List.map_eq_nil_iff

theorem framing_cases (h : reader.framing lines = some framing) :
    (framing = .undeclared ∧ reader.codings lines = [] ∧ reader.lengths lines = []) ∨
    (framing = .chunked ∧ reader.lengths lines = [] ∧
      ∃ coding, reader.codings lines = [coding] ∧
        eqIgnoreAsciiCase coding "chunked".toList = true) ∨
    (∃ n lengths, framing = .length n ∧ reader.codings lines = [] ∧
      reader.lengths lines = some n :: lengths ∧ ∀ length ∈ lengths, length = some n) := by
  unfold Reader.framing at h
  split at h
  · next hc hle =>
    cases h
    exact .inl ⟨rfl, hc, hle⟩
  · next coding hc hle =>
    split at h
    · next hch =>
      cases h
      exact .inr (.inl ⟨rfl, hle, coding, hc, hch⟩)
    · cases h
  · next n lengths hc hle =>
    split at h
    · next ha =>
      cases h
      exact .inr (.inr ⟨n, lengths, rfl, hc, hle, ha⟩)
    · cases h
  · cases h

theorem lengths_of_framing (h : reader.framing lines = some framing)
    (hfr : ∀ n, framing ≠ .length n) : reader.lengths lines = [] := by
  obtain ⟨-, -, hle⟩ | ⟨-, hle, -⟩ | ⟨n, -, he, -⟩ := framing_cases h
  · exact hle
  · exact hle
  · exact absurd he (hfr n)

theorem Clear.framing (h : Clear reader length lines) :
    reader.framing lines = some .undeclared ∨ reader.framing lines = some .chunked ∨
      ∃ n, reader.framing lines = some (.length n) ∧ length = some n := by
  unfold Reader.framing
  cases hle : reader.lengths lines with
  | nil =>
    rcases h.chunked with hn | ⟨coding, hco, hch⟩
    · rw [codings_eq_nil.mpr hn]
      exact .inl rfl
    · rw [hco]
      simp only [if_pos hch]
      exact .inr (.inl trivial)
  | cons first rest =>
    have hn : reader.values "transfer-encoding" lines = [] := by
      refine h.notBoth.resolve_right fun hni => ?_
      rw [lengths_eq_nil.mpr hni] at hle
      cases hle
    have hme : first ∈ reader.lengths lines := by
      rw [hle]
      exact .head _
    obtain ⟨rfl, hso⟩ := h.proxys first hme
    obtain ⟨n, rfl⟩ := Option.ne_none_iff_exists'.mp hso
    have ha : ∀ length ∈ rest, length = some n := by
      intro length hln
      refine h.same _ ?_ _ hme
      rw [hle]
      exact .tail _ hln
    rw [codings_eq_nil.mpr hn]
    simp only [if_pos ha]
    exact .inr (.inr ⟨n, rfl, rfl⟩)

theorem clear_of_framing
    (h : reader.framing lines = some .undeclared ∨ reader.framing lines = some .chunked ∨
      ∃ n, reader.framing lines = some (.length n) ∧ length = some n) :
    Clear reader length lines := by
  have hnl (hle : reader.lengths lines = [])
      (hch : reader.values "transfer-encoding" lines = [] ∨ ∃ coding,
        reader.codings lines = [coding] ∧ eqIgnoreAsciiCase coding "chunked".toList = true) :
      Clear reader length lines :=
    ⟨.inr (lengths_eq_nil.mp hle), hch, by simp [hle], by simp [hle]⟩
  rcases h with h | h | ⟨n, h, rfl⟩
  · obtain ⟨-, hc, hle⟩ | ⟨he, -⟩ | ⟨n, -, he, -⟩ := framing_cases h
    · exact hnl hle (.inl (codings_eq_nil.mp hc))
    · cases he
    · cases he
  · obtain ⟨he, -⟩ | ⟨-, hle, hch⟩ | ⟨n, -, he, -⟩ := framing_cases h
    · cases he
    · exact hnl hle (.inr hch)
    · cases he
  · obtain ⟨he, -⟩ | ⟨he, -⟩ | ⟨m, rest, he, hc, hle, ha⟩ := framing_cases h
    · cases he
    · cases he
    · cases he
      have hln : ∀ length ∈ reader.lengths lines, length = some n := by
        intro length hln
        rw [hle] at hln
        rcases List.mem_cons.mp hln with rfl | hln
        · rfl
        · exact ha length hln
      have hn := codings_eq_nil.mp hc
      refine ⟨.inl hn, .inl hn, fun l hl l' hl' => ?_, fun l hl => ?_⟩
      · rw [hln l hl, hln l' hl']
      · rw [hln l hl]
        exact ⟨rfl, by simp⟩

end Readings

/-! ## The length the proxy uses -/

theorem fieldValue_content_length (h : fieldValue "proxy-authorization" line ≠ none) :
    fieldValue "content-length" line = none := by
  unfold fieldValue at h ⊢
  cases hsp : splitOnce ':' line with
  | none => rfl
  | some =>
    simp only [hsp] at h ⊢
    split at h
    · next hna =>
      simp only [eqIgnoreAsciiCase, beq_iff_eq] at hna ⊢
      rw [hna]
      rfl
    · exact absurd rfl h

theorem plain_values (text : List Char) :
    Reader.plain.values "content-length" (forwardedLines text) =
      (headerLines text).filterMap (fieldValue "content-length") := by
  have hli : Reader.plain.fieldLines (forwardedLines text) = forwardedLines text :=
    List.takeWhile_eq_self_iff.mpr fun line hlin =>
      (List.mem_filter.mp (List.mem_filter.mp hlin).1).2
  rw [Reader.values, hli, forwardedLines, List.filterMap_filter]
  apply List.filterMap_congr
  intro line _
  split
  · rfl
  · next hdr => exact (fieldValue_content_length (by simpa using hdr)).symm

theorem findSome?_filterMap (f : α → Option β) (g : β → Option γ) (l : List α) :
    (l.filterMap f).findSome? g = l.findSome? fun x => (f x).bind g := by
  induction l with
  | nil => rfl
  | cons x l ih =>
    cases hx : f x with
    | none => simp [hx, ih]
    | some => simp [hx, List.findSome?_cons, ih]

theorem parseContentLength_eq (text : List Char) :
    parseContentLength (headerLines text) =
      (Reader.plain.lengths (forwardedLines text)).findSome? id := by
  rw [Reader.lengths, plain_values, List.findSome?_map, findSome?_filterMap]
  rfl

variable {text : List Char}

theorem parseContentLength_of_plain
    (h : Reader.plain.framing (forwardedLines text) = some (.length n)) :
    parseContentLength (headerLines text) = some n := by
  obtain ⟨he, -⟩ | ⟨he, -⟩ | ⟨m, rest, he, -, hle, -⟩ := framing_cases h
  · cases he
  · cases he
  · cases he
    rw [parseContentLength_eq, hle]
    rfl

theorem plain_lengths_ne_nil (h : parseContentLength (headerLines text) = some n) :
    Reader.plain.lengths (forwardedLines text) ≠ [] := by
  intro hni
  rw [parseContentLength_eq, hni] at h
  cases h

theorem clear_iff_plainFraming (text : List Char) :
    (∀ reader, Clear reader (parseContentLength (headerLines text)) (forwardedLines text)) ↔
      PlainFraming text := by
  constructor
  · intro hcl reader
    refine (hcl reader).framing.imp_right (Or.imp_right ?_)
    rintro ⟨n, hrd, hln⟩
    refine ⟨n, hrd, ?_⟩
    have hso := plain_lengths_ne_nil hln
    obtain hp | hp | ⟨m, hp, hm⟩ := (hcl Reader.plain).framing
    · exact absurd (lengths_of_framing hp (by simp)) hso
    · exact absurd (lengths_of_framing hp (by simp)) hso
    · rw [hln] at hm
      cases hm
      exact hp
  · intro hp reader
    apply clear_of_framing
    refine (hp reader).imp_right (Or.imp_right ?_)
    rintro ⟨n, hrd, hln⟩
    exact ⟨n, hrd, parseContentLength_of_plain hln⟩

theorem clear_congr (h : reader.framing lines = reader.framing lines')
    (hcl : Clear reader length lines) : Clear reader length lines' := by
  apply clear_of_framing
  rw [← h]
  exact hcl.framing

theorem utf8Bytes_injective (h : utf8Bytes text = utf8Bytes text') : text = text' := by
  have hte := decode_utf8Bytes text
  rw [h, decode_utf8Bytes] at hte
  exact (Option.some.inj hte).symm

section

variable {text : List Char} {auth : Option ProxyAuth} {overflow : Option (List UInt8)}
  {stream stream' : ClientStream} {target : HttpTarget}

theorem framingClear_iff_forwardedLines [Codecs]
    (hac : (parseAndRespond (utf8Bytes text) auth overflow).run stream = .ok target stream')
    (hab : eqIgnoreAsciiCase target.method "CONNECT".toList = false) :
    target.FramingClear ↔
      ∀ reader, Clear reader (parseContentLength (headerLines text)) (forwardedLines text) := by
  obtain ⟨text', version, hte, -, hbl, -, hln, hpr, hbo⟩ := parseAndRespond_absolute hac hab
  cases utf8Bytes_injective hte
  have hre : target.rewritten =
      utf8Bytes (rewriteAbsoluteRequest target.method target.path version (headerLines text)) := by
    rw [HttpTarget.rewritten, hpr, hbo, List.length_append, Nat.add_sub_cancel, List.take_left]
  have hli := splitPair_rewriteAbsoluteRequest text hbl
  rw [← hln]
  constructor
  · rintro ⟨request, hrq, hcl⟩ reader
    cases utf8Bytes_injective (hre.symm.trans hrq)
    refine clear_congr ?_ (hcl reader)
    rw [hli, Reader.framing_append]
  · intro hcl
    refine ⟨_, hre, fun reader => clear_congr ?_ (hcl reader)⟩
    rw [hli, Reader.framing_append]

/-- **Ambiguous framing**: the request that is forwarded for an accepted header
in absolute form is clear to every reader exactly when the header was. -/
theorem framing_clear_iff [Codecs]
    (hac : (parseAndRespond (utf8Bytes text) auth overflow).run stream = .ok target stream')
    (hab : eqIgnoreAsciiCase target.method "CONNECT".toList = false) :
    target.FramingClear ↔ PlainFraming text := by
  rw [framingClear_iff_forwardedLines hac hab, clear_iff_plainFraming]

end

def sampleRequest (lines : String) : List Char :=
  "POST http://a.example/ HTTP/1.1\r\n".toList ++ lines.toList ++ "\r\n".toList

def sampleTarget (lines : String) (length : Nat) : HttpTarget where
  authority := "a.example:80".toList
  method := "POST".toList
  path := "/".toList
  prebuffer := utf8Bytes ("POST / HTTP/1.1\r\n".toList ++ lines.toList ++ "\r\n".toList)
  prebufferBodyBytes := 0
  contentLength := some length

theorem framing_clear_sample : (sampleTarget "Content-Length: 5\r\n" 5).FramingClear := by
  have hac : (parseAndRespond (utf8Bytes (sampleRequest "Content-Length: 5\r\n")) none
      none).run { incoming := { pieces := [] } } =
      .ok (sampleTarget "Content-Length: 5\r\n" 5) { incoming := { pieces := [] } } := by
    rfl
  refine (framing_clear_iff hac rfl).mpr ?_
  intro reader
  obtain ⟨trims, lf⟩ := reader
  refine .inr (.inr ⟨5, ?_, rfl⟩)
  cases trims <;> cases lf <;> rfl

def twoLengths : String := "Content-Length: 5\r\nContent-Length: 6\r\n"

def spacedCoding : String := "Content-Length: 5\r\nTransfer-Encoding : chunked\r\n"

/-- Both pass the checks, and neither is clear to every reader. -/
theorem ambiguous_framing_forwarded :
    ((parseAndRespond (utf8Bytes (sampleRequest twoLengths)) none none).run
        { incoming := { pieces := [] } } =
          .ok (sampleTarget twoLengths 5) { incoming := { pieces := [] } } ∧
      ¬(sampleTarget twoLengths 5).FramingClear) ∧
    (parseAndRespond (utf8Bytes (sampleRequest spacedCoding)) none none).run
        { incoming := { pieces := [] } } =
          .ok (sampleTarget spacedCoding 5) { incoming := { pieces := [] } } ∧
      ¬(sampleTarget spacedCoding 5).FramingClear := by
  have htw : (parseAndRespond (utf8Bytes (sampleRequest twoLengths)) none none).run
      { incoming := { pieces := [] } } =
        .ok (sampleTarget twoLengths 5) { incoming := { pieces := [] } } := by
    rfl
  have hsc : (parseAndRespond (utf8Bytes (sampleRequest spacedCoding)) none none).run
      { incoming := { pieces := [] } } =
        .ok (sampleTarget spacedCoding 5) { incoming := { pieces := [] } } := by
    rfl
  refine ⟨⟨htw, fun hcl => ?_⟩, hsc, fun hcl => ?_⟩
  · rw [framingClear_iff_forwardedLines htw rfl] at hcl
    have := (hcl Reader.plain).same (some 5) (by decide) (some 6) (by decide)
    cases this
  · rw [framingClear_iff_forwardedLines hsc rfl] at hcl
    rcases (hcl ⟨true, false⟩).notBoth with h | h <;> revert h <;> decide

end Espejismo
