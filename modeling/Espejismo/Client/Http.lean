import Espejismo.Ingress.HttpFraming
import Espejismo.Protocol.Request
import Espejismo.Transport.Copy

/-!
# Client.Http

One connection to the HTTP proxy of the local client (`handler.rs`): the request
is accepted, a stream is opened through the tunnel, and what the application sends
goes there.

A connection serves one request.  With a length the body is copied up to it;
without one the rest of the connection goes to the same server
(`http_client_forwards`).
-/

namespace Espejismo

open Mux Copy List
open scoped Standard

/-! ## The program -/

def httpBodyCopyBufferSize : Nat := 128 * 1024

def httpBulkDownloadSuffixes : List String :=
  [".7z", ".apk", ".bin", ".bz2", ".deb", ".dmg", ".exe", ".gz", ".iso", ".m4v", ".mkv", ".mov",
    ".mp4", ".msi", ".pkg", ".rar", ".tar", ".tar.bz2", ".tar.gz", ".tar.xz", ".tbz2", ".tgz",
    ".txz", ".xz", ".zip", ".zst"]

def looksLikeBulkDownloadPath (path : List Char) : Bool :=
  let path := ((splitOnce '?' path).map (·.1)).getD path
  let path := ((splitOnce '#' path).map (·.1)).getD path
  let path := toAsciiLowercase path
  httpBulkDownloadSuffixes.any fun suffix => suffix.toList.isSuffixOf path

def httpStreamPriority (method path : List Char) (contentLength : Option Nat)
    (bulkThresholdBytes : Nat) : StreamPriority :=
  let largeUpload := decide (0 < bulkThresholdBytes) && contentLength.any (bulkThresholdBytes ≤ ·)
  let largeDownload := eqIgnoreAsciiCase method "GET".toList && looksLikeBulkDownloadPath path
  if largeUpload || largeDownload then .bulk else .interactive

namespace Client

inductive HttpPhase where
  | accepting
  | opening
  /-- The connect request and what was read ahead; with an error behind it. -/
  | sending (left : List UInt8) (error : Option Error)
  /-- `copy_fixed_length_http`: the rest of the body, a part of it that was read,
  and which of the two directions are done. -/
  | fixed (remaining : Nat) (chunk : List UInt8) (requestDone responseDone : Bool)
  /-- `idle_copy_bidirectional` between the application and the tunnel. -/
  | copying (copy : Copy.State)
  | finished (error : Option Error)

structure Http where
  stream : ClientStream
  target : Option HttpTarget := none
  /-- What was written to the tunnel before the copy in both directions. -/
  tunnel : List UInt8 := []
  phase : HttpPhase := .accepting

inductive HttpEvent where
  | accept
  | opened (error : Option Error)
  | wrote (n : Nat)
  | writeFailed
  | bodyRead
  | bodyIdle
  | bodyDone
  | responded (bytes : List UInt8)
  | responseFailed (error : Error)
  | responseClosed
  | copy (event : Copy.Event)

def connectRequest (bulkThresholdBytes : Nat) (target : HttpTarget) : Output :=
  writeTcpConnectWithPriority target.authority
    (httpStreamPriority target.method target.path target.contentLength bulkThresholdBytes)

def startBody (target : HttpTarget) : HttpPhase :=
  match target.contentLength with
  | some contentLength => .fixed (contentLength - target.prebufferBodyBytes) [] false false
  | none => .copying {}

/-- One direction of the fixed-length copy is done; the other may be too. -/
def joined (remaining : Nat) (chunk : List UInt8) (requestDone responseDone : Bool) : HttpPhase :=
  if requestDone && responseDone then .finished none
  else .fixed remaining chunk requestDone responseDone

def bodyError : Ending → Error
  | .closed => .msg "HTTP request body ended before Content-Length"
  | .silent => .msg "HTTP request body idle"
  | .broken => .io

def copyInput (stream : ClientStream) : Copy.Event → Option ClientStream
  | .read .a chunk =>
    match stream.incoming.read copyBufferSize with
    | some (arrived, incoming) => if arrived = chunk then some { stream with incoming } else none
    | none => none
  | .ended .a =>
    if stream.incoming.pieces = [] ∧ stream.incoming.ending = .closed then some stream else none
  | .readFailed .a =>
    if stream.incoming.pieces = [] ∧ stream.incoming.ending = .broken then some stream else none
  | _ => some stream

/-- `handle_http_client_inner`. -/
def Http.step [Codecs] (auth : Option ProxyAuth) (bulkThresholdBytes : Nat) (s : Http)
    (e : HttpEvent) :
    Option Http :=
  match s.phase, e with
  | .accepting, .accept =>
    match (acceptHttpProxyWithAuth auth).run s.stream with
    | .ok target stream => some { s with stream, target := some target, phase := .opening }
    | .error error stream => some { s with stream, phase := .finished (some error) }
  | .opening, .opened error =>
    match s.target, error with
    | some target, none =>
      let request := connectRequest bulkThresholdBytes target
      let prebuffer := if request.error.isNone then target.prebuffer else []
      some { s with phase := .sending (request.bytes ++ prebuffer) request.error }
    | _, some error => some { s with phase := .finished (some error) }
    | none, none => none
  | .sending left error, .wrote n =>
    match s.target with
    | some target =>
      if 0 < n ∧ n ≤ left.length then
        some { s with
          tunnel := s.tunnel ++ left.take n
          phase :=
            if n < left.length then .sending (left.drop n) error
            else if error.isSome then .finished error else startBody target }
      else none
    | none => none
  | .sending _ _, .writeFailed => some { s with phase := .finished (some .io) }
  | .fixed remaining [] false responseDone, .bodyRead =>
    if remaining = 0 then none
    else
      match s.stream.incoming.read (min remaining httpBodyCopyBufferSize) with
      | some (chunk, incoming) =>
        some { s with
          stream := { s.stream with incoming }
          phase := .fixed (remaining - chunk.length) chunk false responseDone }
      | none => some { s with phase := .finished (some (bodyError s.stream.incoming.ending)) }
  | .fixed remaining [] false _, .bodyIdle =>
    if remaining = 0 then none
    else some { s with phase := .finished (some (.msg "HTTP request body idle")) }
  | .fixed remaining chunk false responseDone, .wrote n =>
    if 0 < n ∧ n ≤ chunk.length then
      some { s with
        tunnel := s.tunnel ++ chunk.take n
        phase := .fixed remaining (chunk.drop n) false responseDone }
    else none
  | .fixed _ _ false _, .writeFailed => some { s with phase := .finished (some .io) }
  | .fixed 0 [] false responseDone, .bodyDone =>
    some { s with phase := joined 0 [] true responseDone }
  | .fixed _ _ _ false, .responded bytes =>
    some { s with stream := { s.stream with written := s.stream.written ++ bytes } }
  | .fixed _ _ _ false, .responseFailed error => some { s with phase := .finished (some error) }
  | .fixed remaining chunk requestDone false, .responseClosed =>
    some { s with phase := joined remaining chunk requestDone true }
  | .copying copy, .copy event =>
    match copyInput s.stream event, Copy.step copy event with
    | some stream, some copy => some { s with stream, phase := .copying copy }
    | _, _ => none
  | _, _ => none

/-! ## One step -/

inductive Http.Transition [Codecs] (auth : Option ProxyAuth) (bulkThresholdBytes : Nat) (s : Http) :
    Http → Prop
  | accepted {target stream} (hp : s.phase = .accepting)
      (h : (acceptHttpProxyWithAuth auth).run s.stream = .ok target stream) :
      Transition auth bulkThresholdBytes s
        { s with stream, target := some target, phase := .opening }
  | rejected {error stream} (hp : s.phase = .accepting) :
      Transition auth bulkThresholdBytes s { s with stream, phase := .finished (some error) }
  | failed {error} (hap : s.phase ≠ .accepting) (hc : ∀ copy, s.phase ≠ .copying copy) :
      Transition auth bulkThresholdBytes s { s with phase := .finished (some error) }
  | opened {target} (hp : s.phase = .opening) (ht : s.target = some target) :
      Transition auth bulkThresholdBytes s { s with
        phase := .sending ((connectRequest bulkThresholdBytes target).bytes ++
          if (connectRequest bulkThresholdBytes target).error.isNone then target.prebuffer else [])
          (connectRequest bulkThresholdBytes target).error }
  | wrote {left error target n} (hp : s.phase = .sending left error)
      (ht : s.target = some target) (hle : n ≤ left.length) :
      Transition auth bulkThresholdBytes s { s with
        tunnel := s.tunnel ++ left.take n
        phase :=
          if n < left.length then .sending (left.drop n) error
          else if error.isSome then .finished error else startBody target }
  | bodyRead {remaining responseDone chunk incoming}
      (hp : s.phase = .fixed remaining [] false responseDone) (hpo : 0 < remaining)
      (h : s.stream.incoming.read (min remaining httpBodyCopyBufferSize) = some (chunk, incoming)) :
      Transition auth bulkThresholdBytes s { s with
        stream := { s.stream with incoming }
        phase := .fixed (remaining - chunk.length) chunk false responseDone }
  | bodyWrote {remaining chunk responseDone n}
      (hp : s.phase = .fixed remaining chunk false responseDone) :
      Transition auth bulkThresholdBytes s { s with
        tunnel := s.tunnel ++ chunk.take n
        phase := .fixed remaining (chunk.drop n) false responseDone }
  | bodyDone {responseDone} (hp : s.phase = .fixed 0 [] false responseDone) :
      Transition auth bulkThresholdBytes s { s with phase := joined 0 [] true responseDone }
  | responded {remaining chunk requestDone bytes}
      (hp : s.phase = .fixed remaining chunk requestDone false) :
      Transition auth bulkThresholdBytes s
        { s with stream := { s.stream with written := s.stream.written ++ bytes } }
  | responseClosed {remaining chunk requestDone}
      (hp : s.phase = .fixed remaining chunk requestDone false) :
      Transition auth bulkThresholdBytes s
        { s with phase := joined remaining chunk requestDone true }
  | copied {copy copy' stream event} (hp : s.phase = .copying copy)
      (hi : copyInput s.stream event = some stream) (h : Copy.step copy event = some copy') :
      Transition auth bulkThresholdBytes s { s with stream, phase := .copying copy' }

theorem Http.transition_of_step [Codecs] (h : Http.step auth bulkThresholdBytes s e = some s') :
    Transition auth bulkThresholdBytes s s' := by
  unfold Http.step at h
  split at h
  case h_1 hp =>
      split at h
      · next ha =>
        cases h
        exact .accepted hp ha
      · cases h
        exact .rejected hp
  case h_2 hp =>
      split at h
      · next ht =>
        cases h
        exact .opened hp ht
      · cases h
        exact .failed (by simp [hp]) (by simp [hp])
      · cases h
  case h_3 hp =>
      split at h
      · next ht =>
        simp only [Option.ite_none_right_eq_some, Option.some.injEq] at h
        obtain ⟨⟨-, hle⟩, rfl⟩ := h
        exact .wrote hp ht hle
      · cases h
  case h_4 hp =>
      cases h
      exact .failed (by simp [hp]) (by simp [hp])
  case h_5 hp =>
      split at h
      · cases h
      · next hpo =>
        split at h
        · next hr =>
          cases h
          exact .bodyRead hp (Nat.pos_of_ne_zero hpo) hr
        · cases h
          exact .failed (by simp [hp]) (by simp [hp])
  case h_6 hp =>
      split at h <;> cases h
      exact .failed (by simp [hp]) (by simp [hp])
  case h_7 hp =>
      simp only [Option.ite_none_right_eq_some, Option.some.injEq] at h
      obtain ⟨-, rfl⟩ := h
      exact .bodyWrote hp
  case h_8 hp =>
      cases h
      exact .failed (by simp [hp]) (by simp [hp])
  case h_9 hp =>
      cases h
      exact .bodyDone hp
  case h_10 hp =>
      cases h
      exact .responded hp
  case h_11 hp =>
      cases h
      exact .failed (by simp [hp]) (by simp [hp])
  case h_12 hp =>
      cases h
      exact .responseClosed hp
  case h_13 hp =>
      split at h
      · next hi hst =>
        cases h
        exact .copied hp hi hst
      · cases h
  case h_14 => cases h

/-! ## What goes to the tunnel -/

namespace Http

def sentToTunnel (s : Http) : List UInt8 :=
  match s.phase with
  | .copying copy => s.tunnel ++ copy.written.of .b
  | _ => s.tunnel

section Invariant

variable (bulkThresholdBytes : Nat) (target : HttpTarget) (rest : List UInt8)

def front : List UInt8 :=
  connectPreface target.authority (httpStreamPriority target.method target.path
    target.contentLength bulkThresholdBytes) ++ target.prebuffer

def bodyLeft (n : Nat) : Nat := n - target.prebufferBodyBytes

def bodyOf : List UInt8 :=
  match target.contentLength with
  | some n => rest.take (bodyLeft target n)
  | none => rest

def Complete (s : Http) : Prop :=
  ∃ n, target.contentLength = some n ∧ bodyLeft target n ≤ rest.length ∧
    s.tunnel = front bulkThresholdBytes target ++ rest.take (bodyLeft target n)

/-- Where the bytes of the application are while a request for `target` is
forwarded. -/
def Forwards (s : Http) : Prop :=
  match s.phase with
  | .accepting => False
  | .opening => s.tunnel = [] ∧ s.stream.incoming.bytes = rest
  | .sending left error =>
    s.tunnel ++ left <+: front bulkThresholdBytes target ∧
    (error = none → s.tunnel ++ left = front bulkThresholdBytes target) ∧
    s.stream.incoming.bytes = rest
  | .fixed remaining chunk requestDone _ =>
    ∃ n read, target.contentLength = some n ∧ read + remaining = bodyLeft target n ∧
      read ≤ rest.length ∧ s.stream.incoming.bytes = rest.drop read ∧
      s.tunnel ++ chunk = front bulkThresholdBytes target ++ rest.take read ∧
      (requestDone = true → remaining = 0 ∧ chunk = [])
  | .copying copy =>
    target.contentLength = none ∧ s.tunnel = front bulkThresholdBytes target ∧
    Faithful copy ∧ copy.received.of .a ++ s.stream.incoming.bytes = rest
  | .finished error =>
    s.tunnel <+: front bulkThresholdBytes target ++ bodyOf target rest ∧
    (error = none → Complete bulkThresholdBytes target rest s)

end Invariant

section Step

variable {auth : Option ProxyAuth} {bulkThresholdBytes : Nat} {target : HttpTarget}
  {rest : List UInt8} {s : Http} {e : HttpEvent}

theorem Forwards.sent_prefix (hs : Forwards bulkThresholdBytes target rest s) :
    s.sentToTunnel <+: front bulkThresholdBytes target ++ bodyOf target rest := by
  cases hp : s.phase with
  | accepting =>
    simp only [Forwards, hp] at hs
  | opening =>
    simp only [Forwards, sentToTunnel, hp] at hs ⊢
    rw [hs.1]
    exact nil_prefix
  | sending left =>
    simp only [Forwards, sentToTunnel, hp] at hs ⊢
    exact ((prefix_append s.tunnel left).trans hs.1).trans (prefix_append ..)
  | fixed remaining chunk =>
    simp only [Forwards, sentToTunnel, hp] at hs ⊢
    obtain ⟨n, read, hn, hr, -, -, htu, -⟩ := hs
    have hbo : rest.take read <+: bodyOf target rest := by
      rw [bodyOf, hn]
      exact take_prefix_take_left (by omega)
    exact (prefix_append s.tunnel chunk).trans (htu ▸ (prefix_append_right_inj _).mpr hbo)
  | copying =>
    simp only [Forwards, sentToTunnel, hp] at hs ⊢
    obtain ⟨hn, htu, hf, hre⟩ := hs
    rw [htu, prefix_append_right_inj, bodyOf, hn, ← hre, hf.received_eq, append_assoc]
    exact prefix_append ..
  | finished =>
    simp only [Forwards, sentToTunnel, hp] at hs ⊢
    exact hs.1

theorem Forwards.failed (hs : Forwards bulkThresholdBytes target rest s)
    (hc : ∀ copy, s.phase ≠ .copying copy) :
    Forwards bulkThresholdBytes target rest { s with phase := .finished (some error) } := by
  refine ⟨?_, by simp⟩
  have hl := hs.sent_prefix
  unfold sentToTunnel at hl
  split at hl
  · next copy hp => exact absurd hp (hc copy)
  · exact hl

theorem Forwards.startBody (hb : s.stream.incoming.bytes = rest)
    (htu : s.tunnel = front bulkThresholdBytes target) :
    Forwards bulkThresholdBytes target rest { s with phase := startBody target } := by
  unfold Client.startBody
  cases hn : target.contentLength with
  | some n => exact ⟨n, 0, hn, Nat.zero_add _, Nat.zero_le _, hb, by simpa using htu, by simp⟩
  | none => exact ⟨hn, htu, faithful_init, hb⟩

theorem connectRequest_front (bulkThresholdBytes : Nat) (target : HttpTarget) :
    let request := connectRequest bulkThresholdBytes target
    let sent := request.bytes ++ if request.error.isNone then target.prebuffer else []
    sent <+: front bulkThresholdBytes target ∧
      (request.error = none → sent = front bulkThresholdBytes target) := by
  intro request sent
  obtain ⟨hl, hal⟩ := writeTcpConnectWithPriority_prefix target.authority
    (httpStreamPriority target.method target.path target.contentLength bulkThresholdBytes)
  cases herr : request.error with
  | none =>
    have hse : sent = front bulkThresholdBytes target := by
      simp only [sent, herr, front]
      rw [← hal herr]
      rfl
    exact ⟨hse ▸ prefix_refl _, fun _ => hse⟩
  | some =>
    refine ⟨?_, by simp⟩
    simp only [sent, herr, Option.isNone_some, Bool.false_eq_true, if_false, append_nil]
    exact hl.trans (prefix_append ..)

theorem Forwards.joined (hs : Forwards bulkThresholdBytes target rest
      { s with phase := .fixed remaining chunk requestDone responseDone }) :
    Forwards bulkThresholdBytes target rest
      { s with phase := joined remaining chunk requestDone responseDone } := by
  unfold Client.joined
  split
  · next hbot =>
    refine ⟨hs.sent_prefix, fun _ => ?_⟩
    obtain ⟨n, read, hn, hr, hle, -, htu, hd⟩ := hs
    obtain ⟨rfl, rfl⟩ := hd (by simp_all)
    rw [append_nil] at *
    exact ⟨n, hn, hr ▸ hle, hr ▸ htu⟩
  · exact hs

theorem received_of_copyInput {stream : ClientStream}
    (hi : copyInput stream event = some stream') (h : Copy.step copy event = some copy') :
    copy'.received.of .a ++ stream'.incoming.bytes =
      copy.received.of .a ++ stream.incoming.bytes := by
  have hre := Copy.received_step h
  unfold copyInput at hi
  split at hi
  · next chunk =>
    split at hi
    · next arrived incoming hr =>
      split at hi <;> cases hi
      next har =>
      have hb := (Incoming.read_eq_some hr (by decide)).1
      rw [hre, hb, har, Both.of_set, append_assoc]
    · cases hi
  · split at hi <;> cases hi
    rw [hre]
  · split at hi <;> cases hi
    rw [hre]
  · next hr _ _ =>
    cases hi
    rw [hre]
    cases event with
    | read side chunk =>
      cases side with
      | a => exact absurd rfl (hr chunk)
      | b => rfl
    | _ => rfl

theorem Forwards.step [Codecs] (hs : Forwards bulkThresholdBytes target rest s)
    (ht : s.target = some target) (h : Http.step auth bulkThresholdBytes s e = some s') :
    s'.target = some target ∧ Forwards bulkThresholdBytes target rest s' := by
  cases Http.transition_of_step h with
  | accepted hp | rejected hp => simp only [Forwards, hp] at hs
  | failed hap hc => exact ⟨ht, hs.failed hc⟩
  | @opened target' hp ht' =>
    cases ht.symm.trans ht'
    simp only [Forwards, hp] at hs
    obtain ⟨htu, hb⟩ := hs
    obtain ⟨hl, hal⟩ := connectRequest_front bulkThresholdBytes target
    exact ⟨ht, by simpa [htu] using hl, by simpa [htu] using hal, hb⟩
  | @wrote left error target' n hp ht' =>
    cases ht.symm.trans ht'
    simp only [Forwards, hp] at hs
    obtain ⟨hl, hal, hb⟩ := hs
    by_cases hn : n < left.length
    · rw [if_pos hn]
      refine ⟨ht, ?_, ?_, hb⟩
      · simpa using hl
      · simpa using hal
    · rw [if_neg hn, take_of_length_le (by omega)]
      split
      · next hso =>
        refine ⟨ht, hl.trans (prefix_append ..), fun hno => ?_⟩
        simp [hno] at hso
      · next hno =>
        exact ⟨ht, Forwards.startBody (s := { s with tunnel := s.tunnel ++ left }) hb
          (hal (by simpa using hno))⟩
  | @bodyRead remaining responseDone chunk incoming hp hpo hr =>
    simp only [Forwards, hp] at hs
    obtain ⟨n, read, hn, hlef, hle, hb, htu, -⟩ := hs
    have hca : 0 < min remaining httpBodyCopyBufferSize := by
      simp only [httpBodyCopyBufferSize]
      omega
    obtain ⟨hch, -, hln⟩ := Incoming.read_eq_some hr hca
    rw [hb] at hch
    refine ⟨ht, n, read + chunk.length, hn, by omega, ?_, ?_, ?_, by simp⟩
    · have := congrArg List.length hch
      rw [length_drop, length_append] at this
      omega
    · rw [← drop_drop, hch, drop_left]
    · rw [take_add, hch, take_left, ← append_assoc, ← htu, append_nil]
  | @bodyWrote remaining chunk responseDone n hp =>
    simp only [Forwards, hp] at hs
    obtain ⟨n', read, hn, hr, hle, hb, htu, -⟩ := hs
    refine ⟨ht, n', read, hn, hr, hle, hb, ?_, by simp⟩
    rw [append_assoc, take_append_drop]
    exact htu
  | bodyDone hp =>
    simp only [Forwards, hp] at hs
    obtain ⟨n', read, hn, hr, hle, hb, htu, -⟩ := hs
    exact ⟨ht, Forwards.joined ⟨n', read, hn, hr, hle, hb, htu, fun _ => ⟨rfl, rfl⟩⟩⟩
  | responded =>
    exact ⟨ht, hs⟩
  | responseClosed hp =>
    simp only [Forwards, hp] at hs
    exact ⟨ht, Forwards.joined hs⟩
  | copied hp hi hst =>
    simp only [Forwards, hp] at hs ⊢
    obtain ⟨hn, htu, hf, hre⟩ := hs
    refine ⟨ht, hn, htu, hf.step hst, ?_⟩
    rw [received_of_copyInput hi hst, hre]

end Step

/-! ## Every run -/

section Run

open Machine

variable {auth : Option ProxyAuth} {bulkThresholdBytes : Nat} {stream₀ : ClientStream} {s : Http}
  {e : HttpEvent}

/-- Nothing is sent before a target is accepted, and for a target what the
invariant of its forwarding says. -/
def Invariant [Codecs] (auth : Option ProxyAuth) (bulkThresholdBytes : Nat) (stream₀ : ClientStream)
    (s : Http) : Prop :=
  match s.target with
  | none =>
    s.phase = .accepting ∧ s.stream = stream₀ ∧ s.tunnel = [] ∨
      ∃ error, s.phase = .finished (some error)
  | some target =>
    ∃ stream₁, (acceptHttpProxyWithAuth auth).run stream₀ = .ok target stream₁ ∧
      Forwards bulkThresholdBytes target stream₁.incoming.bytes s

theorem Invariant.step [Codecs] (hs : Invariant auth bulkThresholdBytes stream₀ s)
    (h : Http.step auth bulkThresholdBytes s e = some s') :
    Invariant auth bulkThresholdBytes stream₀ s' := by
  unfold Invariant at hs
  cases ht : s.target with
  | some =>
    rw [ht] at hs
    obtain ⟨stream₁, ha, hfo⟩ := hs
    obtain ⟨ht', hfo'⟩ := hfo.step ht h
    rw [Invariant, ht']
    exact ⟨stream₁, ha, hfo'⟩
  | none =>
    rw [ht] at hs
    -- without a target only the header is waited for
    have hp : s.phase = .accepting ∨ ∃ error, s.phase = .finished (some error) := hs.imp_left (·.1)
    cases Http.transition_of_step h with
    | accepted hap ha =>
      obtain ⟨-, hsr, htu⟩ | ⟨error, hfn⟩ := hs
      · exact ⟨_, hsr ▸ ha, htu, rfl⟩
      · simp [hfn] at hap
    | rejected | failed => simp [Invariant, ht]
    | opened _ hso | wrote _ hso => simp [ht] at hso
    | bodyRead hfi | bodyWrote hfi | bodyDone hfi | responded hfi
        | responseClosed hfi => simp [hfi] at hp
    | copied hc => simp [hc] at hp

theorem invariant_of_reach [Codecs]
    (h : Reach (Http.step auth bulkThresholdBytes) Any { stream := stream₀ } s) :
    Invariant auth bulkThresholdBytes stream₀ s :=
  h.invariant (.inl ⟨rfl, rfl, rfl⟩) fun _ _ _ hs _ hst => hs.step hst

/-! ## Requests in absolute form -/

def requestDone (s : Http) : Prop :=
  match s.phase with
  | .fixed _ _ requestDone _ => requestDone = true
  | .finished none => True
  | _ => False

def heldForTunnel (s : Http) : List UInt8 :=
  match s.phase with
  | .copying copy => copy.pending.of .a
  | _ => []

/-- What a forwarded request consists of: the connect request for its authority,
the header as it is rewritten, without a `Proxy-Authorization` line, and then of
the bytes that follow the header as many as it declares, or all of them. -/
structure Contained (connect : List UInt8) (target : HttpTarget) (header rewritten : List Char)
    (following : List UInt8) (s : Http) : Prop where
  rewrites : ∃ version,
    rewritten = rewriteAbsoluteRequest target.method target.path version (headerLines header)
  lines : (Text.splitPair '\r' '\n' rewritten).tail = forwardedLines header ++ [[], []]
  anonymous : ∀ line ∈ forwardedLines header, fieldValue "proxy-authorization" line = none
  declared : ∀ n, target.contentLength = some n →
    s.sentToTunnel <+: connect ++ utf8Bytes rewritten ++ following.take n ∧
      (s.requestDone → n ≤ following.length ∧
        s.sentToTunnel = connect ++ utf8Bytes rewritten ++ following.take n)
  undeclared : target.contentLength = none →
    s.sentToTunnel <+: connect ++ utf8Bytes rewritten ++ following ∧
      ∀ copy, s.phase = .copying copy →
        s.sentToTunnel ++ s.heldForTunnel ++ s.stream.incoming.bytes =
          connect ++ utf8Bytes rewritten ++ following

variable {target : HttpTarget} {rest : List UInt8}

theorem Forwards.complete (hs : Forwards bulkThresholdBytes target rest s) (h : s.requestDone) :
    Complete bulkThresholdBytes target rest s ∧ s.sentToTunnel = s.tunnel := by
  unfold requestDone at h
  split at h
  · next remaining chunk requestDone responseDone hp =>
    simp only [Forwards, sentToTunnel, hp] at hs ⊢
    obtain ⟨n, read, hn, hr, hle, -, htu, hd⟩ := hs
    obtain ⟨rfl, rfl⟩ := hd h
    rw [append_nil] at htu
    exact ⟨⟨n, hn, hr ▸ hle, hr ▸ htu⟩, trivial⟩
  · next hp =>
    simp only [Forwards, sentToTunnel, hp] at hs ⊢
    exact ⟨hs.2 trivial, trivial⟩
  · cases h

theorem Forwards.copying (hs : Forwards bulkThresholdBytes target rest s)
    (hp : s.phase = .copying copy) :
    s.sentToTunnel ++ s.heldForTunnel ++ s.stream.incoming.bytes =
      front bulkThresholdBytes target ++ rest := by
  simp only [Forwards, sentToTunnel, heldForTunnel, hp] at hs ⊢
  obtain ⟨-, htu, hf, hre⟩ := hs
  rw [htu, ← hre, hf.received_eq]
  simp [Side.other]

theorem contained_of_forwards (hs : Forwards bulkThresholdBytes target rest s)
    (hbl : ∀ c ∈ target.method ++ target.path ++ version, isWhitespace c = false)
    (hpr : target.prebuffer = utf8Bytes (rewriteAbsoluteRequest target.method target.path
      version (headerLines header)) ++ overflow)
    (hbo : target.prebufferBodyBytes = overflow.length)
    (hft : ∀ n, target.contentLength = some n → target.prebufferBodyBytes ≤ n) :
    Contained (connectPreface target.authority (httpStreamPriority target.method target.path
        target.contentLength bulkThresholdBytes)) target header
      (rewriteAbsoluteRequest target.method target.path version (headerLines header))
      (overflow ++ rest) s := by
  have hfr (body : List UInt8) : front bulkThresholdBytes target ++ body =
      connectPreface target.authority (httpStreamPriority target.method target.path
        target.contentLength bulkThresholdBytes) ++
      utf8Bytes (rewriteAbsoluteRequest target.method target.path version (headerLines header)) ++
      (overflow ++ body) := by
    simp [front, hpr]
  refine ⟨⟨version, rfl⟩, splitPair_rewriteAbsoluteRequest header hbl, ?_, ?_, ?_⟩
  · intro line hli
    simpa using (mem_filter.mp hli).2
  · intro n hn
    have hle : overflow.length ≤ n := hbo ▸ hft n hn
    have hta : (overflow ++ rest).take n = overflow ++ rest.take (bodyLeft target n) := by
      rw [take_append, take_of_length_le hle, bodyLeft, hbo]
    rw [hta, ← hfr]
    constructor
    · have hl := hs.sent_prefix
      rwa [bodyOf, hn] at hl
    · intro hd
      obtain ⟨⟨m, hm, hln, htu⟩, hse⟩ := hs.complete hd
      cases hn.symm.trans hm
      refine ⟨?_, hse.trans htu⟩
      rw [bodyLeft] at hln
      rw [length_append]
      omega
  · intro hn
    rw [← hfr]
    constructor
    · have hl := hs.sent_prefix
      rwa [bodyOf, hn] at hl
    · intro copy hp
      exact hs.copying hp

end Run

end Http

open Machine

/-- **What goes to the server** of a request in absolute form, in every run and
however the connection arrives: its connect request, its rewritten header, and
the declared number of the bytes that follow, or the bytes that follow as they
come.  What was read along with the header must not exceed a declared length. -/
theorem http_client_forwards [Codecs] {auth : Option ProxyAuth} {bulkThresholdBytes : Nat}
    {stream : ClientStream} {s : Http} {target : HttpTarget}
    (hrc : Reach (Http.step auth bulkThresholdBytes) Any { stream } s)
    (ht : s.target = some target)
    (hab : eqIgnoreAsciiCase target.method "CONNECT".toList = false)
    (hft : ∀ n, target.contentLength = some n → target.prebufferBodyBytes ≤ n) :
    ∃ header rewritten following, IsHeader (utf8Bytes header) ∧
      stream.incoming.bytes = utf8Bytes header ++ following ∧
      s.Contained (connectPreface target.authority (httpStreamPriority target.method target.path
        target.contentLength bulkThresholdBytes)) target header rewritten following := by
  have hin := Http.invariant_of_reach hrc
  rw [Http.Invariant, ht] at hin
  obtain ⟨stream₁, ha, hfo⟩ := hin
  obtain ⟨⟨header, overflow⟩, stream₂, hr, hpa⟩ := run_bind_eq_ok.mp ha
  obtain ⟨hhe, hb⟩ := readHeader_eq_ok [] (by decide) hr
  obtain ⟨text, version, rfl, rfl, hbl, -, -, hpr, hbo⟩ := parseAndRespond_absolute hpa hab
  exact ⟨text, _, _, hhe, by simpa using hb, Http.contained_of_forwards hfo hbl hpr hbo hft⟩

def firstRequest : List Char := "GET http://a.example/ HTTP/1.1\r\n\r\n".toList

def laterRequest : List Char :=
  "GET http://b.example/ HTTP/1.1\r\nProxy-Authorization: Basic dXNlcjpwYXNz\r\n\r\n".toList

def keptAlive : ClientStream where
  incoming := { pieces := [⟨utf8Bytes firstRequest, by decide⟩,
    ⟨utf8Bytes laterRequest, by decide⟩] }

def firstTarget : HttpTarget where
  authority := "a.example:80".toList
  method := "GET".toList
  path := "/".toList
  prebuffer := utf8Bytes "GET / HTTP/1.1\r\n\r\n".toList
  prebufferBodyBytes := 0
  contentLength := none

def firstAccepted : Http where
  stream := { incoming := { pieces := [⟨utf8Bytes laterRequest, by decide⟩] } }
  target := some firstTarget
  phase := .opening

theorem reach_firstAccepted :
    Reach (Http.step none 1048576) Any { stream := keptAlive } firstAccepted := by
  refine .next .refl trivial (e := .accept) ?_
  rfl

/-- The later request goes to the server of the first, with its credentials for
the proxy: there is no body, and yet more than the rewritten header is sent. -/
theorem later_request_forwarded :
    ∃ s, Reach (Http.step none 1048576) Any { stream := keptAlive } s ∧
      s.target = some firstTarget ∧
      s.sentToTunnel = connectPreface "a.example:80".toList .interactive ++
        utf8Bytes "GET / HTTP/1.1\r\n\r\n".toList ++ utf8Bytes laterRequest := by
  have hru : ∃ s, run (Http.step none 1048576) Any firstAccepted
      [.opened none, .wrote 34, .copy (.read .a (utf8Bytes laterRequest)), .copy (.metered none),
        .copy (.wrote (utf8Bytes laterRequest).length)] = some s ∧
      s.target = some firstTarget ∧
      s.sentToTunnel = connectPreface "a.example:80".toList .interactive ++
        utf8Bytes "GET / HTTP/1.1\r\n\r\n".toList ++ utf8Bytes laterRequest :=
    ⟨_, rfl, rfl, rfl⟩
  obtain ⟨s, hru, ht, hse⟩ := hru
  exact ⟨s, reach_firstAccepted.trans (.of_run hru), ht, hse⟩

/-- A request with a body of two bytes, the first of which comes with the header; another
request follows the second one. -/
def posting : ClientStream where
  incoming :=
    { pieces :=
        [⟨utf8Bytes "POST http://a.example/ HTTP/1.1\r\nContent-Length: 2\r\n\r\nh".toList,
            by decide⟩,
          ⟨utf8Bytes ('i' :: laterRequest), by decide⟩] }

def postTarget : HttpTarget where
  authority := "a.example:80".toList
  method := "POST".toList
  path := "/".toList
  prebuffer := utf8Bytes "POST / HTTP/1.1\r\nContent-Length: 2\r\n\r\nh".toList
  prebufferBodyBytes := 1
  contentLength := some 2

theorem http_client_forwards_body :
    ∃ s header rewritten following, Reach (Http.step none 1048576) Any { stream := posting } s ∧
      s.sentToTunnel = connectPreface "a.example:80".toList .interactive ++
        utf8Bytes "POST / HTTP/1.1\r\nContent-Length: 2\r\n\r\nhi".toList ∧
      posting.incoming.bytes = utf8Bytes header ++ following ∧
      s.Contained (connectPreface "a.example:80".toList .interactive) postTarget header rewritten
        following := by
  have hru : ∃ s, run (Http.step none 1048576) Any { stream := posting }
      [.accept, .opened none,
        .wrote (connectPreface "a.example:80".toList .interactive ++ postTarget.prebuffer).length,
        .bodyRead, .wrote 1] = some s ∧
      s.target = some postTarget ∧
      s.sentToTunnel = connectPreface "a.example:80".toList .interactive ++
        utf8Bytes "POST / HTTP/1.1\r\nContent-Length: 2\r\n\r\nhi".toList :=
    ⟨_, rfl, rfl, rfl⟩
  obtain ⟨s, hru, ht, hse⟩ := hru
  obtain ⟨header, rewritten, following, -, hb, hcn⟩ :=
    http_client_forwards (.of_run hru) ht rfl fun n h => by cases h; decide
  exact ⟨s, header, rewritten, following, .of_run hru, hse, hb, hcn⟩

end Client

end Espejismo
