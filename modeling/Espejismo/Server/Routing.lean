import Espejismo.Crypto.Base64
import Espejismo.Server.Settings
import Espejismo.Underlay.Upgrade

/-!
# Server.Routing

How the server tells what a peer speaks (`handle_peer` of `handler.rs`,
`fallback.rs`): it peeks at the first bytes, which may not all be there yet.

`inboundRoute` is the route taken at an `Arrival` (bytes with their times) and
`streamRoute` the one its bytes call for.
-/

namespace Espejismo

open Underlay Text List
open scoped Standard

/-! ## Bytes on their way -/

/-- A stream of which more and more has arrived: `available i` is there at the
peek number `i`, and all of it at one of the `peeks` for which there is time. -/
structure Arrival (stream : List UInt8) where
  available : Nat → List UInt8
  front : ∀ i, available i <+: stream
  grows : ∀ i, available i <+: available (i + 1)
  waits : stream ≠ [] → available 0 ≠ []
  peeks : Nat
  complete : ∃ i, i < peeks ∧ available i = stream

namespace Arrival

variable {stream : List UInt8}

def peek (d : Arrival stream) (i size : Nat) : List UInt8 := (d.available i).take size

def atOnce (stream : List UInt8) : Arrival stream where
  available _ := stream
  front _ := List.prefix_refl stream
  grows _ := List.prefix_refl stream
  waits h := h
  peeks := 1
  complete := ⟨0, Nat.one_pos, rfl⟩

def inTwo (first second : List UInt8) (h : first ≠ []) : Arrival (first ++ second) where
  available i := if i < 2 then first else first ++ second
  front i := by split <;> simp
  grows i := by
    split
    · split <;> simp
    · rw [if_neg (by omega)]
  waits _ := h
  peeks := 3
  complete := ⟨2, by decide, rfl⟩

end Arrival

/-! ## The probes -/

def http2Preface : List UInt8 := Binary.ascii "PRI * HTTP/2.0\r\n\r\nSM\r\n\r\n"

def httpMethods : List (List UInt8) :=
  ["GET ", "POST ", "HEAD ", "PUT ", "PATCH ", "DELETE ", "OPTIONS ", "CONNECT ", "TRACE "].map
    Binary.ascii

def looksLikeHttpProbe (front : List UInt8) : Bool :=
  front == http2Preface || httpMethods.any (·.isPrefixOf front)

variable {stream : List UInt8}

def shouldAcceptWebsocket [Codecs] (underlay : UnderlayConfig) (d : Arrival stream) (i : Nat) :
    Bool :=
  websocketUpgradeHeaderMatches (d.peek i 4096) underlay.websocket.path.toList

/-- `should_accept_http2`: it peeks until it knows or, after `left` more peeks,
there is no time left.  The number of the next peek is returned, too. -/
def shouldAcceptHttp2 (d : Arrival stream) : (left i : Nat) → Bool × Nat
  | 0, i => (false, i)
  | left + 1, i =>
    let available := d.peek i http2Preface.length
    if available = [] then (false, i + 1)
    else if !available.isPrefixOf http2Preface then (false, i + 1)
    else if http2Preface.isPrefixOf available then (true, i + 1)
    else shouldAcceptHttp2 d left (i + 1)

def shouldRouteToHttpFallback (fallback : FallbackHttpRuntime) (d : Arrival stream) (i : Nat) :
    Bool :=
  fallback.enabled && d.peek i 24 != [] && looksLikeHttpProbe (d.peek i 24)

inductive Route where
  | websocket
  | http2
  | httpFallback
  | tunnel
  deriving DecidableEq, Repr

def fallbackRoute (fallback : FallbackHttpRuntime) (d : Arrival stream) (i : Nat) : Route :=
  if shouldRouteToHttpFallback fallback d i then .httpFallback else .tunnel

def inboundRoute [Codecs] (underlay : UnderlayConfig) (fallback : FallbackHttpRuntime)
    (d : Arrival stream) : Route :=
  match underlay.mode with
  | .webSocket =>
    if shouldAcceptWebsocket underlay d 0 then .websocket else fallbackRoute fallback d 1
  | .http2 =>
    let (accepted, i) := shouldAcceptHttp2 d d.peeks 0
    if accepted then .http2 else fallbackRoute fallback d i
  | .tcp => fallbackRoute fallback d 0

def fallbackPeek (underlay : UnderlayConfig) (d : Arrival stream) : Nat :=
  match underlay.mode with
  | .webSocket => 1
  | .http2 => (shouldAcceptHttp2 d d.peeks 0).2
  | .tcp => 0

/-! ## The route of the bytes -/

def httpLeads : List (List UInt8) := http2Preface :: httpMethods

def httpRoute (fallback : FallbackHttpRuntime) (stream : List UInt8) : Route :=
  if fallback.enabled = true ∧ ∃ lead ∈ httpLeads, lead <+: stream then .httpFallback
  else .tunnel

/-- The route that the bytes of a stream call for, whenever they arrive. -/
def streamRoute [Codecs] (underlay : UnderlayConfig) (fallback : FallbackHttpRuntime)
    (stream : List UInt8) : Route :=
  if underlay.mode = .webSocket ∧
      (acceptWebsocketUnderlay underlay.websocket.path.toList stream).isOk = true then .websocket
  else if underlay.mode = .http2 ∧ http2Preface <+: stream then .http2
  else httpRoute fallback stream

/-- The peek for the upgrade holds the whole header, and nothing but text. -/
def UpgradeShown [Codecs] (underlay : UnderlayConfig) (d : Arrival stream) : Prop :=
  (Utf8.decode (d.peek 0 4096)).isSome = true ∧
    ∀ header, IsUpgrade underlay.websocket.path.toList stream header →
      header.length ≤ (d.peek 0 4096).length

/-- The peek of the fallback holds the method, or the preface. -/
def LeadShown (underlay : UnderlayConfig) (d : Arrival stream) : Prop :=
  ∀ lead ∈ httpLeads, lead <+: stream → lead.length ≤ (d.available (fallbackPeek underlay d)).length

def PeeksSuffice [Codecs] (underlay : UnderlayConfig) (fallback : FallbackHttpRuntime)
    (d : Arrival stream) : Prop :=
  (streamRoute underlay fallback stream = .websocket → UpgradeShown underlay d) ∧
    (streamRoute underlay fallback stream = .httpFallback → LeadShown underlay d)

/-! ## The probes and the stream -/

variable (d : Arrival stream) (underlay : UnderlayConfig) (fallback : FallbackHttpRuntime)

theorem Arrival.peek_isPrefix (i size : Nat) : d.peek i size <+: stream :=
  calc d.peek i size
    _ <+: d.available i := take_prefix size _
    _ <+: stream := d.front i

theorem Arrival.available_ne_nil (h : stream ≠ []) (i : Nat) : d.available i ≠ [] := by
  induction i with
  | zero => exact d.waits h
  | succ i ih =>
    intro hn
    have hgr := d.grows i
    rw [hn, prefix_nil] at hgr
    exact ih hgr

theorem shouldAcceptWebsocket_iff [Codecs] :
    shouldAcceptWebsocket underlay d 0 = true ↔
      (acceptWebsocketUnderlay underlay.websocket.path.toList stream).isOk = true ∧
        UpgradeShown underlay d := by
  rw [shouldAcceptWebsocket, websocketUpgradeHeaderMatches_iff, acceptWebsocketUnderlay_isOk_iff]
  constructor
  · rintro ⟨hte, header, hh⟩
    have hst := hh.of_isPrefix (d.peek_isPrefix 0 4096)
    have hle := hh.front.length_le
    have hpe : (d.peek 0 4096).length ≤ 4096 := length_take_le ..
    refine ⟨⟨header, hst, Nat.le_trans (Nat.le_trans hle hpe) (by decide)⟩, hte, ?_⟩
    intro header' hh'
    rw [hh'.unique hst]
    exact hle
  · rintro ⟨⟨header, hh, -⟩, hte, hs⟩
    have hfr := prefix_of_prefix_length_le hh.front (d.peek_isPrefix 0 4096) (hs header hh)
    exact ⟨hte, header, hfr, hh.ends, hh.request⟩

theorem looksLikeHttpProbe_iff (view : List UInt8) :
    looksLikeHttpProbe (view.take 24) = true ↔ ∃ lead ∈ httpLeads, lead <+: view := by
  have hp : view.take 24 = http2Preface ↔ http2Preface <+: view := by
    rw [prefix_iff_eq_take, eq_comm]
    rfl
  have hmt : ∀ method ∈ httpMethods, (method <+: view.take 24 ↔ method <+: view) := by
    intro method hme
    rw [prefix_take_iff]
    have hle : ∀ method ∈ httpMethods, method.length ≤ 24 := by decide
    exact and_iff_left (hle method hme)
  rw [looksLikeHttpProbe, Bool.or_eq_true, beq_iff_eq, hp, any_eq_true]
  simp only [httpLeads, mem_cons, exists_eq_or_imp, isPrefixOf_iff_prefix]
  refine or_congr_right ⟨?_, ?_⟩
  · rintro ⟨method, hme, hpre⟩
    exact ⟨method, hme, (hmt method hme).mp hpre⟩
  · rintro ⟨method, hme, hpre⟩
    exact ⟨method, hme, (hmt method hme).mpr hpre⟩

theorem eq_of_lead_isPrefix {lead lead' : List UInt8} (h : lead ∈ httpLeads)
    (h' : lead' ∈ httpLeads) (hpre : lead <+: lead') : lead = lead' := by
  have hal : ∀ lead ∈ httpLeads, ∀ lead' ∈ httpLeads, lead <+: lead' → lead = lead' := by decide
  exact hal lead h lead' h' hpre

theorem shouldRouteToHttpFallback_iff (i : Nat) :
    shouldRouteToHttpFallback fallback d i = true ↔
      (fallback.enabled = true ∧ ∃ lead ∈ httpLeads, lead <+: stream) ∧
        ∀ lead ∈ httpLeads, lead <+: stream → lead.length ≤ (d.available i).length := by
  have hn : looksLikeHttpProbe (d.peek i 24) = true → (d.peek i 24 != []) = true := by
    intro hlo
    rw [bne_iff_ne]
    intro hemp
    rw [hemp] at hlo
    exact absurd hlo (by decide)
  have hpr : shouldRouteToHttpFallback fallback d i = true ↔
      fallback.enabled = true ∧ looksLikeHttpProbe (d.peek i 24) = true := by
    simp only [shouldRouteToHttpFallback, Bool.and_eq_true]
    exact ⟨fun h => ⟨h.1.1, h.2⟩, fun h => ⟨⟨h.1, hn h.2⟩, h.2⟩⟩
  rw [hpr, Arrival.peek, looksLikeHttpProbe_iff]
  constructor
  · rintro ⟨hen, lead, hme, hpre⟩
    refine ⟨⟨hen, lead, hme, hpre.trans (d.front i)⟩, fun lead' hme' hpre' => ?_⟩
    -- both begin the stream, so one begins the other
    have hsa : lead = lead' := by
      rcases Nat.le_total lead.length lead'.length with hle | hle
      · exact eq_of_lead_isPrefix hme hme'
          (prefix_of_prefix_length_le (hpre.trans (d.front i)) hpre' hle)
      · exact (eq_of_lead_isPrefix hme' hme
          (prefix_of_prefix_length_le hpre' (hpre.trans (d.front i)) hle)).symm
    rw [← hsa]
    exact hpre.length_le
  · rintro ⟨⟨hen, lead, hme, hpre⟩, hs⟩
    exact ⟨hen, lead, hme, prefix_of_prefix_length_le hpre (d.front i) (hs lead hme hpre)⟩

theorem preface_of_shouldAcceptHttp2 {left i : Nat} (h : (shouldAcceptHttp2 d left i).1 = true) :
    http2Preface <+: stream := by
  induction left generalizing i with
  | zero => contradiction
  | succ left ih =>
    unfold shouldAcceptHttp2 at h
    dsimp only at h
    split at h
    · contradiction
    split at h
    · contradiction
    split at h
    · next hpre =>
      have hs := isPrefixOf_iff_prefix.mp hpre
      exact hs.trans (d.peek_isPrefix i _)
    · exact ih h

theorem shouldAcceptHttp2_of_preface (hp : http2Preface <+: stream) {left i j : Nat}
    (hij : i ≤ j) (hj : j < i + left) (hco : d.available j = stream) :
    (shouldAcceptHttp2 d left i).1 = true := by
  induction left generalizing i with
  | zero => omega
  | succ left ih =>
    have hne : stream ≠ [] := by
      rintro rfl
      exact absurd hp (by decide)
    have hvi : d.peek i http2Preface.length ≠ [] := by
      intro hn
      rcases take_eq_nil_iff.mp hn with hle | hn
      · exact absurd hle (by decide)
      · exact d.available_ne_nil hne i hn
    have hpre : d.peek i http2Preface.length <+: http2Preface :=
      prefix_of_prefix_length_le (d.peek_isPrefix i _) hp (length_take_le ..)
    unfold shouldAcceptHttp2
    rw [if_neg hvi, if_neg (by simpa using hpre)]
    split
    · rfl
    · next hcu =>
      replace hcu := mt isPrefixOf_iff_prefix.mpr hcu
      have hne : i ≠ j := by
        rintro rfl
        rw [Arrival.peek, hco, ← prefix_iff_eq_take.mp hp] at hcu
        exact hcu (prefix_refl _)
      exact ih (by omega) (by omega)

theorem shouldAcceptHttp2_iff :
    (shouldAcceptHttp2 d d.peeks 0).1 = true ↔ http2Preface <+: stream := by
  refine ⟨preface_of_shouldAcceptHttp2 d, fun hp => ?_⟩
  obtain ⟨j, hj, hco⟩ := d.complete
  exact shouldAcceptHttp2_of_preface d hp (Nat.zero_le j) (by omega) hco

/-! ## The route that is taken -/

theorem fallbackRoute_eq_iff (i : Nat) :
    fallbackRoute fallback d i = httpRoute fallback stream ↔
      (fallback.enabled = true ∧ (∃ lead ∈ httpLeads, lead <+: stream) →
        ∀ lead ∈ httpLeads, lead <+: stream → lead.length ≤ (d.available i).length) := by
  unfold fallbackRoute httpRoute
  by_cases hl : fallback.enabled = true ∧ ∃ lead ∈ httpLeads, lead <+: stream
  · rw [if_pos hl]
    by_cases hpr : shouldRouteToHttpFallback fallback d i = true
    · rw [if_pos hpr]
      exact iff_of_true rfl fun _ => ((shouldRouteToHttpFallback_iff d fallback i).mp hpr).2
    · rw [if_neg hpr]
      refine iff_of_false (by decide) fun hs => hpr ?_
      exact (shouldRouteToHttpFallback_iff d fallback i).mpr ⟨hl, hs hl⟩
  · have hpr : ¬shouldRouteToHttpFallback fallback d i = true := fun hpr =>
      hl ((shouldRouteToHttpFallback_iff d fallback i).mp hpr).1
    rw [if_neg hl, if_neg hpr]
    exact iff_of_true rfl fun h => absurd h hl

theorem peeksSuffice_iff_of_fallback [Codecs]
    (h : streamRoute underlay fallback stream = httpRoute fallback stream) :
    PeeksSuffice underlay fallback d ↔
      (fallback.enabled = true ∧ (∃ lead ∈ httpLeads, lead <+: stream) →
        LeadShown underlay d) := by
  unfold PeeksSuffice
  rw [h, httpRoute]
  by_cases hl : fallback.enabled = true ∧ ∃ lead ∈ httpLeads, lead <+: stream
  · rw [if_pos hl]
    exact ⟨fun hsu _ => hsu.2 rfl, fun hs => ⟨nofun, fun _ => hs hl⟩⟩
  · rw [if_neg hl]
    exact iff_of_true ⟨nofun, nofun⟩ fun h => absurd h hl

theorem inboundRoute_eq_iff_tcp [Codecs] (hm : underlay.mode = .tcp) :
    inboundRoute underlay fallback d = streamRoute underlay fallback stream ↔
      PeeksSuffice underlay fallback d := by
  have hr : streamRoute underlay fallback stream = httpRoute fallback stream := by
    rw [streamRoute, hm, if_neg (by simp), if_neg (by simp)]
  rw [peeksSuffice_iff_of_fallback d underlay fallback hr, hr]
  simp only [inboundRoute, hm, fallbackRoute_eq_iff, LeadShown, fallbackPeek]

theorem inboundRoute_eq_iff_http2 [Codecs] (hm : underlay.mode = .http2) :
    inboundRoute underlay fallback d = streamRoute underlay fallback stream ↔
      PeeksSuffice underlay fallback d := by
  have hpr := shouldAcceptHttp2_iff d
  by_cases hp : http2Preface <+: stream
  · have hr : streamRoute underlay fallback stream = .http2 := by
      rw [streamRoute, hm, if_neg (by simp), if_pos ⟨rfl, hp⟩]
    simp only [inboundRoute, hm, hpr.mpr hp, if_true, PeeksSuffice, hr]
    exact iff_of_true trivial ⟨nofun, nofun⟩
  · have hr : streamRoute underlay fallback stream = httpRoute fallback stream := by
      rw [streamRoute, hm, if_neg (by simp), if_neg (by simp [hp])]
    have hfa : (shouldAcceptHttp2 d d.peeks 0).1 = false :=
      Bool.eq_false_iff.mpr fun h => hp (hpr.mp h)
    rw [peeksSuffice_iff_of_fallback d underlay fallback hr, hr]
    simp only [inboundRoute, hm, hfa, Bool.false_eq_true, if_false,
      fallbackRoute_eq_iff, LeadShown, fallbackPeek]

theorem inboundRoute_eq_iff_webSocket [Codecs] (hm : underlay.mode = .webSocket) :
    inboundRoute underlay fallback d = streamRoute underlay fallback stream ↔
      PeeksSuffice underlay fallback d := by
  have hpr := shouldAcceptWebsocket_iff d underlay
  by_cases ha : (acceptWebsocketUnderlay underlay.websocket.path.toList stream).isOk = true
  · have hr : streamRoute underlay fallback stream = .websocket := by
      rw [streamRoute, hm, if_pos ⟨rfl, ha⟩]
    simp only [inboundRoute, hm, PeeksSuffice, hr, true_implies]
    by_cases hs : UpgradeShown underlay d
    · rw [if_pos (hpr.mpr ⟨ha, hs⟩)]
      exact iff_of_true rfl ⟨hs, nofun⟩
    · rw [if_neg fun h => hs (hpr.mp h).2, fallbackRoute]
      refine iff_of_false ?_ fun h => hs h.1
      split <;> decide
  · have hr : streamRoute underlay fallback stream = httpRoute fallback stream := by
      rw [streamRoute, hm, if_neg (by simp [ha]), if_neg (by simp)]
    rw [peeksSuffice_iff_of_fallback d underlay fallback hr, hr]
    simp only [inboundRoute, hm, hpr, ha, Bool.false_eq_true, false_and, if_false,
      fallbackRoute_eq_iff, LeadShown, fallbackPeek]

theorem streamRoute_eq_websocket_iff [Codecs] (hm : underlay.mode = .webSocket) :
    streamRoute underlay fallback stream = .websocket ↔
      (acceptWebsocketUnderlay underlay.websocket.path.toList stream).isOk = true := by
  unfold streamRoute httpRoute
  by_cases ha : (acceptWebsocketUnderlay underlay.websocket.path.toList stream).isOk = true
  · rw [if_pos ⟨hm, ha⟩]
    exact iff_of_true rfl ha
  · rw [if_neg (by simp [ha]), if_neg (by simp [hm])]
    refine iff_of_false ?_ ha
    split <;> decide

/-- **Routing.**  The server takes the route that the bytes of the stream call
for exactly when its single peeks show enough of them: the header of an upgrade
with nothing but text around it, the method of a request.  In WebSocket mode the
bytes call for the WebSocket route if they begin with a request that is then
accepted. -/
theorem inboundRoute_eq_iff [Codecs] (underlay : UnderlayConfig) (fallback : FallbackHttpRuntime)
    (stream : List UInt8) (d : Arrival stream) :
    (inboundRoute underlay fallback d = streamRoute underlay fallback stream ↔
      PeeksSuffice underlay fallback d) ∧
    (underlay.mode = .webSocket →
      (streamRoute underlay fallback stream = .websocket ↔
        (acceptWebsocketUnderlay underlay.websocket.path.toList stream).isOk = true)) := by
  refine ⟨?_, streamRoute_eq_websocket_iff underlay fallback⟩
  cases hm : underlay.mode with
  | tcp => exact inboundRoute_eq_iff_tcp d underlay fallback hm
  | http2 => exact inboundRoute_eq_iff_http2 d underlay fallback hm
  | webSocket => exact inboundRoute_eq_iff_webSocket d underlay fallback hm

def upgradeRequest : List Char :=
  "GET /espejismo HTTP/1.1\r\nUpgrade: websocket\r\nConnection: Upgrade\r\n".toList ++
    "Sec-WebSocket-Key: AAAAAAAAAAAAAAAAAAAAAA==\r\nSec-WebSocket-Version: 13\r\n\r".toList

/-- The same request goes to the WebSocket underlay if it comes in one segment
and to the handshake of the tunnel if its last byte comes late; and if a byte
that is not text comes with it, it goes there in one segment, too. -/
theorem route_depends_on_segments :
    ∃ (underlay : UnderlayConfig) (fallback : FallbackHttpRuntime) (request : List UInt8)
      (hne : request ≠ []),
      underlay.mode = .webSocket ∧
      inboundRoute underlay fallback (.atOnce (request ++ [10])) = .websocket ∧
      inboundRoute underlay fallback (.inTwo request [10] hne) = .tunnel ∧
      (acceptWebsocketUnderlay underlay.websocket.path.toList (request ++ [10, 0xff])).isOk = true ∧
      inboundRoute underlay fallback (.atOnce (request ++ [10, 0xff])) = .tunnel := by
  refine ⟨{ mode := .webSocket },
    { enabled := false, upstream := none, probeTimeoutMs := 0, server := "", body := "" },
    Utf8.encode upgradeRequest, by decide +kernel, rfl, ?_, ?_, ?_, ?_⟩
  all_goals decide +kernel

end Espejismo
