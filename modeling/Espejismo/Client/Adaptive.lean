import Mathlib.Data.List.Infix
import Espejismo.Binary.Word

/-!
# Client.Adaptive

The throughput settings of a client for the round-trip times that it measures
(`adaptive.rs`).  The window of the multiplexer follows the smoothed time; the buffers
are raised and restored behind a gate with two thresholds.

The `f64` arithmetic is a parameter (`RttArith`): the results hold however it rounds.
-/

namespace Espejismo.Client

open Binary List

structure Tunables where
  muxWindow : Nat
  tunnelBuffer : Nat
  tcpSend : Nat
  tcpRecv : Nat

structure AdaptiveThroughputFloor where
  tunnelBuffer : Nat
  muxWindowBytes : Nat
  tcpBufferBytes : Nat

/-- `adaptive_throughput_floor` of `config/mod.rs`, of a time in nanoseconds. -/
def adaptiveThroughputFloor (nanos : Nat) : AdaptiveThroughputFloor :=
  let bdpBytes := min (max (1000000000 * nanos / 8000000000) (1024 * 1024)) (64 * 1024 * 1024)
  { tunnelBuffer := min (satMul bdpBytes 2) (32 * 1024 * 1024)
    muxWindowBytes := bdpBytes
    tcpBufferBytes := 4 * 1024 * 1024 }

structure AdaptiveEligibility where
  tunnelBuffer : Bool
  muxWindow : Bool
  tcpBuffers : Bool

inductive Level where
  | high
  | low
  | between
  deriving DecidableEq

structure RttArith (R : Type) where
  /-- `rtt.as_secs_f64() * 1000.0`. -/
  millis : Nat → R
  /-- `RTT_ALPHA * ms + (1.0 - RTT_ALPHA) * smoothed`. -/
  smooth : R → R → R
  /-- `> ENGAGE_RTT_MS`, else `< RELEASE_RTT_MS`. -/
  level : R → Level
  /-- `Duration::from_secs_f64(smoothed / 1000.0)`. -/
  nanos : R → Nat

structure AdaptiveThroughput (R : Type) where
  baseline : Tunables
  eligibility : AdaptiveEligibility
  current : Tunables
  /-- `none` while not `initialized`. -/
  smoothedRttMs : Option R := none
  aboveEngage : Nat := 0
  belowRelease : Nat := 0
  boostActive : Bool := false

namespace AdaptiveThroughput

variable {R : Type} (f : RttArith R)

def new (baseline : Tunables) (eligibility : AdaptiveEligibility) : AdaptiveThroughput R :=
  { baseline, eligibility, current := baseline }

def countLevel (a : AdaptiveThroughput R) : Level → AdaptiveThroughput R
  | .high => { a with aboveEngage := min (a.aboveEngage + 1) 4294967295, belowRelease := 0 }
  | .low => { a with belowRelease := min (a.belowRelease + 1) 4294967295, aboveEngage := 0 }
  -- inside the deadband the counters are kept
  | .between => a

def engage (a : AdaptiveThroughput R) (floor : AdaptiveThroughputFloor) : AdaptiveThroughput R :=
  let raised (eligible : Bool) (value floor : Nat) := if eligible then max value floor else value
  { a with
    current := { a.current with
      tunnelBuffer := raised a.eligibility.tunnelBuffer a.current.tunnelBuffer floor.tunnelBuffer
      tcpSend := raised a.eligibility.tcpBuffers a.current.tcpSend floor.tcpBufferBytes
      tcpRecv := raised a.eligibility.tcpBuffers a.current.tcpRecv floor.tcpBufferBytes }
    boostActive := true
    aboveEngage := 0 }

def release (a : AdaptiveThroughput R) : AdaptiveThroughput R :=
  let tcp := a.eligibility.tcpBuffers
  { a with
    current := { a.current with
      tunnelBuffer := a.baseline.tunnelBuffer
      tcpSend := if tcp then a.baseline.tcpSend else a.current.tcpSend
      tcpRecv := if tcp then a.baseline.tcpRecv else a.current.tcpRecv }
    boostActive := false
    belowRelease := 0 }

def settle (a : AdaptiveThroughput R) (floor : AdaptiveThroughputFloor) : AdaptiveThroughput R :=
  if !a.boostActive && 2 ≤ a.aboveEngage then a.engage floor
  else if a.boostActive && 3 ≤ a.belowRelease then a.release
  else a

def nextRtt (rtt : Nat) : Option R → R
  | none => f.millis rtt
  | some smoothed => f.smooth (f.millis rtt) smoothed

/-- The window is recomputed from every sample, with no gate. -/
def follow (a : AdaptiveThroughput R) (smoothed : R) (floor : AdaptiveThroughputFloor) :
    AdaptiveThroughput R :=
  { a with
    smoothedRttMs := some smoothed
    current.muxWindow := if a.eligibility.muxWindow then
      max a.baseline.muxWindow floor.muxWindowBytes else a.current.muxWindow }

def observeRtt (a : AdaptiveThroughput R) (rtt : Nat) : AdaptiveThroughput R :=
  let smoothed := nextRtt f rtt a.smoothedRttMs
  let floor := adaptiveThroughputFloor (f.nanos smoothed)
  ((a.follow smoothed floor).countLevel (f.level smoothed)).settle floor

/-- The state after some samples, of which the latest comes first. -/
def after (a : AdaptiveThroughput R) : List Nat → AdaptiveThroughput R
  | [] => a
  | rtt :: rtts => (after a rtts).observeRtt f rtt

/-! ## The gate -/

variable {a : AdaptiveThroughput R} {floor : AdaptiveThroughputFloor} (baseline : Tunables)
  (eligibility : AdaptiveEligibility) (rtts : List Nat)

def smoothedRtt : List Nat → Option R
  | [] => none
  | rtt :: rtts => some (nextRtt f rtt (smoothedRtt rtts))

/-- The levels outside the deadband, the latest first. -/
def levels : List Nat → List Level
  | [] => []
  | rtt :: rtts =>
    match f.level (nextRtt f rtt (smoothedRtt f rtts)) with
    | .between => levels rtts
    | l => l :: levels rtts

/-- Two high levels in a row, and since then never three low ones. -/
def Engaged (ls : List Level) : Prop :=
  ∃ since before, ls = since ++ .high :: .high :: before ∧ ¬ [.low, .low, .low] <:+: since

theorem engaged_high : Engaged (.high :: ls) ↔ Engaged ls ∨ ls.head? = some .high := by
  constructor
  · rintro ⟨_ | ⟨l, since⟩, before, he, hno⟩
    · obtain ⟨-, rfl⟩ := cons.inj he
      exact .inr rfl
    · obtain ⟨-, rfl⟩ := cons.inj he
      exact .inl ⟨since, before, rfl, fun h => hno (infix_cons h)⟩
  · rintro (⟨since, before, rfl, hno⟩ | hhe)
    · refine ⟨.high :: since, before, rfl, fun h => ?_⟩
      simp [infix_cons_iff, hno] at h
    · obtain ⟨before, rfl⟩ := head?_eq_some_iff.mp hhe
      exact ⟨[], before, rfl, by simp⟩

theorem engaged_low : Engaged (.low :: ls) ↔ Engaged ls ∧ ¬ [.low, .low] <+: ls := by
  constructor
  · rintro ⟨_ | ⟨l, since⟩, before, he, hno⟩
    · cases he
    obtain ⟨rfl, rfl⟩ := cons.inj he
    refine ⟨⟨since, before, rfl, fun h => hno (infix_cons h)⟩, fun h => hno ?_⟩
    match since, h with
    | .low :: .low :: since, _ => exact ⟨[], since, rfl⟩
  · rintro ⟨⟨since, before, rfl, hno⟩, hst⟩
    refine ⟨.low :: since, before, rfl, fun h => ?_⟩
    rcases infix_cons_iff.mp h with hpr | hin
    · exact hst (((prefix_cons_inj _).mp hpr).trans (prefix_append ..))
    · exact hno hin

structure Gate (ls : List Level) (a : AdaptiveThroughput R) : Prop where
  active_iff : a.boostActive = true ↔ Engaged ls
  above : a.boostActive = false →
    a.aboveEngage = (ls.takeWhile (· = .high)).length ∧ a.aboveEngage < 2
  below : a.boostActive = true →
    a.belowRelease = (ls.takeWhile (· = .low)).length ∧ a.belowRelease < 3

theorem Gate.between (h : Gate ls a) : Gate ls (a.settle floor) := by
  have hsa : a.settle floor = a := by
    have := h.above
    have := h.below
    unfold settle
    grind
  rwa [hsa]

theorem head?_eq_high {ls : List Level} :
    ls.head? = some .high ↔ 1 ≤ (ls.takeWhile (· = .high)).length := by
  cases ls with
  | nil => simp
  | cons l ls => cases l <;> simp

theorem isPrefix_low {ls : List Level} :
    [.low, .low] <+: ls ↔ 2 ≤ (ls.takeWhile (· = .low)).length := by
  match ls with
  | [] => simp
  | [l] => cases l <;> simp
  | l :: l' :: ls => cases l <;> cases l' <;> simp

theorem Gate.high (h : Gate ls a) : Gate (.high :: ls) ((a.countLevel .high).settle floor) := by
  have hn := @engaged_high ls
  rw [← h.active_iff, head?_eq_high] at hn
  cases hb : a.boostActive with
  | true =>
    simp only [hb, true_or, iff_true] at hn
    constructor <;> simp [settle, countLevel, hb, hn]
  | false =>
    obtain ⟨hc, hlt⟩ := h.above hb
    simp only [hb, Bool.false_eq_true, false_or, ← hc] at hn
    by_cases hon : 1 ≤ a.aboveEngage
    · have hg : 2 ≤ min (a.aboveEngage + 1) 4294967295 := by omega
      constructor <;> simp [settle, countLevel, engage, hb, hg, hn, hon]
    · have hg : a.aboveEngage = 0 := by omega
      rw [hg] at hc
      constructor <;> simp [settle, countLevel, hb, hg, hn, ← hc]

theorem Gate.low (h : Gate ls a) : Gate (.low :: ls) ((a.countLevel .low).settle floor) := by
  have hn := @engaged_low ls
  rw [← h.active_iff, isPrefix_low] at hn
  cases hb : a.boostActive with
  | false =>
    simp only [hb, Bool.false_eq_true, false_and, iff_false] at hn
    constructor <;> simp [settle, countLevel, hb, hn]
  | true =>
    obtain ⟨hc, hlt⟩ := h.below hb
    simp only [hb, true_and, ← hc] at hn
    by_cases htw : 2 ≤ a.belowRelease
    · have hg : 3 ≤ min (a.belowRelease + 1) 4294967295 := by omega
      constructor <;> simp [settle, countLevel, release, hb, hg, hn, htw]
    · have hg : ¬ 3 ≤ min (a.belowRelease + 1) 4294967295 := by omega
      constructor <;> simp [settle, countLevel, hb, hg, hn, ← hc] <;> omega

theorem Gate.follow (h : Gate ls a) : Gate ls (a.follow smoothed floor) :=
  ⟨h.active_iff, h.above, h.below⟩

theorem smoothedRttMs_settle (a : AdaptiveThroughput R) :
    (a.settle floor).smoothedRttMs = a.smoothedRttMs := by
  unfold settle
  split
  · rfl
  split <;> rfl

theorem smoothedRttMs_observeRtt (a : AdaptiveThroughput R) (rtt : Nat) :
    (a.observeRtt f rtt).smoothedRttMs = some (nextRtt f rtt a.smoothedRttMs) := by
  rw [observeRtt, smoothedRttMs_settle]
  cases f.level (nextRtt f rtt a.smoothedRttMs) <;> rfl

theorem gate_after :
    let a := after f (new baseline eligibility) rtts
    a.smoothedRttMs = smoothedRtt f rtts ∧ Gate (levels f rtts) a := by
  induction rtts with
  | nil => exact ⟨rfl, by simp [after, new, levels, Engaged], by simp [after, new, levels], nofun⟩
  | cons rtt rtts ih =>
    obtain ⟨hrt, hg⟩ := ih
    refine ⟨by rw [after, smoothedRttMs_observeRtt, hrt, smoothedRtt], ?_⟩
    rw [after, observeRtt, levels, hrt]
    cases hlev : f.level (nextRtt f rtt (smoothedRtt f rtts)) with
    | high => exact hg.follow.high
    | low => exact hg.follow.low
    | between => exact hg.follow.between

/-- **The gate is exact**, for every sequence of samples: the buffers are raised exactly
when two smoothed times outside the deadband were high in a row and since then no three
of them low. -/
theorem boost_active_iff :
    (after f (new baseline eligibility) rtts).boostActive = true ↔ Engaged (levels f rtts) :=
  (gate_after f baseline eligibility rtts).2.active_iff

/-! ## The settings -/

/-- Only an eligible setting is raised, and to the cap at most. -/
def Raised (eligible : Bool) (cap base value : Nat) : Prop :=
  base ≤ value ∧ value ≤ max base cap ∧ (eligible = false → value = base)

theorem Raised.refl : Raised eligible cap base base :=
  ⟨Nat.le_refl _, Nat.le_max_left .., fun _ => rfl⟩

structure Tuned (a : AdaptiveThroughput R) : Prop where
  window : Raised a.eligibility.muxWindow
    (64 * 1024 * 1024) a.baseline.muxWindow a.current.muxWindow
  buffer : Raised a.eligibility.tunnelBuffer (32 * 1024 * 1024) a.baseline.tunnelBuffer
    a.current.tunnelBuffer
  send : Raised a.eligibility.tcpBuffers (4 * 1024 * 1024) a.baseline.tcpSend a.current.tcpSend
  recv : Raised a.eligibility.tcpBuffers (4 * 1024 * 1024) a.baseline.tcpRecv a.current.tcpRecv
  idle : a.boostActive = false → a.current.tunnelBuffer = a.baseline.tunnelBuffer ∧
    a.current.tcpSend = a.baseline.tcpSend ∧ a.current.tcpRecv = a.baseline.tcpRecv

theorem adaptiveThroughputFloor_le (nanos : Nat) :
    let floor := adaptiveThroughputFloor nanos
    floor.muxWindowBytes ≤ 64 * 1024 * 1024 ∧ floor.tunnelBuffer ≤ 32 * 1024 * 1024 ∧
      floor.tcpBufferBytes ≤ 4 * 1024 * 1024 :=
  ⟨Nat.min_le_right .., Nat.min_le_right .., Nat.le_refl _⟩

theorem Tuned.follow (h : Tuned a) (hflo : floor.muxWindowBytes ≤ 64 * 1024 * 1024) :
    Tuned (a.follow smoothed floor) := by
  refine ⟨?_, h.buffer, h.send, h.recv, h.idle⟩
  have := h.window
  grind [AdaptiveThroughput.follow, Raised]

theorem Tuned.countLevel (h : Tuned a) (l : Level) : Tuned (a.countLevel l) := by
  cases l <;> exact ⟨h.window, h.buffer, h.send, h.recv, h.idle⟩

theorem Tuned.settle (h : Tuned a) (hbu : floor.tunnelBuffer ≤ 32 * 1024 * 1024)
    (htc : floor.tcpBufferBytes ≤ 4 * 1024 * 1024) : Tuned (a.settle floor) := by
  have hwi := h.window
  have hb := h.buffer
  have hs := h.send
  have hr := h.recv
  have hidl := h.idle
  unfold AdaptiveThroughput.settle
  split
  · constructor <;> grind [engage, Raised]
  split
  · constructor <;> grind [release, Raised]
  · exact h

theorem Tuned.observeRtt (h : Tuned a) (rtt : Nat) : Tuned (a.observeRtt f rtt) := by
  obtain ⟨hwi, hbu, htc⟩ := adaptiveThroughputFloor_le (f.nanos (nextRtt f rtt a.smoothedRttMs))
  exact ((h.follow hwi).countLevel _).settle hbu htc

/-- **The settings stay in bounds**, for every sequence of samples. -/
theorem tunables_bounded : Tuned (after f (new baseline eligibility) rtts) := by
  induction rtts with
  | nil => exact ⟨.refl, .refl, .refl, .refl, fun _ => ⟨rfl, rfl, rfl⟩⟩
  | cons rtt rtts ih => exact ih.observeRtt f rtt

end AdaptiveThroughput

end Espejismo.Client
