import Espejismo.Config.Load

/-!
# Config.Options

What the two binaries take out of the shared part of a configuration
(`SharedConfig::frame_options` of `config/types.rs`, `MuxRuntimeConfig` of
`mux/mod.rs`).
-/

namespace Espejismo

structure FrameOptionOverrides where
  maxPadding : Option Nat := none
  jitterMs : Option Nat := none
  paddingChancePercent : Option Nat := none
  backpressureThresholdMs : Option Nat := none
  backpressureCooldownMs : Option Nat := none
  deriving DecidableEq

structure TimingOptions where
  jitterMs : Nat
  stealthShaperMode : StealthShaperMode
  stealthIdleNoise : StealthIdleNoise
  stealthMinDelayMs : Nat
  stealthMaxDelayMs : Nat
  stealthIdleMaxDelayMs : Nat
  pacingMaxBytesPerSec : Nat
  pacingBurstBytes : Nat
  deriving DecidableEq

namespace SharedConfig

def frameOptions (shared : SharedConfig) (overrides : FrameOptionOverrides) : FrameOptions :=
  { maxPadding := overrides.maxPadding.getD shared.maxPadding
    paddingChancePercent := overrides.paddingChancePercent.getD shared.paddingChancePercent
    backpressureThresholdMs := overrides.backpressureThresholdMs.getD shared.backpressureThresholdMs
    backpressureCooldownMs := overrides.backpressureCooldownMs.getD shared.backpressureCooldownMs
    obfuscationProfile := shared.obfuscation.profile
    chunkPolicy := shared.obfuscation.chunkPolicy
    randomizeChunks := shared.obfuscation.randomizeChunks
    minChunk := shared.obfuscation.minChunk
    maxChunk := shared.obfuscation.maxChunk
    stealthFrameSize := shared.stealth.frameSize
    stealthFrameSizeCandidates := shared.stealth.frameSizeCandidates
    stealthTickMs := shared.stealth.tickMs
    stealthShaperEnabled := shared.stealthShaper.enabled
    stealthPaddingBudgetBps := shared.stealthShaper.paddingBudgetBps
    pacingEnabled := shared.pacing.enabled
    pacingMinWriteBytes := shared.pacing.minWriteBytes
    heartbeatSecs := shared.tcp.heartbeatSecs
    keyUpdateFrames := shared.keyUpdateFrames }

def timingOptions (shared : SharedConfig) (overrides : FrameOptionOverrides) : TimingOptions :=
  { jitterMs := overrides.jitterMs.getD shared.jitterMs
    stealthShaperMode := shared.stealthShaper.mode
    stealthIdleNoise := shared.stealthShaper.idleNoise
    stealthMinDelayMs := shared.stealthShaper.minDelayMs
    stealthMaxDelayMs := shared.stealthShaper.maxDelayMs
    stealthIdleMaxDelayMs := shared.stealthShaper.idleMaxDelayMs
    pacingMaxBytesPerSec := shared.pacing.maxBytesPerSec
    pacingBurstBytes := shared.pacing.burstBytes }

end SharedConfig

theorem getD_eq_getD_iff : option.getD a = option.getD b ↔ (option = none → a = b) := by
  cases option <;> simp

@[simp] theorem getD_getD_self (option : Option α) (a : α) :
    option.getD (option.getD a) = option.getD a := by
  cases option <;> rfl

/-- The options for the frames, as both binaries write them into a configuration. -/
def FrameOptionOverrides.overrideShared (overrides : FrameOptionOverrides)
    (shared : SharedConfig) : SharedConfig :=
  { shared with
    maxPadding := overrides.maxPadding.getD shared.maxPadding
    jitterMs := overrides.jitterMs.getD shared.jitterMs
    paddingChancePercent := overrides.paddingChancePercent.getD shared.paddingChancePercent
    backpressureThresholdMs := overrides.backpressureThresholdMs.getD shared.backpressureThresholdMs
    backpressureCooldownMs := overrides.backpressureCooldownMs.getD shared.backpressureCooldownMs }

structure MuxRuntimeConfig where
  mode : MuxMode
  maxStreams : Nat
  nativeInitialWindowBytes : Nat
  nativeStreamBufferFrames : Nat
  nativeSendQueueFrames : Nat
  nativeIdleTimeoutSecs : Nat
  nativeDrainTimeoutSecs : Nat
  deriving DecidableEq

def MuxRuntimeConfig.fromConfig (maxStreams : Nat) (config : MuxConfig) : MuxRuntimeConfig :=
  { mode := config.mode
    maxStreams := max maxStreams 1
    nativeInitialWindowBytes := max config.nativeInitialWindowBytes 1
    nativeStreamBufferFrames := max config.nativeStreamBufferFrames 1
    nativeSendQueueFrames := max config.nativeSendQueueFrames 1
    nativeIdleTimeoutSecs := max config.nativeIdleTimeoutSecs 1
    nativeDrainTimeoutSecs := max config.nativeDrainTimeoutSecs 1 }

/-! ## When two configurations give the same -/

/-- The shared sections agree on what a named profile may write and a running
binary takes for its frames and streams, where no option hides it. -/
structure SharedConfig.Agrees (overrides : FrameOptionOverrides) (shared other : SharedConfig) :
    Prop where
  maxPadding : overrides.maxPadding = none → other.maxPadding = shared.maxPadding
  jitterMs : overrides.jitterMs = none → other.jitterMs = shared.jitterMs
  paddingChancePercent :
    overrides.paddingChancePercent = none → other.paddingChancePercent = shared.paddingChancePercent
  obfuscation : other.obfuscation = shared.obfuscation
  stealth : other.stealth = shared.stealth
  stealthShaper : other.stealthShaper = shared.stealthShaper
  pacing : other.pacing = shared.pacing
  keyUpdateFrames : other.keyUpdateFrames = shared.keyUpdateFrames
  nativeInitialWindowBytes :
    other.mux.nativeInitialWindowBytes = shared.mux.nativeInitialWindowBytes
  maxStreams : other.maxStreams = shared.maxStreams

theorem SharedConfig.Agrees.refl (overrides : FrameOptionOverrides) (shared : SharedConfig) :
    shared.Agrees overrides shared := by
  constructor <;> simp

theorem positive_of_parseConfig (h : parseConfig config = .ok config) :
    0 < config.shared.maxStreams ∧ 0 < config.shared.mux.nativeInitialWindowBytes := by
  have hs := holds_of_parseConfig h (.positive "shared.max_streams" config.shared.maxStreams)
    (by simp [EspejismoConfig.checks, EspejismoConfig.limitChecks])
  have hw := holds_of_parseConfig h
    (.positive "shared.mux.native_initial_window_bytes" config.shared.mux.nativeInitialWindowBytes)
    (by simp [EspejismoConfig.checks, MuxConfig.checks])
  exact ⟨of_decide_eq_true hs, of_decide_eq_true hw⟩

theorem EspejismoConfig.agrees_withProfiled_iff {config : EspejismoConfig}
    (overrides : FrameOptionOverrides) (hs : 0 < config.shared.maxStreams)
    (hw : 0 < config.shared.mux.nativeInitialWindowBytes)
    (hs' : 0 < other.shared.maxStreams)
    (hw' : 0 < other.shared.mux.nativeInitialWindowBytes) :
    ((config.withProfiled other).shared.frameOptions overrides =
        config.shared.frameOptions overrides ∧
      (config.withProfiled other).shared.timingOptions overrides =
        config.shared.timingOptions overrides ∧
      MuxRuntimeConfig.fromConfig (config.withProfiled other).shared.maxStreams
          (config.withProfiled other).shared.mux =
        MuxRuntimeConfig.fromConfig config.shared.maxStreams config.shared.mux) ↔
      config.shared.Agrees overrides other.shared := by
  have hma {a b : Nat} (ha : 0 < a) (hb : 0 < b) : max a 1 = max b 1 ↔ a = b := by omega
  simp only [withProfiled, SharedConfig.frameOptions, SharedConfig.timingOptions,
    MuxRuntimeConfig.fromConfig, FrameOptions.mk.injEq, TimingOptions.mk.injEq,
    MuxRuntimeConfig.mk.injEq, getD_eq_getD_iff, hma hs' hs, hma hw' hw,
    and_true, true_and]
  constructor
  · rintro ⟨⟨hpa, hch, hpr, hpo, hra, hmi, hmc, hsi, hca,
      hti, hsh, hbu, hpc, hwr, hke⟩,
      ⟨hji, hmo, hno, hde, hmd, hid, hrt, hbr⟩, hs, hw⟩
    exact
      { maxPadding := hpa
        jitterMs := hji
        paddingChancePercent := hch
        obfuscation := ObfuscationConfig.ext hpr hpo hra hmi hmc
        stealth := StealthConfig.ext hsi hca hti
        stealthShaper := StealthShaperConfig.ext hsh hmo hno hbu hde hmd hid
        pacing := PacingConfig.ext hpc hrt hbr hwr
        keyUpdateFrames := hke
        nativeInitialWindowBytes := hw
        maxStreams := hs }
  · intro h
    simp only [h.obfuscation, h.stealth, h.stealthShaper, h.pacing, h.keyUpdateFrames,
      h.nativeInitialWindowBytes, h.maxStreams, and_true]
    exact ⟨⟨h.maxPadding, h.paddingChancePercent⟩, h.jitterMs⟩

end Espejismo
