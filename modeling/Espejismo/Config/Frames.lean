import Espejismo.Config.Options
import Espejismo.Protocol.Framing.Nonce
import Espejismo.Transport.Link

/-!
# Config.Frames

The frames of a session under an accepted configuration.  Both peers take their
frame options from `shared`, and with the stealth profile the session's nonce tag
picks one of the candidate sizes (`connect_lane` of `tunnel.rs`,
`run_authenticated_tunnel` of `handler.rs`), by an index computed in a `usize` that
need not be equally wide on both.
-/

namespace Espejismo

open Binary List EStateM FrameWriter Upload Endpoint FrameOptions

/-! ## The stealth sizes of an accepted configuration -/

def AcceptedSize (size : Nat) : Prop := 157 ≤ size ∧ size ≤ 65536

variable {size : Nat} {config : EspejismoConfig} {P : Platform} {o : FrameOptions} {w : FrameWriter}
  {e : Endpoint}

theorem acceptedSize_of_checks
    (h : ∀ check ∈ stealthFrameSizeChecks field size, check.holds) : AcceptedSize size := by
  simpa [stealthFrameSizeChecks, AcceptedSize, and_comm] using h

theorem AcceptedSize.validateStealthHandshakeFrame (h : AcceptedSize size) :
    validateStealthHandshakeFrame size = .ok () := by
  have hmi := h.1
  rw [Espejismo.validateStealthHandshakeFrame, if_neg]
  simp only [stealthHandshakeNonceLen, clientHelloTagLen, clientHelloFixedBodyLen, serverHelloLen]
  omega

theorem stealthChecks_of_parseConfig (h : parseConfig config = .ok config) :
    ∀ check ∈ config.shared.stealthChecks, check.holds := by
  intro check hme
  refine holds_of_parseConfig h check ?_
  clear h
  simp only [EspejismoConfig.checks, mem_append]
  tauto

theorem candidates_of_parseConfig (h : parseConfig config = .ok config) :
    config.shared.stealth.frameSizeCandidates.Nodup ∧
      ∀ size ∈ config.shared.stealth.frameSizeCandidates, AcceptedSize size := by
  have hea := Check.of_eachOnce fun check hme =>
    stealthChecks_of_parseConfig h check (mem_append_right _ hme)
  exact ⟨hea.1, fun size hsi => acceptedSize_of_checks (hea.2 size hsi).2⟩

theorem stealth_of_parseConfig (h : parseConfig config = .ok config)
    (hsl : config.shared.obfuscation.profile = .stealth) :
    AcceptedSize config.shared.stealth.frameSize ∧ 0 < config.shared.stealth.tickMs := by
  have hho := stealthChecks_of_parseConfig h
  simp only [SharedConfig.stealthChecks, hsl, decide_true, Check.guarded, if_true,
    forall_mem_append, forall_mem_cons] at hho
  exact ⟨acceptedSize_of_checks hho.1.1, of_decide_eq_true hho.1.2.1⟩

/-! ## The size of a session -/

def taggedKeys (selector : Nat) (role : Role) : SessionKeys :=
  { sampleKeys role with nonceTag := ⟨encodeBE 8 selector, length_encodeBE 8 selector⟩ }

theorem SessionKeys.Mirrors.withTag {w : SessionKeys} (h : Mirrors w r) (tag : Bytes 8) :
    Mirrors { w with nonceTag := tag } { r with nonceTag := tag } :=
  { key := h.key, lenMask := h.lenMask, label := h.label, generation := h.generation
    nonceTag := rfl }

theorem mirrored_taggedKeys (selector : Nat) :
    SessionKeys.Mirrored (taggedKeys selector .client) (taggedKeys selector .server) :=
  have h : SessionKeys.Mirrored (sampleKeys .client) (sampleKeys .server) :=
    mirrored_deriveKeys _ _ _ _
  ⟨h.1.withTag _, h.2.withTag _⟩

theorem stealthSelector_taggedKeys (h : selector < 2 ^ 64) (role : Role) :
    (taggedKeys selector role).stealthSelector = selector :=
  decodeBE_encodeBE (by omega)

theorem usize_mod_of_dvd (h : n ∣ 2 ^ 32) (width : PointerWidth) (x : Nat) :
    width.usize x % n = x % n := by
  cases width with
  | bits32 => exact Nat.mod_mod_of_dvd x h
  | bits64 => exact Nat.mod_mod_of_dvd x (Nat.dvd_trans h (by decide))

theorem usize_two_pow_mod (n : Nat) :
    PointerWidth.bits32.usize (2 ^ 32) % n = 0 ∧
      PointerWidth.bits64.usize (2 ^ 32) % n = 2 ^ 32 % n :=
  ⟨Nat.zero_mod n, rfl⟩

theorem getD_inj_of_nodup {sizes : List Nat} (h : sizes.Nodup) (hi : i < sizes.length)
    (hj : j < sizes.length) (heq : sizes.getD i 0 = sizes.getD j 0) : i = j := by
  simp only [getD_eq_getElem?_getD, getElem?_eq_getElem hi, getElem?_eq_getElem hj] at heq
  exact (h.getElem_inj_iff).mp heq

/-- **When both peers pick the same stealth frame size**: with no candidates the
size of the configuration has to be the same, and otherwise the widths, unless the
number of candidates divides `2 ^ 32`. -/
theorem selected_sizes_agree_iff {client server : EspejismoConfig}
    (hcl : parseConfig client = .ok client)
    (hli : server.shared.stealth.frameSizeCandidates = client.shared.stealth.frameSizeCandidates)
    (clientOverrides serverOverrides : FrameOptionOverrides)
    (clientWidth serverWidth : PointerWidth) :
    (∀ clientKeys serverKeys, SessionKeys.Mirrored clientKeys serverKeys →
      (client.shared.frameOptions clientOverrides).selectStealthFrameSize clientWidth
          clientKeys.stealthSelector =
        (server.shared.frameOptions serverOverrides).selectStealthFrameSize serverWidth
          serverKeys.stealthSelector) ↔
      if client.shared.stealth.frameSizeCandidates = [] then
        client.shared.stealth.frameSize = server.shared.stealth.frameSize
      else
        clientWidth = serverWidth ∨ client.shared.stealth.frameSizeCandidates.length ∣ 2 ^ 32 := by
  have hno := (candidates_of_parseConfig hcl).1
  simp only [FrameOptions.selectStealthFrameSize, SharedConfig.frameOptions, hli, List.isEmpty_iff]
  generalize client.shared.stealth.frameSizeCandidates = sizes at hno ⊢
  by_cases hni : sizes = []
  · simp only [hni]
    exact ⟨fun h => h _ _ (mirrored_taggedKeys 0), fun h _ _ _ => h⟩
  simp only [hni, if_false]
  have hpo : 0 < sizes.length := List.length_pos_iff.mpr hni
  have hlt : ∀ x, x % sizes.length < sizes.length := fun x => Nat.mod_lt x hpo
  constructor
  · intro h
    -- The nonce tag whose low half is zero tells the two widths apart.
    have hin := getD_inj_of_nodup hno (hlt _) (hlt _) (h _ _ (mirrored_taggedKeys (2 ^ 32)))
    rw [stealthSelector_taggedKeys (by decide), stealthSelector_taggedKeys (by decide)] at hin
    obtain ⟨hnar, hwid⟩ := usize_two_pow_mod sizes.length
    cases clientWidth <;> cases serverWidth
    · exact .inl rfl
    · exact .inr (Nat.dvd_of_mod_eq_zero (by omega))
    · exact .inr (Nat.dvd_of_mod_eq_zero (by omega))
    · exact .inl rfl
  · intro h clientKeys serverKeys hke
    have hsc : clientKeys.stealthSelector = serverKeys.stealthSelector := by
      rw [SessionKeys.stealthSelector, SessionKeys.stealthSelector, hke.1.nonceTag]
    rw [hsc]
    rcases h with rfl | hdv
    · rfl
    · rw [usize_mod_of_dvd hdv, usize_mod_of_dvd hdv]

def candidateConfig (sizes : List Nat) : EspejismoConfig :=
  { shared := {
      obfuscation := { profile := .stealth }
      stealth := { frameSizeCandidates := sizes } } }

theorem selected_sizes_agree_four :
    parseConfig (candidateConfig [512, 1024, 2048, 4096]) =
        .ok (candidateConfig [512, 1024, 2048, 4096]) ∧
      ((candidateConfig [512, 1024, 2048, 4096]).shared.frameOptions {}).selectStealthFrameSize
          .bits32 (taggedKeys (2 ^ 32) .client).stealthSelector =
        ((candidateConfig [512, 1024, 2048, 4096]).shared.frameOptions {}).selectStealthFrameSize
          .bits64 (taggedKeys (2 ^ 32) .server).stealthSelector := by
  have hco : parseConfig (candidateConfig [512, 1024, 2048, 4096]) =
      .ok (candidateConfig [512, 1024, 2048, 4096]) :=
    parseConfig_eq_ok_iff.mpr ⟨rfl, by decide, none, rfl⟩
  have hag := (selected_sizes_agree_iff hco rfl {} {} .bits32 .bits64).mpr (by decide)
  exact ⟨hco, hag _ _ (mirrored_taggedKeys (2 ^ 32))⟩

/-- Of three candidates a 32-bit client and a 64-bit server pick different ones. -/
theorem selected_sizes_differ :
    parseConfig (candidateConfig [512, 1024, 2048]) = .ok (candidateConfig [512, 1024, 2048]) ∧
    ∃ clientKeys serverKeys, SessionKeys.Mirrored clientKeys serverKeys ∧
      ((candidateConfig [512, 1024, 2048]).shared.frameOptions {}).selectStealthFrameSize
          .bits32 clientKeys.stealthSelector = 512 ∧
        ((candidateConfig [512, 1024, 2048]).shared.frameOptions {}).selectStealthFrameSize
          .bits64 serverKeys.stealthSelector = 1024 := by
  refine ⟨parseConfig_eq_ok_iff.mpr ⟨rfl, by decide, none, rfl⟩, _, _,
    mirrored_taggedKeys (2 ^ 32), ?_, ?_⟩
  · decide
  · decide

/-! ## What a send can fail with -/

theorem WriterStep.options (h : WriterStep P w w') : w'.options = w.options := by
  cases h <;> rfl

theorem WriterSteps.options (h : WriterSteps P w w') : w'.options = w.options := by
  induction h with
  | refl => rfl
  | tail _ hste ih => exact hste.options.trans ih

section Errors

variable {P : Platform}

def otherErrors : List Error := [.io, .panic, .msg "traffic key generation exhausted"]

variable {w : FrameWriter} {e : Error} {env : SendEnv} {ty : FrameType} {frame : Frame}

theorem writeOne_error {env : WriteEnv} (hf : Fits w.options frame)
    (h : (writeOne P env closing frame).run w = .error e w') : e ∈ otherErrors := by
  rcases writeOne_cases P env closing frame w with
    ⟨_, hba, -⟩ | ⟨_, -, hr⟩ | ⟨_, _, -, -, -, hr⟩
  · exact absurd hf hba
  · rw [hr] at h
    cases h
    decide
  · rw [hr] at h
    split at h <;> cases h
    decide

theorem rotateTx_error (h : (rotateTx P).run w = .error e w') : e ∈ otherErrors := by
  rw [run_rotateTx] at h
  unfold SessionKeys.updateTx nextKeyGeneration at h
  split at h
  · contradiction
  · next hke =>
    split at hke
    · next hge =>
      split at hge <;> cases hge
      cases hke
      cases h
      decide
    · contradiction

theorem observeWriteBackpressure_ok {env : WriteEnv} :
    (observeWriteBackpressure env).run w ≠ .error e w' := by
  exact nofun

theorem options_of_ok {x : Writing α} (hsp : WriterSteps P w (finalState (x.run w)))
    (h : x.run w = .ok a w') : w'.options = w.options := by
  rw [h] at hsp
  exact hsp.options

theorem maybeWriteKeyUpdate_error (ho : w.options.Usable)
    (h : (maybeWriteKeyUpdate P env ty).run w = .error e w') : e ∈ otherErrors := by
  simp only [maybeWriteKeyUpdate, run_bind, run_get] at h
  split at h
  · rcases run_bind_eq_error.mp h with h | ⟨_, _, -, h⟩
    · exact writeOne_error ⟨ho, Nat.zero_le _⟩ h
    · rcases run_bind_eq_error.mp h with h | ⟨_, _, -, h⟩
      · exact absurd h observeWriteBackpressure_ok
      · exact rotateTx_error h
  · contradiction

def FrameOptions.PaddingFits (o : FrameOptions) : Prop :=
  o.isStealth = true ∨ o.paddingChancePercent = 0 ∨ o.maxPadding ≤ normalPayloadCapacity

theorem fits_of_insertsPadding (hpa : w.options.PaddingFits) (h : insertsPadding w env ty = true) :
    Fits w.options (paddingFrame w.options env) := by
  have hdr : w.options.isStealth = false ∧ 0 < w.options.maxPadding ∧
      w.options.paddingChancePercent ≠ 0 := by
    unfold insertsPadding shouldSendPadding at h
    grind
  obtain ⟨hs, hpo, hc⟩ := hdr
  rcases hpa with hst | hzer | hl
  · rw [hs] at hst
    contradiction
  · contradiction
  · exact fits_paddingFrame env hs hpo hl

theorem maybeWritePadding_error (hpa : w.options.PaddingFits)
    (h : (maybeWritePadding P env ty).run w = .error e w') : e ∈ otherErrors := by
  simp only [maybeWritePadding, run_bind, run_get] at h
  split at h
  · next hins =>
    rcases run_bind_eq_error.mp h with h | ⟨_, _, -, h⟩
    · exact writeOne_error (fits_of_insertsPadding hpa hins) h
    · exact absurd h observeWriteBackpressure_ok
  · contradiction

theorem send_error (hf : Fits w.options frame) (hpa : w.options.PaddingFits)
    (h : (FrameWriter.send P env frame).run w = .error e w') : e ∈ otherErrors := by
  rcases run_bind_eq_error.mp h with h | ⟨_, w₁, hok₁, h⟩
  · exact maybeWriteKeyUpdate_error hf.1 h
  have ho₁ := options_of_ok (maybeWriteKeyUpdate_steps P env frame.ty w) hok₁
  rcases run_bind_eq_error.mp h with h | ⟨_, w₂, hok₂, h⟩
  · exact maybeWritePadding_error (ho₁ ▸ hpa) h
  have ho₂ := options_of_ok (maybeWritePadding_steps P env frame.ty w₁) hok₂
  rcases run_bind_eq_error.mp h with h | ⟨_, _, -, h⟩
  · exact writeOne_error ((ho₂.trans ho₁) ▸ hf) h
  · exact absurd h observeWriteBackpressure_ok

end Errors

/-! ## What a run of the transport can fail with -/

namespace Upload

variable {P : Platform} {u u₀ : Upload} {e : Error}

theorem result_send (hon : u₀.result = none)
    (h : (u₀.send P env frame).result = some (.error e)) :
    ∃ w, (FrameWriter.send P env frame).run u₀.writer = .error e w := by
  unfold send at h
  split at h
  · rw [hon] at h
    contradiction
  · next w hr =>
    cases h
    exact ⟨w, hr⟩

/-- **An event of the pump fails in a send** of a frame that fits. -/
theorem error_of_step (ho : u.writer.options.Usable) (hon : u.result = none)
    (h : (u.step P event).result = some (.error e)) :
    ∃ env frame w, Fits u.writer.options frame ∧
      (FrameWriter.send P env frame).run u.writer = .error e w := by
  have hid : u.result ≠ some (.error e) := by rw [hon]; exact nofun
  have hemp : ∀ ty, Fits u.writer.options { ty, payload := [] } := fun _ => ⟨ho, Nat.zero_le _⟩
  have hse : ∀ {env frame} {u₀ : Upload}, (u₀.send P env frame).result = some (.error e) →
      u₀.result = u.result → u₀.writer = u.writer → Fits u.writer.options frame →
        ∃ env frame w, Fits u.writer.options frame ∧
          (FrameWriter.send P env frame).run u.writer = .error e w := by
    intro env frame u₀ h hre hwr hf
    obtain ⟨w, hr⟩ := result_send (hre.trans hon) h
    exact ⟨env, frame, w, hf, hwr ▸ hr⟩
  have hfn : ∀ env, (u.finish P env).result = some (.error e) →
      ∃ env frame w, Fits u.writer.options frame ∧
        (FrameWriter.send P env frame).run u.writer = .error e w := by
    intro env h
    refine hse (?_ : (u.send P env closeFrame).result = _) rfl rfl (hemp .close)
    unfold finish at h
    dsimp only at h
    split at h
    · exact h
    · cases h
  simp only [step, hon, Option.isSome_none, Bool.false_eq_true, if_false] at h
  cases event with
  | read draw k env =>
    dsimp only [readStealth, readPlain] at h
    split at h
    · split at h
      · exact absurd h hid
      · split at h <;> exact absurd h hid
    · next hs =>
      split at h
      · exact hfn env h
      split at h
      · exact absurd h hid
      have hp : u.writer.options.isStealth = false := by simpa using hs
      have hl := someOf_le k (min (u.writer.options.nextChunkSize draw) u.inbox.length)
      have hb := nextChunkSize_bounds hp draw
      exact hse h rfl rfl (fits_of_plain hp (by simp; omega))
  | timer budget env =>
    dsimp only [timerStealth, timerPlain] at h
    split at h
    · split at h
      · split at h
        · exact hse h rfl rfl (hemp _)
        · exact absurd h hid
      split at h
      · exact hse h rfl rfl ⟨ho, by simp⟩
      split at h
      · exact hfn env h
      · split at h
        · exact hse h rfl rfl (hemp _)
        · exact absurd h hid
    · split at h
      · exact absurd h hid
      · exact hse h rfl rfl (hemp _)

theorem options_step (P : Platform) (u : Upload) (event : UploadEvent) :
    (u.step P event).writer.options = u.writer.options := by
  rcases writer_step P u event with h | ⟨call, h⟩
  · rw [h]
  · rw [h]
    exact (send_steps P call.1 call.2 u.writer).options

end Upload

/-- A run of an end whose options let every frame fit. -/
structure FramesFit (o : FrameOptions) (e : Endpoint) : Prop where
  options : e.up.writer.options = o
  errors : ∀ error, e.up.result = some (.error error) → error ∈ otherErrors

theorem framesFit_step (ho : o.Usable) (hpa : o.PaddingFits) (h : FramesFit o e)
    (event : EndpointEvent) : FramesFit o (e.step P event) := by
  cases event with
  | upload event =>
    refine ⟨(Upload.options_step P e.up event).trans h.options, fun error he => ?_⟩
    cases hre : e.up.result with
    | some =>
      have hsa : e.up.step P event = e.up := by simp [Upload.step, hre]
      rw [Endpoint.step, hsa] at he
      exact h.errors error he
    | none =>
      obtain ⟨env, frame, w, hf, hr⟩ := Upload.error_of_step (h.options ▸ ho) hre he
      exact send_error hf (h.options ▸ hpa) hr
  | appWrite bytes =>
    have hkp : (e.up.appWrite bytes).writer = e.up.writer ∧
        (e.up.appWrite bytes).result = e.up.result := by
      unfold Upload.appWrite
      split <;> exact ⟨rfl, rfl⟩
    dsimp only [Endpoint.step]
    split
    · exact h
    · exact ⟨hkp.1 ▸ h.options, hkp.2 ▸ h.errors⟩
  | _ => exact ⟨h.options, h.errors⟩

theorem framesFit_run (ho : o.Usable) (hpa : o.PaddingFits) (h : FramesFit o e)
    (events : List EndpointEvent) : FramesFit o (e.run P events) := by
  induction events generalizing e with
  | nil => exact h
  | cons event events ih => exact ih (framesFit_step ho hpa h event)

theorem framesFit_spawn (ho : o.Usable) (keys : SessionKeys) (bufferSize draw : Nat) :
    FramesFit o (.spawn keys o bufferSize draw) := by
  refine ⟨rfl, fun error he => ?_⟩
  simp only [spawn, start] at he
  split at he
  · next hs =>
    rw [stealthPayloadCapacity_eq hs (ho hs)] at he
    contradiction
  · contradiction

def oversizedDraw : SendEnv := { SendEnv.instant with paddingLen := normalPayloadCapacity }

theorem insertsPadding_oversizedDraw (hs : o.isStealth = false)
    (hc : o.paddingChancePercent ≠ 0) (hm : normalPayloadCapacity < o.maxPadding)
    (keys : SessionKeys) : insertsPadding (.new keys o) oversizedDraw .close = true := by
  have hcoi : 0 < min o.paddingChancePercent 100 := by omega
  have hpo : o.maxPadding ≠ 0 := by omega
  simpa [insertsPadding, shouldSendPadding, new, hs, hpo, hc, genBool,
    oversizedDraw, SendEnv.instant] using hcoi

theorem send_oversizedDraw (P : Platform) (hs : o.isStealth = false)
    (hc : o.paddingChancePercent ≠ 0) (hm : normalPayloadCapacity < o.maxPadding)
    (keys : SessionKeys) :
    (FrameWriter.send P oversizedDraw closeFrame).run (.new keys o) =
      .error (.msg "frame payload too large") (.new keys o) := by
  have hlen : (paddingFrame o oversizedDraw).payload.length = 1 + normalPayloadCapacity := by
    rw [paddingFrame, length_fillBytes, oversizedDraw, Nat.mod_eq_of_lt hm]
  have hwt : (writeOne P oversizedDraw.padding false (paddingFrame o oversizedDraw)).run
      (.new keys o) = .error (.msg "frame payload too large") (.new keys o) := by
    have hbi : normalPayloadCapacity < (paddingFrame o oversizedDraw).payload.length := by omega
    simp [writeOne, FrameWriter.new, hs, hbi]
  have hro : (maybeWriteKeyUpdate P oversizedDraw .close).run (.new keys o) =
      .ok () (.new keys o) := by
    simp [maybeWriteKeyUpdate, shouldKeyUpdate, FrameWriter.new]
  have hpd : (maybeWritePadding P oversizedDraw .close).run (.new keys o) =
      .error (.msg "frame payload too large") (.new keys o) := by
    have hins := insertsPadding_oversizedDraw hs hc hm keys
    simp only [maybeWritePadding, run_bind, run_get, hins, if_true]
    rw [show (FrameWriter.new keys o).options = o from rfl, hwt]
  simp [FrameWriter.send, sendWithOptionalPadding, closeFrame, hro, hpd]

theorem run_oversizedDraw (P : Platform) (hs : o.isStealth = false)
    (hc : o.paddingChancePercent ≠ 0) (hm : normalPayloadCapacity < o.maxPadding)
    (keys : SessionKeys) :
    ((Endpoint.spawn keys o 0 0).run P [.appShutdown,
      .upload (.read 0 0 oversizedDraw)]).up.result =
      some (.error (.msg "frame payload too large")) := by
  have hse := send_oversizedDraw P hs hc hm keys
  unfold FrameWriter.new at hse
  simp [Endpoint.run, Endpoint.step, Endpoint.spawn, Upload.start, Upload.appShutdown, Upload.step,
    hs, Upload.readPlain, Upload.drained, Upload.finish, Upload.send, hse, FrameWriter.new]

/-- The options of a session: with the stealth profile the size its keys pick. -/
def FrameOptions.forSession (o : FrameOptions) (width : PointerWidth) (keys : SessionKeys) :
    FrameOptions :=
  if o.isStealth then
    { o with stealthFrameSize := o.selectStealthFrameSize width keys.stealthSelector }
  else o

def frameSizeErrors : List Error :=
  [.msg "frame payload too large", .msg "encrypted frame too large",
    .msg "stealth frame payload too large", .msg "stealth encrypted frame size mismatch",
    .msg "shared.stealth.frame_size must leave room for frame metadata",
    .msg s!"shared.stealth.frame_size must be <= {stealthMaxFrame}"]

theorem not_frameSizeError {e : Error} (h : e ∈ otherErrors) : e ∉ frameSizeErrors := by
  simp only [otherErrors, mem_cons, not_mem_nil, or_false] at h
  rcases h with rfl | rfl | rfl <;> decide +kernel

/-- A stealth handshake block of this size takes a client hello with any padding
under the cap, and a server hello. -/
structure RoomForHandshake (P : Platform) (size : Nat) : Prop where
  client : ∀ cfg : HandshakeConfig P, ∃ cap, cfg.stealthClientPaddingCap size = .ok cap ∧
    ∀ env key label context (hello : List UInt8),
      hello.length ≤ clientHelloTagLen + clientHelloFixedBodyLen + cap →
        ∃ block, maskStealthHandshakeBlock P env key label context hello size = .ok block
  server : ∀ env key label context (hello : List UInt8), hello.length ≤ serverHelloLen →
    ∃ block, maskStealthHandshakeBlock P env key label context hello size = .ok block

theorem roomForHandshake_of_acceptedSize (P : Platform) (h : AcceptedSize size) :
    RoomForHandshake P size := by
  have hmi := h.1
  have hva := h.validateStealthHandshakeFrame
  have hbl : ∀ env key label context (hello : List UInt8),
      hello.length + stealthHandshakeNonceLen ≤ size →
        ∃ block, maskStealthHandshakeBlock P env key label context hello size = .ok block := by
    intro env key label context hello hl
    rw [maskStealthHandshakeBlock, hva]
    rw [if_neg (by omega)]
    exact ⟨_, rfl⟩
  constructor
  · intro cfg
    simp only [HandshakeConfig.stealthClientPaddingCap, hva]
    rw [if_neg (by simp only [stealthHandshakeNonceLen, clientHelloTagLen,
      clientHelloFixedBodyLen]; omega)]
    refine ⟨_, rfl, fun env key label context hello hl => hbl _ _ _ _ _ ?_⟩
    simp only [stealthHandshakeNonceLen, clientHelloTagLen, clientHelloFixedBodyLen] at hl ⊢
    omega
  · intro env key label context hello hl
    apply hbl
    simp only [stealthHandshakeNonceLen, serverHelloLen] at hl ⊢
    omega

/-- **What framing owes every session of a configuration.** -/
structure FramesWork (P : Platform) (shared : SharedConfig) : Prop where
  sends : ∀ width keys bufferSize draw events error,
    ((Endpoint.spawn keys ((shared.frameOptions {}).forSession width keys) bufferSize draw).run P
      events).up.result = some (.error error) → error ∉ frameSizeErrors
  capacity : shared.obfuscation.profile = .stealth → ∀ width keys, ∃ capacity,
    ((shared.frameOptions {}).forSession width keys).stealthPayloadCapacity = .ok capacity ∧
      1 ≤ capacity
  handshake : shared.obfuscation.profile = .stealth → ∀ width keys,
    RoomForHandshake P shared.stealth.frameSize ∧
      RoomForHandshake P ((shared.frameOptions {}).forSession width keys).stealthFrameSize

section Accepted

variable {config : EspejismoConfig}

theorem isStealth_frameOptions (shared : SharedConfig) :
    (shared.frameOptions {}).isStealth = decide (shared.obfuscation.profile = .stealth) := rfl

theorem acceptedSize_forSession (h : parseConfig config = .ok config)
    (hsl : config.shared.obfuscation.profile = .stealth) (width : PointerWidth)
    (keys : SessionKeys) :
    AcceptedSize ((config.shared.frameOptions {}).forSession width keys).stealthFrameSize := by
  have hsz := (candidates_of_parseConfig h).2
  have hsi := (stealth_of_parseConfig h hsl).1
  rw [forSession, isStealth_frameOptions, if_pos (by simpa using hsl)]
  simp only [selectStealthFrameSize, List.isEmpty_iff]
  split
  · exact hsi
  · next hne =>
    have hlt := Nat.mod_lt (width.usize keys.stealthSelector) (List.length_pos_iff.mpr hne)
    rw [List.getD_eq_getElem?_getD, List.getElem?_eq_getElem hlt]
    exact hsz _ (List.getElem_mem hlt)

theorem validateStealth_forSession (h : parseConfig config = .ok config)
    (hsl : config.shared.obfuscation.profile = .stealth) (width : PointerWidth)
    (keys : SessionKeys) :
    ((config.shared.frameOptions {}).forSession width keys).validateStealth = .ok () := by
  have hsi := acceptedSize_forSession h hsl width keys
  have hti : ((config.shared.frameOptions {}).forSession width keys).stealthTickMs ≠ 0 := by
    have hpo := (stealth_of_parseConfig h hsl).2
    rw [forSession, isStealth_frameOptions, if_pos (by simpa using hsl)]
    exact Nat.ne_of_gt hpo
  unfold AcceptedSize at hsi
  rw [validateStealth, if_neg (by simp only [aeadTagLen, stealthHeaderLen]; omega),
    if_neg (by simp only [stealthMaxFrame]; omega), if_neg hti]

theorem usable_forSession (h : parseConfig config = .ok config) (width : PointerWidth)
    (keys : SessionKeys) : ((config.shared.frameOptions {}).forSession width keys).Usable := by
  intro hs
  refine validateStealth_forSession h ?_ width keys
  by_contra hp
  rw [forSession, isStealth_frameOptions, if_neg (by simpa using hp)] at hs
  exact hp (of_decide_eq_true hs)

/-- **An accepted configuration frames every session** exactly when its padding
fits: with the stealth profile, without padding, or with a bound on it that a frame
can hold. -/
theorem frames_work_iff (P : Platform) (h : parseConfig config = .ok config) :
    FramesWork P config.shared ↔
      config.shared.obfuscation.profile = .stealth ∨ config.shared.paddingChancePercent = 0 ∨
        config.shared.maxPadding ≤ normalPayloadCapacity := by
  constructor
  · intro hwo
    by_contra hcn
    simp only [not_or, Nat.not_le] at hcn
    obtain ⟨hp, hc, hm⟩ := hcn
    have hp : (config.shared.frameOptions {}).isStealth = false := decide_eq_false hp
    have hss : (config.shared.frameOptions {}).forSession .bits64 (sampleKeys .client) =
        config.shared.frameOptions {} := if_neg (by rw [hp]; decide)
    have hfa := run_oversizedDraw P hp hc hm (sampleKeys .client)
    rw [← hss] at hfa
    exact hwo.sends _ _ _ _ _ _ hfa (by decide)
  · intro hcn
    have hpa : ∀ width keys, ((config.shared.frameOptions
        {}).forSession width keys).PaddingFits := by
      intro width keys
      unfold FrameOptions.forSession
      split
      · next hs => exact .inl hs
      · exact hcn.imp_left fun hsl => decide_eq_true hsl
    constructor
    · intro width keys bufferSize draw events error he
      have ho := usable_forSession h width keys
      exact not_frameSizeError ((framesFit_run ho (hpa width keys)
        (framesFit_spawn ho keys bufferSize draw) events).errors error he)
    · intro hsl width keys
      have hva := validateStealth_forSession h hsl width keys
      refine ⟨_, by rw [FrameOptions.stealthPayloadCapacity, hva], ?_⟩
      have hsi := (acceptedSize_forSession h hsl width keys).1
      simp only [aeadTagLen, stealthHeaderLen]
      omega
    · intro hsl width keys
      exact ⟨roomForHandshake_of_acceptedSize P (stealth_of_parseConfig h hsl).1,
        roomForHandshake_of_acceptedSize P (acceptedSize_forSession h hsl width keys)⟩

theorem frames_work_default : FramesWork (.reference .release) ({} : SharedConfig) :=
  (frames_work_iff (.reference .release) parseConfig_default).mpr (by decide)

end Accepted

/-- `max_padding = 300000` is accepted, and a send draws a padding frame that the
writer refuses. -/
theorem padding_too_large :
    parseConfig { shared := { maxPadding := 300000 } } =
        .ok { shared := { maxPadding := 300000 } } ∧
      ∃ events, ((Endpoint.spawn (sampleKeys .client)
          (({ maxPadding := 300000 } : SharedConfig).frameOptions {}) 0 0).run (.reference .release)
            events).up.result = some (.error (.msg "frame payload too large")) :=
  ⟨parseConfig_eq_ok_iff.mpr ⟨rfl, by decide, none, rfl⟩,
    _, run_oversizedDraw (.reference .release) rfl (by decide) (by decide) (sampleKeys .client)⟩

end Espejismo
