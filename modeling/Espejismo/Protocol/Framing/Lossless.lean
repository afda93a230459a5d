import Espejismo.Protocol.Framing.Wire
import Espejismo.Reference.Platform

/-!
# Protocol.Framing.Lossless

The frame layer delivers what was sent.  A send over a transport that takes every
byte leaves frames on the wire (`Wrote`): hidden ones (padding, KEY_UPDATE) and,
when it succeeds, its own frame last.  Read back by a reader in step, the hidden
frames disappear and the others return in order, with both ends at the same
generation and sequence number after each.
-/

namespace Espejismo

open Binary StreamCodec List EStateM

def SendEnv.Accepts (env : SendEnv) : Prop :=
  env.rotation.failsAfter = none ∧ env.padding.failsAfter = none ∧ env.frame.failsAfter = none

/-! ## What a writer puts on the wire -/

/-- The frames sent pay for the generations and sequence numbers used. -/
def Counted (g₀ : Nat) (w : FrameWriter) : Prop :=
  w.keys.txGeneration + w.txSeq ≤ g₀ + w.sent.length

/-- From `w` to `w'` the writer put `items` on the wire, as long as the count
of frames has not reached `2 ^ 64`. -/
structure Wrote (P : Platform) (g₀ : Nat) (w w' : FrameWriter) (items : List (Frame × Cursor)) :
    Prop where
  grows : w.sent.length ≤ w'.sent.length
  options : w'.options = w.options
  emitted : w.options.Usable → Counted g₀ w → g₀ + w'.sent.length < 2 ^ 64 →
    Counted g₀ w' ∧ ∃ bytes, w'.wire = w.wire ++ bytes ∧
      Emitted (Emits P w.options) w.cursor items bytes w'.cursor

namespace Wrote

variable {P : Platform} {g₀ : Nat} {w w' : FrameWriter}

theorem of_eq (hsn : w'.sent = w.sent) (hwi : w'.wire = w.wire) (hopt : w'.options = w.options)
    (hcu : w'.cursor = w.cursor) : Wrote P g₀ w w' [] where
  grows := Nat.le_of_eq (by rw [hsn])
  options := hopt
  emitted := by
    intro _ hco _
    refine ⟨?_, [], by simpa using hwi, hcu ▸ .nil _⟩
    have hse : w'.txSeq = w.txSeq := congrArg Cursor.seq hcu
    have hg : w'.keys.txGeneration = w.keys.txGeneration := congrArg Cursor.generation hcu
    unfold Counted at hco ⊢
    rw [hse, hg, hsn]
    exact hco

theorem refl (w : FrameWriter) : Wrote P g₀ w w [] := of_eq rfl rfl rfl rfl

theorem trans (h : Wrote P g₀ w w' items)
    (h' : Wrote P g₀ w' w'' items') : Wrote P g₀ w w'' (items ++ items') where
  grows := Nat.le_trans h.grows h'.grows
  options := h'.options.trans h.options
  emitted := by
    intro hu hco hro
    have hgro := h'.grows
    obtain ⟨hco', bytes, hwi, he⟩ := h.emitted hu hco (by omega)
    obtain ⟨hco'', bytes', hwi', he'⟩ := h'.emitted (h.options ▸ hu) hco' hro
    rw [h.options] at he'
    exact ⟨hco'', bytes ++ bytes', by rw [hwi', hwi, append_assoc], he.append he'⟩

end Wrote

/-! ## One write -/

section Write

variable (P : Platform) (g₀ : Nat)

variable {frame : Frame} {w : FrameWriter} {env : SendEnv}

theorem wrote_handed {env : WriteEnv} (ha : env.failsAfter = none) (closing : Bool)
    (ht : frame.ty ≠ .keyUpdate) (hfi : Fits w.options frame)
    (hc : P.aead.encrypt w.keys.txKey (sessionNonce w.txSeq w.keys.nonceTag)
      (framePlain w.options env.fill frame) = some cipher)
    (had : addU64 P.build w.txSeq 1 = some seq) :
    Wrote P g₀ w (w.handed P env closing frame cipher seq)
      [(frame, (w.handed P env closing frame cipher seq).cursor)] where
  grows := by simp [FrameWriter.handed]
  options := rfl
  emitted := by
    intro _ hco hro
    unfold Counted at hco ⊢
    simp only [FrameWriter.handed, length_append, length_singleton] at hro ⊢
    have hse : w.txSeq + 1 < 2 ^ 64 := by omega
    obtain rfl : w.txSeq + 1 = seq := by
      rw [addU64_of_lt P.build hse] at had
      exact Option.some.inj had
    refine ⟨by omega, frameWire P w.options w.keys.txLenMask w.txSeq cipher, ?_, .single ?_⟩
    · simp [WriteEnv.taken, ha]
    · exact
        { fits := hfi
          seq_lt := hse
          generation_lt := fun h => absurd h ht
          bytes_eq := ⟨env.fill, cipher, hc, rfl⟩
          next := by rw [Cursor.after, if_neg ht]; rfl }

theorem writeOne_wrote {env : WriteEnv} (ha : env.failsAfter = none) (frame : Frame)
    (ht : frame.ty ≠ .keyUpdate) (w : FrameWriter) :
    (∃ e w', (writeOne P env false frame).run w = .error e w' ∧ Wrote P g₀ w w' []) ∨
    ∃ w', (writeOne P env false frame).run w = .ok env.elapsed w' ∧
      Wrote P g₀ w w' [(frame, w'.cursor)] := by
  rcases writeOne_cases P env false frame w with
    ⟨text, _, hr⟩ | ⟨calls, _, hr⟩ | ⟨cipher, next, hfi, hc, had, hr⟩
  · exact .inl ⟨_, _, hr, .refl w⟩
  · exact .inl ⟨_, _, hr, .of_eq rfl rfl rfl rfl⟩
  · rw [ha] at hr
    exact .inr ⟨_, hr, wrote_handed P g₀ ha false ht hfi hc had⟩

/-! ## One send -/

theorem run_observeWriteBackpressure (env : WriteEnv) (w : FrameWriter) :
    ∃ til, (observeWriteBackpressure env).run w =
      .ok () { w with paddingDisabledUntil := til } := by
  unfold observeWriteBackpressure
  rw [run_modify]
  cases observeBackpressure w.options env with
  | none => exact ⟨w.paddingDisabledUntil, rfl⟩
  | some til => exact ⟨some til, rfl⟩

/-- A part of a send that puts only hidden frames on the wire. -/
def WroteHidden (w w' : FrameWriter) : Prop :=
  ∃ items, Wrote P g₀ w w' items ∧ ∀ x ∈ items, x.1.visible = false

theorem run_rotateTx (w : FrameWriter) :
    (rotateTx P).run w =
      match w.keys.updateTx P with
      | .ok keys => .ok () { w with keys, txSeq := 0 }
      | .error e => .error e w := by
  unfold rotateTx
  rw [run_bind, run_get]
  cases h : w.keys.updateTx P with
  | ok => simp [h]
  | error => simp only [h]; rfl

theorem generation_lt_of_counted (hco : Counted g₀ w) (hro : g₀ + (w.sent.length + 1) < 2 ^ 64) :
    w.keys.txGeneration + 1 < 2 ^ 64 := by
  unfold Counted at hco
  omega

theorem wrote_rotation {env : WriteEnv} (ha : env.failsAfter = none) (next : Nat)
    (til : Option Nat) (hfi : Fits w.options keyUpdateFrame)
    (hc : P.aead.encrypt w.keys.txKey (sessionNonce w.txSeq w.keys.nonceTag)
      (framePlain w.options env.fill keyUpdateFrame) = some cipher) :
    WroteHidden P g₀ w (finalState ((rotateTx P).run
      { w.handed P env true keyUpdateFrame cipher next with paddingDisabledUntil := til })) := by
  rw [run_rotateTx]
  cases hup : w.keys.updateTx P with
  | error =>
    refine ⟨[], ⟨?_, ?_, ?_⟩, by simp⟩
    · simp [FrameWriter.handed, hup]
    · simp [FrameWriter.handed, hup]
    · intro _ hco hro
      simp only [FrameWriter.handed, hup, finalState, length_append] at hro
      obtain ⟨keys, hok, _⟩ := updateTx_eq P w (generation_lt_of_counted g₀ hco hro)
      rw [hok] at hup
      contradiction
  | ok keys =>
    refine ⟨[(keyUpdateFrame, w.cursor.rotate P)], ⟨?_, ?_, ?_⟩, by
      simp [keyUpdateFrame, Frame.visible]⟩
    · simp [FrameWriter.handed, hup]
    · simp [FrameWriter.handed, hup]
    · intro _ hco hro
      simp only [FrameWriter.handed, hup, finalState, length_append, length_singleton] at hro ⊢
      have hg := generation_lt_of_counted g₀ hco hro
      obtain ⟨keys', hok, hcu⟩ := updateTx_eq P w hg
      obtain rfl : keys' = keys := Except.ok.inj (hok.symm.trans hup)
      have hnex : keys'.txGeneration = w.keys.txGeneration + 1 := congrArg Cursor.generation hcu
      unfold Counted at hco ⊢
      simp only [length_append, length_singleton]
      refine ⟨by omega, frameWire P w.options w.keys.txLenMask w.txSeq cipher, ?_, ?_⟩
      · simp [WriteEnv.taken, ha]
      · have he : Emits P w.options w.cursor keyUpdateFrame
            (frameWire P w.options w.keys.txLenMask w.txSeq cipher) (w.cursor.rotate P) :=
          { fits := hfi
            seq_lt := by change w.txSeq + 1 < 2 ^ 64; omega
            generation_lt := fun _ => hg
            bytes_eq := ⟨env.fill, cipher, hc, rfl⟩
            next := rfl }
        have het := Emitted.single he
        rw [← hcu] at het ⊢
        exact het

theorem maybeWriteKeyUpdate_wrote (ha : env.rotation.failsAfter = none) (ty : FrameType)
    (w : FrameWriter) : WroteHidden P g₀ w (finalState ((maybeWriteKeyUpdate P env ty).run w)) := by
  unfold maybeWriteKeyUpdate
  rw [run_bind, run_get]
  dsimp only
  by_cases hd : shouldKeyUpdate w.options w.txSeq ty = true
  · rw [if_pos hd, run_bind]
    rcases writeOne_cases P env.rotation true keyUpdateFrame w with
      ⟨text, _, hr⟩ | ⟨calls, _, hr⟩ | ⟨cipher, next, hfi, hc, had, hr⟩
    · rw [hr]
      exact ⟨[], .refl w, by simp⟩
    · rw [hr]
      exact ⟨[], .of_eq rfl rfl rfl rfl, by simp⟩
    · rw [ha] at hr
      obtain ⟨til, hob⟩ := run_observeWriteBackpressure env.rotation
        (w.handed P env.rotation true keyUpdateFrame cipher next)
      have hrot := wrote_rotation P g₀ ha next til hfi hc
      simpa only [hr, Option.isSome_none, Bool.false_eq_true, if_false, run_bind, hob]
  · rw [if_neg hd]
    exact ⟨[], .refl w, by simp⟩

theorem maybeWritePadding_wrote (ha : env.padding.failsAfter = none) (ty : FrameType)
    (w : FrameWriter) : WroteHidden P g₀ w (finalState ((maybeWritePadding P env ty).run w)) := by
  unfold maybeWritePadding
  rw [run_bind, run_get]
  dsimp only
  by_cases hp : insertsPadding w env ty = true
  · rw [if_pos hp, run_bind]
    rcases writeOne_wrote P g₀ ha (paddingFrame w.options env)
      (by simp [paddingFrame]) w with ⟨e, w', hr, hw⟩ | ⟨w', hr, hw⟩
    · rw [hr]
      exact ⟨[], hw, by simp⟩
    · obtain ⟨til, hob⟩ := run_observeWriteBackpressure env.padding w'
      simp only [hr, hob]
      exact ⟨_, hw.trans (.of_eq rfl rfl rfl rfl), by simp [paddingFrame, Frame.visible]⟩
  · rw [if_neg hp]
    exact ⟨[], .refl w, by simp⟩

/-- **One send**: hidden frames, and the frame itself exactly when the send
succeeds. -/
theorem send_wrote (ha : env.Accepts) (ht : frame.ty ≠ .keyUpdate) (w : FrameWriter) :
    (∃ e w', (FrameWriter.send P env frame).run w = .error e w' ∧ WroteHidden P g₀ w w') ∨
    ∃ w' hidden, (FrameWriter.send P env frame).run w = .ok () w' ∧
      Wrote P g₀ w w' (hidden ++ [(frame, w'.cursor)]) ∧ ∀ x ∈ hidden, x.1.visible = false := by
  obtain ⟨items₁, hw₁, hh₁⟩ := maybeWriteKeyUpdate_wrote P g₀ ha.1 frame.ty w
  simp only [FrameWriter.send, sendWithOptionalPadding, run_bind]
  cases h₁ : (maybeWriteKeyUpdate P env frame.ty).run w with
  | error e w₁ =>
    rw [h₁] at hw₁
    exact .inl ⟨e, w₁, rfl, items₁, hw₁, hh₁⟩
  | ok _ w₁ =>
    rw [h₁] at hw₁
    obtain ⟨items₂, hw₂, hh₂⟩ := maybeWritePadding_wrote P g₀ ha.2.1 frame.ty w₁
    have hh : ∀ x ∈ items₁ ++ items₂, x.1.visible = false := by
      intro x hx
      exact (mem_append.mp hx).elim (hh₁ x) (hh₂ x)
    dsimp only
    cases h₂ : (maybeWritePadding P env frame.ty).run w₁ with
    | error e w₂ =>
      rw [h₂] at hw₂
      exact .inl ⟨e, w₂, rfl, _, hw₁.trans hw₂, hh⟩
    | ok _ w₂ =>
      rw [h₂] at hw₂
      dsimp only
      rcases writeOne_wrote P g₀ ha.2.2 frame ht w₂ with ⟨e, w₃, h₃, hw₃⟩ | ⟨w₃, h₃, hw₃⟩
      · rw [h₃]
        refine .inl ⟨e, w₃, rfl, _, (hw₁.trans hw₂).trans hw₃, ?_⟩
        simpa using hh
      obtain ⟨til, hob⟩ := run_observeWriteBackpressure env.frame w₃
      rw [h₃]
      dsimp only
      rw [hob]
      have hw := ((hw₁.trans hw₂).trans hw₃).trans
        (.of_eq rfl rfl rfl rfl : Wrote P g₀ w₃ { w₃ with paddingDisabledUntil := til } [])
      rw [append_nil] at hw
      exact .inr ⟨_, items₁ ++ items₂, rfl, hw, hh⟩

/-! ## How much a send can do -/

/-- From `w` to `w'` at most `frames` frames were handed over and at most
`rotations` generations begun. -/
def Within (frames rotations : Nat) (w w' : FrameWriter) : Prop :=
  w'.sent.length ≤ w.sent.length + frames ∧ w'.keys.txGeneration ≤ w.keys.txGeneration + rotations

/-- `x` stays within these bounds from every state. -/
def Costs (frames rotations : Nat) (x : Writing α) : Prop :=
  ∀ w, Within frames rotations w (finalState (x.run w))

theorem Within.refl (frames rotations : Nat) (w : FrameWriter) : Within frames rotations w w :=
  ⟨Nat.le_add_right _ _, Nat.le_add_right _ _⟩

theorem Costs.bind (hx : Costs m r x)
    (hf : ∀ a, Costs n s (f a)) : Costs (m + n) (r + s) (x >>= f) := by
  intro w
  have hw := hx w
  unfold Within at hw ⊢
  rw [run_bind]
  cases h : x.run w with
  | ok a w' =>
    rw [h, finalState_ok] at hw
    have := hf a w'
    unfold Within at this
    dsimp only
    omega
  | error =>
    rw [h, finalState_error] at hw
    rw [finalState_error]
    omega

theorem costs_get : Costs 0 0 (get : Writing FrameWriter) := fun w => .refl 0 0 w

theorem costs_writeOne (env : WriteEnv) (closing : Bool) (frame : Frame) :
    Costs 1 0 (writeOne P env closing frame) := by
  intro w
  rcases writeOne_cases P env closing frame w with
    ⟨text, _, hr⟩ | ⟨calls, _, hr⟩ | ⟨cipher, next, _, _, _, hr⟩
  · rw [hr]
    exact .refl 1 0 w
  · rw [hr]
    exact .refl 1 0 w
  · rw [hr]
    split <;> simp [Within, FrameWriter.handed]

theorem costs_observe (env : WriteEnv) : Costs 0 0 (observeWriteBackpressure env) := by
  intro w
  obtain ⟨til, hob⟩ := run_observeWriteBackpressure env w
  rw [hob]
  exact .refl 0 0 w

theorem costs_rotateTx : Costs 0 1 (rotateTx P) := by
  intro w
  rw [run_rotateTx]
  cases hk : w.keys.updateTx P with
  | error => exact .refl 0 1 w
  | ok => exact ⟨Nat.le_refl _, Nat.le_of_eq (txGeneration_updateTx hk)⟩

theorem costs_maybeWriteKeyUpdate (env : SendEnv) (ty : FrameType) :
    Costs 1 1 (maybeWriteKeyUpdate P env ty) := by
  refine costs_get.bind (n := 1) (s := 1) fun w => ?_
  split
  · exact (costs_writeOne P _ _ _).bind fun _ => (costs_observe _).bind fun _ => costs_rotateTx P
  · exact fun w => .refl 1 1 w

theorem costs_maybeWritePadding (env : SendEnv) (ty : FrameType) :
    Costs 1 0 (maybeWritePadding P env ty) := by
  refine costs_get.bind (n := 1) (s := 0) fun w => ?_
  split
  · exact (costs_writeOne P _ _ _).bind fun _ => costs_observe _
  · exact fun w => .refl 1 0 w

theorem costs_send (env : SendEnv) (frame : Frame) : Costs 3 1 (FrameWriter.send P env frame) :=
  (costs_maybeWriteKeyUpdate P env frame.ty).bind (n := 2) (s := 0) fun _ =>
    (costs_maybeWritePadding P env frame.ty).bind (n := 1) (s := 0) fun _ =>
      (costs_writeOne P _ _ _).bind fun _ => costs_observe _

theorem length_sent_afterAll_le (w : FrameWriter) (calls : List (SendEnv × Frame)) :
    (w.afterAll P calls).sent.length ≤ w.sent.length + 3 * calls.length := by
  induction calls generalizing w with
  | nil => exact Nat.le_refl _
  | cons call calls ih =>
    have hsen : (w.after P call).sent.length ≤ w.sent.length + 3 := (costs_send P call.1 call.2 w).1
    have hres := ih (w.after P call)
    rw [afterAll_cons, length_cons]
    omega

/-! ## When a send succeeds -/

theorem writeOne_succeeds {env : WriteEnv} (ha : env.failsAfter = none) (closing : Bool)
    (hfi : Fits w.options frame) (hro : w.txSeq + 1 < 2 ^ 64) :
    ∃ w', (writeOne P env closing frame).run w = .ok env.elapsed w' ∧
      w'.keys = w.keys ∧ w'.options = w.options := by
  rcases writeOne_cases P env closing frame w with
    ⟨text, hno, _⟩ | ⟨calls, hno, _⟩ | ⟨cipher, next, _, _, _, hr⟩
  · exact absurd hfi hno
  · rw [addU64_of_lt P.build hro] at hno
    contradiction
  · rw [ha] at hr
    exact ⟨_, hr, rfl, rfl⟩

theorem maybeWriteKeyUpdate_succeeds (ha : env.rotation.failsAfter = none) (ty : FrameType)
    (hu : w.options.Usable) (hco : Counted g₀ w) (hro : g₀ + w.sent.length + 1 < 2 ^ 64) :
    ∃ w', (maybeWriteKeyUpdate P env ty).run w = .ok () w' := by
  simp only [maybeWriteKeyUpdate, run_bind, run_get]
  unfold Counted at hco
  by_cases hd : shouldKeyUpdate w.options w.txSeq ty = true
  · obtain ⟨w₁, hwr, hk, _⟩ := writeOne_succeeds P ha true
      (show Fits w.options keyUpdateFrame from ⟨hu, Nat.zero_le _⟩) (by omega)
    obtain ⟨til, hob⟩ := run_observeWriteBackpressure env.rotation w₁
    obtain ⟨keys, hup, _⟩ := updateTx_eq P { w₁ with paddingDisabledUntil := til }
      (by change w₁.keys.txGeneration + 1 < 2 ^ 64; rw [hk]; omega)
    rw [if_pos hd]
    simp only [run_bind, hwr, hob, run_rotateTx, hup]
    exact ⟨_, rfl⟩
  · rw [if_neg hd]
    exact ⟨w, rfl⟩

theorem fits_paddingFrame (env : SendEnv) (hs : o.isStealth = false) (hpo : 0 < o.maxPadding)
    (hp : o.maxPadding ≤ normalPayloadCapacity) : Fits o (paddingFrame o env) := by
  have := Nat.mod_lt env.paddingLen hpo
  refine fits_of_plain hs ?_
  simp only [paddingFrame, length_fillBytes]
  omega

theorem maybeWritePadding_succeeds (ha : env.padding.failsAfter = none) (ty : FrameType)
    (hp : w.options.maxPadding ≤ normalPayloadCapacity) (hro : w.txSeq + 1 < 2 ^ 64) :
    ∃ w', (maybeWritePadding P env ty).run w = .ok () w' := by
  simp only [maybeWritePadding, run_bind, run_get]
  by_cases hin : insertsPadding w env ty = true
  · have hdr : w.options.isStealth = false ∧ 0 < w.options.maxPadding := by
      unfold insertsPadding shouldSendPadding at hin
      grind
    obtain ⟨w₁, hwr, _⟩ := writeOne_succeeds P ha false (fits_paddingFrame env hdr.1 hdr.2 hp) hro
    obtain ⟨til, hob⟩ := run_observeWriteBackpressure env.padding w₁
    rw [if_pos hin]
    simp only [run_bind, hwr]
    exact ⟨_, rfl⟩
  · rw [if_neg hin]
    exact ⟨w, rfl⟩

theorem send_succeeds (ha : env.Accepts) (hfi : Fits w.options frame)
    (hp : w.options.maxPadding ≤ normalPayloadCapacity) (hco : Counted g₀ w)
    (hro : g₀ + w.sent.length + 3 < 2 ^ 64) :
    ∃ w', (FrameWriter.send P env frame).run w = .ok () w' := by
  obtain ⟨w₁, h₁⟩ := maybeWriteKeyUpdate_succeeds P g₀ ha.1 frame.ty hfi.1 hco (by omega)
  obtain ⟨items₁, hw₁, _⟩ := maybeWriteKeyUpdate_wrote P g₀ ha.1 frame.ty w
  have hl₁ := (costs_maybeWriteKeyUpdate P env frame.ty w).1
  rw [h₁, finalState_ok] at hw₁ hl₁
  have hco₁ := (hw₁.emitted hfi.1 hco (by omega)).1
  unfold Counted at hco₁
  obtain ⟨w₂, h₂⟩ := maybeWritePadding_succeeds P ha.2.1 frame.ty
    (by rw [hw₁.options]; exact hp) (by omega)
  obtain ⟨items₂, hw₂, _⟩ := maybeWritePadding_wrote P g₀ ha.2.1 frame.ty w₁
  have hl₂ := (costs_maybeWritePadding P env frame.ty w₁).1
  rw [h₂, finalState_ok] at hw₂ hl₂
  have hco₂ := ((hw₁.trans hw₂).emitted hfi.1 hco (by omega)).1
  unfold Counted at hco₂
  have hopt : w₂.options = w.options := hw₂.options.trans hw₁.options
  obtain ⟨w₃, h₃, _⟩ := writeOne_succeeds P ha.2.2 false (hopt ▸ hfi) (by omega)
  obtain ⟨til, hob⟩ := run_observeWriteBackpressure env.frame w₃
  simp only [FrameWriter.send, sendWithOptionalPadding, run_bind, h₁, h₂, h₃]
  exact ⟨_, rfl⟩

end Write

/-! ## Runs -/

structure Delivery where
  frame : Frame
  generation : Nat
  seq : Nat
  deriving DecidableEq

/-- A call of `send`: its frame, whether it returned `Ok`, and the writer's
generation and sequence number at its end. -/
structure SendOutcome extends Delivery where
  ok : Bool

def FrameWriter.outcome (P : Platform) (w : FrameWriter) (call : SendEnv × Frame) : SendOutcome :=
  { frame := call.2
    generation := (w.after P call).keys.txGeneration
    seq := (w.after P call).txSeq
    ok := match (FrameWriter.send P call.1 call.2).run w with
      | .ok _ _ => true
      | .error _ _ => false }

def FrameWriter.outcomes (P : Platform) : FrameWriter → List (SendEnv × Frame) → List SendOutcome
  | _, [] => []
  | w, call :: calls => w.outcome P call :: (w.after P call).outcomes P calls

/-- The frames that reach the peer's `recv`: visible ones whose send returned
`Ok`. -/
def delivered (outcomes : List SendOutcome) : List Delivery :=
  (outcomes.filter fun s => s.ok && s.frame.visible).map SendOutcome.toDelivery

/-- Calls of `recv` until one fails: what they returned, where the reader
stood after each, and the error. -/
def FrameReader.recvAll (P : Platform) (r : FrameReader) : List Delivery × Option Error :=
  let got := readAll (FrameReader.recv P) (r.input.length + 1) r
  (got.1.map fun x =>
    { frame := x.1, generation := x.2.keys.rxGeneration, seq := x.2.rxSeq }, got.2)

def Delivery.ofItem (item : Frame × Cursor) : Delivery :=
  { frame := item.1, generation := item.2.generation, seq := item.2.seq }

variable {items : List (Frame × Cursor)}

theorem filter_hidden (h : ∀ x ∈ items, x.1.visible = false) :
    items.filter (fun x => x.1.visible) = [] := by
  simpa using h

theorem afterAll_wrote (P : Platform) (g₀ : Nat) (w : FrameWriter) (calls : List (SendEnv × Frame))
    (ht : ∀ c ∈ calls, c.2.ty ≠ .keyUpdate) (ha : ∀ c ∈ calls, c.1.Accepts) :
    ∃ items, Wrote P g₀ w (w.afterAll P calls) items ∧
      (items.filter fun x => x.1.visible).map Delivery.ofItem = delivered (w.outcomes P calls) := by
  induction calls generalizing w with
  | nil => exact ⟨[], .refl w, rfl⟩
  | cons call calls ih =>
    obtain ⟨env, frame⟩ := call
    rw [forall_mem_cons] at ht ha
    rcases send_wrote P g₀ ha.1 ht.1 w with
      ⟨e, w', hr, items, hw, hh⟩ | ⟨w', hidden, hr, hw, hh⟩
    all_goals
      have haf : w.after P (env, frame) = w' := by rw [FrameWriter.after, hr]; rfl
      obtain ⟨items', hw', hde⟩ := ih w' ht.2 ha.2
      rw [afterAll_cons, FrameWriter.outcomes, haf]
    · refine ⟨items ++ items', hw.trans hw', ?_⟩
      rw [filter_append, filter_hidden hh, nil_append, hde]
      simp [delivered, FrameWriter.outcome, hr]
    · refine ⟨(hidden ++ [(frame, w'.cursor)]) ++ items', hw.trans hw', ?_⟩
      rw [filter_append, filter_append, filter_hidden hh, map_append, hde]
      cases hv : frame.visible <;>
        simp [delivered, hv, Delivery.ofItem, FrameWriter.cursor, FrameWriter.outcome, hr, haf]

theorem map_received {got : List (Frame × FrameReader)}
    (h : List.Forall₂ (fun x y => y.1 = x.1 ∧ ∃ rest, InStep o x.2 rest y.2) items got) :
    (got.map fun x => ({ frame := x.1, generation := x.2.keys.rxGeneration, seq := x.2.rxSeq } :
      Delivery)) = items.map Delivery.ofItem := by
  induction h with
  | nil => rfl
  | @cons x y items got hxy _ ih =>
    obtain ⟨hfr, rest, hsp⟩ := hxy
    rw [map_cons, map_cons, ih, hfr, Delivery.ofItem, ← hsp.cursor]
    rfl

theorem run_recv (P : Platform) (r : FrameReader) :
    (FrameReader.recv P).run r =
      (readUntil .eof (readOne P) Frame.visible (r.input.length + 1)).run r := by
  simp [FrameReader.recv]

/-- **The frame layer is lossless**: a reader with the mirrored keys returns
exactly the visible frames whose send returned `Ok`, in order, each at the
generation and sequence number the writer had at the end of that send, and then
meets the end of the stream. -/
theorem frameLayer_lossless (P : Platform) (wkeys rkeys : SessionKeys)
    (hk : SessionKeys.Mirrors wkeys rkeys) (o : FrameOptions) (ho : o.Usable)
    (calls : List (SendEnv × Frame)) (ht : ∀ c ∈ calls, c.2.ty ≠ .keyUpdate)
    (ha : ∀ c ∈ calls, c.1.Accepts) (hco : wkeys.txGeneration +
      ((FrameWriter.new wkeys o).afterAll P calls).sent.length < 2 ^ 64) :
    (FrameReader.new ((FrameWriter.new wkeys o).afterAll P calls).wire rkeys o).recvAll P =
      (delivered ((FrameWriter.new wkeys o).outcomes P calls), some .eof) := by
  obtain ⟨items, hw, hde⟩ := afterAll_wrote P wkeys.txGeneration (.new wkeys o) calls ht ha
  obtain ⟨_, bytes, hwi, he⟩ := hw.emitted ho (by simp [Counted, FrameWriter.new]) hco
  have hip : ((FrameWriter.new wkeys o).afterAll P calls).wire = bytes := by
    rw [hwi]
    rfl
  rw [hip]
  have hst : InStep o (FrameWriter.new wkeys o).cursor bytes (.new bytes rkeys o) :=
    ⟨rfl, rfl, cursor_new_eq hk o bytes⟩
  have hpo := fun c frame bytes c' (h : Emits P o c frame bytes c') => h.length_pos
  obtain ⟨got, hgo, hal⟩ := (readOne_emits P o).readAll_readUntil .eof .eof Frame.visible
    (fun r => r.input.length + 1) (fun _ _ r h => by simp [h.input]) hpo
    (fun _ r h => ⟨r, readOne_nil P ho h⟩) (FrameReader.recv P) (run_recv P) he hst
    (Nat.lt_succ_of_le (he.length_le hpo))
  have hli := map_received hal
  simp only [FrameReader.recvAll, FrameReader.new] at hgo ⊢
  rw [hgo, hli, hde]

/-! A session of the reference platform to evaluate the results at. -/

def sampleKeys (role : Role) : SessionKeys :=
  deriveKeys (.reference .release) (ascii "correct horse battery staple") (.zero 32)
    (List.replicate 16 7) role

def unpaddedOptions : FrameOptions := { FrameOptions.default with maxPadding := 0 }

def sampleCalls : List (SendEnv × Frame) :=
  [(.instant, { ty := .data, payload := ascii "hello" }),
    (.instant, { ty := .close, payload := [] })]

theorem frameLayer_lossless_sample :
    (FrameReader.new ((FrameWriter.new (sampleKeys .client) unpaddedOptions).afterAll
        (.reference .release) sampleCalls).wire (sampleKeys .server) unpaddedOptions).recvAll
        (.reference .release) =
      (delivered ((FrameWriter.new (sampleKeys .client) unpaddedOptions).outcomes
        (.reference .release) sampleCalls), some .eof) := by
  have hl := length_sent_afterAll_le (.reference .release)
    (.new (sampleKeys .client) unpaddedOptions) sampleCalls
  have hg : (sampleKeys .client).txGeneration = 0 := rfl
  refine frameLayer_lossless (.reference .release) (sampleKeys .client) (sampleKeys .server)
    (mirrored_deriveKeys _ _ _ _).1 unpaddedOptions (fun hs => absurd hs (by decide)) sampleCalls
    (by decide) (by simp [sampleCalls, SendEnv.Accepts, SendEnv.instant, WriteEnv.instant]) ?_
  simp only [FrameWriter.new, sampleCalls, length_nil, length_cons] at hl
  simp only [FrameWriter.new, sampleCalls]
  omega

end Espejismo
