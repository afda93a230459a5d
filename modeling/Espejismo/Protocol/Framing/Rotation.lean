import Mathlib.Data.List.Induction
import Espejismo.Protocol.Framing.Nonce

/-!
# Protocol.Framing.Rotation

How many frames one traffic key covers.  The rotation is tested before visible
frames only, and only at exact multiples of `key_update_frames`, while padding
advances the same counter: padding written at the boundary carries the counter
past the multiple, and the key stays in use until the next one.
-/

namespace Espejismo

open Binary List EStateM

/-- At most `k` frames of each generation, and one closing KEY_UPDATE, were
transmitted. -/
def FrameWriter.RotationBound (k : Nat) (w : FrameWriter) : Prop :=
  ∀ g, w.sent.countP (fun e => decide (e.generation = g) && !e.closing) ≤ k ∧
    w.sent.countP (fun e => decide (e.generation = g) && e.closing) ≤ 1

/-! ## Sends that keep the bound -/

def disabledAfter (o : FrameOptions) (env : WriteEnv) (til : Option Nat) : Option Nat :=
  match observeBackpressure o env with
  | some til' => some til'
  | none => til

def FrameWriter.due (w : FrameWriter) (ty : FrameType) : Bool :=
  shouldKeyUpdate w.options w.txSeq ty

def FrameWriter.startSeq (w : FrameWriter) (ty : FrameType) : Nat := if w.due ty then 0 else w.txSeq

def FrameWriter.pads (w : FrameWriter) (env : SendEnv) (ty : FrameType) : Bool :=
  insertsPadding
    { w with paddingDisabledUntil :=
        if w.due ty then disabledAfter w.options env.rotation w.paddingDisabledUntil
        else w.paddingDisabledUntil } env ty

/-- The frames a send writes besides the KEY_UPDATE have sequence numbers below
`key_update_frames`, and a rotation happens at that number, not at a multiple
of it. -/
structure SendsInTime (w : FrameWriter) (env : SendEnv) (frame : Frame) : Prop where
  rotation : w.due frame.ty = true → w.txSeq = w.options.keyUpdateFrames ∧ w.txSeq + 1 < 2 ^ 64
  padding : w.pads env frame.ty = true → Fits w.options (paddingFrame w.options env) →
    w.startSeq frame.ty < w.options.keyUpdateFrames
  frame : (w.pads env frame.ty = true → Fits w.options (paddingFrame w.options env)) →
    Fits w.options frame →
    w.startSeq frame.ty + (if w.pads env frame.ty then 1 else 0) < w.options.keyUpdateFrames

structure FrameWriter.InTime (k : Nat) (w : FrameWriter) : Prop where
  limit : w.options.keyUpdateFrames = k
  stamped : w.Stamped
  plain : ∀ e ∈ w.sent, e.closing = false → e.seq < k
  closing : ∀ e ∈ w.sent, e.closing = true → e.seq = k

/-- **The bound follows from the sequence numbers**: stamps are distinct, so a
generation has no more frames than there are numbers for them. -/
theorem FrameWriter.InTime.rotationBound {w : FrameWriter} (h : w.InTime k) :
    w.RotationBound k := by
  intro g
  have hnd : (w.sent.map fun e => (e.generation, e.seq)).Nodup := h.stamped.nodup
  constructor
  · refine EpochLog.countP_le_of_window hnd _ g 0 k fun e he hp => ?_
    simp only [Bool.and_eq_true, decide_eq_true_eq, Bool.not_eq_true'] at hp
    have := h.plain e he hp.2
    exact ⟨hp.1, Nat.zero_le _, by omega⟩
  · refine EpochLog.countP_le_of_window hnd _ g k 1 fun e he hp => ?_
    simp only [Bool.and_eq_true, decide_eq_true_eq] at hp
    have := h.closing e he hp.2
    exact ⟨hp.1, by omega, by omega⟩

section Parts

variable (P : Platform) {k : Nat}

variable {w : FrameWriter}

theorem writeOne_inTime (env : WriteEnv) (closing : Bool) (frame : Frame) (hw : w.InTime k)
    (hro : Fits w.options frame → w.txSeq + 1 < 2 ^ 64)
    (hpl : Fits w.options frame → closing = false → w.txSeq < k)
    (hcl : closing = true → w.txSeq = k) :
    (finalState ((writeOne P env closing frame).run w)).InTime k ∧
      ∀ a w', (writeOne P env closing frame).run w = .ok a w' → Fits w.options frame ∧
        w'.txSeq = w.txSeq + 1 ∧ w'.options = w.options ∧
        w'.paddingDisabledUntil = w.paddingDisabledUntil := by
  rcases writeOne_cases P env closing frame w with
    ⟨text, _, hr⟩ | ⟨calls, _, hr⟩ | ⟨cipher, next, hfi, hc, had, hr⟩
  · rw [hr]
    exact ⟨hw, by simp⟩
  · rw [hr]
    exact ⟨⟨hw.limit, hw.stamped, hw.plain, hw.closing⟩, by simp⟩
  · rw [addU64_of_lt P.build (hro hfi)] at had
    obtain rfl := Option.some.inj had
    have hst : (w.handed P env closing frame cipher (w.txSeq + 1)).InTime k := by
      refine ⟨hw.limit, stamped_handed hw.stamped, ?_, ?_⟩
      all_goals
        intro e he hfl
        rcases mem_append.mp he with hold | hne
      · exact hw.plain e hold hfl
      · obtain rfl := mem_singleton.mp hne
        exact hpl hfi hfl
      · exact hw.closing e hold hfl
      · obtain rfl := mem_singleton.mp hne
        exact hcl hfl
    rw [hr]
    cases env.failsAfter with
    | none =>
      refine ⟨hst, fun a w' heq => ?_⟩
      obtain ⟨_, rfl⟩ := heq
      exact ⟨hfi, rfl, rfl, rfl⟩
    | some => exact ⟨hst, by simp⟩

theorem observe_inTime (env : WriteEnv) (hw : w.InTime k) :
    (observeWriteBackpressure env).run w = .ok () { w with
      paddingDisabledUntil := disabledAfter w.options env w.paddingDisabledUntil } ∧
    ({ w with paddingDisabledUntil := disabledAfter w.options env w.paddingDisabledUntil } :
      FrameWriter).InTime k := by
  refine ⟨?_, ⟨hw.limit, hw.stamped, hw.plain, hw.closing⟩⟩
  unfold observeWriteBackpressure disabledAfter
  rw [run_modify]
  cases observeBackpressure w.options env <;> rfl

theorem rotateTx_inTime (hw : w.InTime k) :
    (finalState ((rotateTx P).run w)).InTime k ∧
      ∀ a w', (rotateTx P).run w = .ok a w' → w'.txSeq = 0 ∧ w'.options = w.options ∧
        w'.paddingDisabledUntil = w.paddingDisabledUntil := by
  rw [run_rotateTx]
  cases hke : w.keys.updateTx P with
  | error => exact ⟨hw, by simp⟩
  | ok =>
    refine ⟨⟨hw.limit, stamped_rotated hke hw.stamped, hw.plain, hw.closing⟩, ?_⟩
    intro a w' heq
    obtain ⟨_, rfl⟩ := EStateM.Result.ok.inj heq
    exact ⟨rfl, rfl, rfl⟩

theorem maybeWriteKeyUpdate_inTime (env : SendEnv) (ty : FrameType) (hw : w.InTime k)
    (hdu : w.due ty = true → w.txSeq = k ∧ w.txSeq + 1 < 2 ^ 64) :
    (finalState ((maybeWriteKeyUpdate P env ty).run w)).InTime k ∧
      ∀ a w', (maybeWriteKeyUpdate P env ty).run w = .ok a w' →
        w'.txSeq = w.startSeq ty ∧ w'.options = w.options ∧
        w'.paddingDisabledUntil = if w.due ty then
          disabledAfter w.options env.rotation w.paddingDisabledUntil
        else w.paddingDisabledUntil := by
  simp only [maybeWriteKeyUpdate, run_bind, run_get, FrameWriter.startSeq]
  by_cases h : w.due ty = true
  · have hsh : shouldKeyUpdate w.options w.txSeq ty = true := h
    obtain ⟨hk, hro⟩ := hdu h
    obtain ⟨hf, hok⟩ := writeOne_inTime P env.rotation true keyUpdateFrame hw
      (fun _ => hro) (by simp) (fun _ => hk)
    rw [if_pos hsh, if_pos h, if_pos h, run_bind]
    cases hr : (writeOne P env.rotation true keyUpdateFrame).run w with
    | error =>
      rw [hr] at hf
      exact ⟨hf, by simp⟩
    | ok a w₁ =>
      rw [hr, finalState_ok] at hf
      obtain ⟨_, _, ho, ht⟩ := hok a w₁ hr
      obtain ⟨hob, hoi⟩ := observe_inTime env.rotation hf
      obtain ⟨hrot, hrt⟩ := rotateTx_inTime P hoi
      simp only [run_bind]
      simp only [hob]
      refine ⟨hrot, fun b w' heq => ?_⟩
      obtain ⟨hse, ho', ht'⟩ := hrt b w' heq
      exact ⟨hse, ho'.trans ho, by rw [ht', ho, ht]⟩
  · have hsh : ¬ shouldKeyUpdate w.options w.txSeq ty = true := h
    rw [if_neg hsh, if_neg h, if_neg h]
    refine ⟨hw, fun a w' heq => ?_⟩
    obtain ⟨_, rfl⟩ := EStateM.Result.ok.inj heq
    exact ⟨rfl, rfl, rfl⟩

theorem maybeWritePadding_inTime (env : SendEnv) (ty : FrameType) (hk : k < 2 ^ 64)
    (hw : w.InTime k)
    (hpd : insertsPadding w env ty = true → Fits w.options (paddingFrame w.options env) →
      w.txSeq < k) :
    (finalState ((maybeWritePadding P env ty).run w)).InTime k ∧
      ∀ a w', (maybeWritePadding P env ty).run w = .ok a w' → w'.options = w.options ∧
        (insertsPadding w env ty = true → Fits w.options (paddingFrame w.options env)) ∧
        w'.txSeq = w.txSeq + if insertsPadding w env ty then 1 else 0 := by
  simp only [maybeWritePadding, run_bind, run_get]
  by_cases h : insertsPadding w env ty = true
  · obtain ⟨hf, hok⟩ := writeOne_inTime P env.padding false (paddingFrame w.options env) hw
      (fun hfi => by have := hpd h hfi; omega) (fun hfi _ => hpd h hfi) (by simp)
    simp only [h, if_true, run_bind]
    cases hr : (writeOne P env.padding false (paddingFrame w.options env)).run w with
    | error =>
      rw [hr] at hf
      exact ⟨hf, by simp⟩
    | ok a w₁ =>
      rw [hr, finalState_ok] at hf
      obtain ⟨hfi, hse, ho, _⟩ := hok a w₁ hr
      obtain ⟨hob, hoi⟩ := observe_inTime env.padding hf
      simp only [hob]
      refine ⟨hoi, fun b w' heq => ?_⟩
      obtain ⟨_, rfl⟩ := EStateM.Result.ok.inj heq
      exact ⟨ho, fun _ => hfi, hse⟩
  · rw [if_neg h]
    refine ⟨hw, fun a w' heq => ?_⟩
    obtain ⟨_, rfl⟩ := EStateM.Result.ok.inj heq
    exact ⟨rfl, fun hp => absurd hp h, by simp [h]⟩

theorem after_inTime (env : SendEnv) (frame : Frame) (hk : k < 2 ^ 64) (hw : w.InTime k)
    (hs : SendsInTime w env frame) : (w.after P (env, frame)).InTime k := by
  have hli := hw.limit
  obtain ⟨hw₁, hok₁⟩ := maybeWriteKeyUpdate_inTime P env frame.ty hw
    (by rw [← hli]; exact hs.rotation)
  simp only [FrameWriter.after, FrameWriter.send, sendWithOptionalPadding, run_bind]
  cases h₁ : (maybeWriteKeyUpdate P env frame.ty).run w with
  | error =>
    rw [h₁] at hw₁
    exact hw₁
  | ok a w₁ =>
    rw [h₁, finalState_ok] at hw₁
    obtain ⟨hse₁, ho₁, ht₁⟩ := hok₁ a w₁ h₁
    -- the padding decision sees what `pads` sees
    have hpa : insertsPadding w₁ env frame.ty = w.pads env frame.ty := by
      unfold FrameWriter.pads insertsPadding
      rw [ho₁, ht₁]
    obtain ⟨hw₂, hok₂⟩ := maybeWritePadding_inTime P env frame.ty hk hw₁ (by
      rw [hpa, ho₁, hse₁, ← hli]
      exact hs.padding)
    dsimp only
    cases h₂ : (maybeWritePadding P env frame.ty).run w₁ with
    | error =>
      rw [h₂] at hw₂
      exact hw₂
    | ok b w₂ =>
      rw [h₂, finalState_ok] at hw₂
      obtain ⟨ho₂, hfi₂, hse₂⟩ := hok₂ b w₂ h₂
      have hfr : Fits w₂.options frame → w₂.txSeq < k := by
        rw [ho₂, ho₁, hse₂, hse₁, hpa, ← hli]
        refine hs.frame ?_
        rw [← hpa, ← ho₁]
        exact hfi₂
      obtain ⟨hw₃, _⟩ := writeOne_inTime P env.frame false frame hw₂
        (fun hfi => by have := hfr hfi; omega) (fun hfi _ => hfr hfi) (by simp)
      dsimp only
      cases h₃ : (writeOne P env.frame false frame).run w₂ with
      | error =>
        rw [h₃] at hw₃
        exact hw₃
      | ok =>
        rw [h₃, finalState_ok] at hw₃
        obtain ⟨hob, hoi⟩ := observe_inTime env.frame hw₃
        dsimp only
        rw [hob]
        exact hoi

end Parts

/-- **The rotation bound**: in a run whose sends are all in time, no generation
covers more than `key_update_frames` frames and its closing KEY_UPDATE. -/
theorem rotation_bound (P : Platform) (keys : SessionKeys) (o : FrameOptions)
    (hk : o.keyUpdateFrames < 2 ^ 64) (calls : List (SendEnv × Frame))
    (hca : ∀ before env frame rest, calls = before ++ (env, frame) :: rest →
      SendsInTime ((FrameWriter.new keys o).afterAll P before) env frame) :
    ((FrameWriter.new keys o).afterAll P calls).RotationBound o.keyUpdateFrames := by
  suffices h : ((FrameWriter.new keys o).afterAll P calls).InTime o.keyUpdateFrames from
    h.rotationBound
  induction calls using List.reverseRecOn with
  | nil => exact ⟨rfl, stamped_new keys o, by simp [FrameWriter.afterAll, FrameWriter.new],
      by simp [FrameWriter.afterAll, FrameWriter.new]⟩
  | append_singleton calls call ih =>
    obtain ⟨env, frame⟩ := call
    have hw := ih fun before env' frame' rest heq =>
      hca before env' frame' (rest ++ [(env, frame)]) (by rw [heq]; simp)
    rw [FrameWriter.afterAll, foldl_append]
    exact after_inTime P env frame hk hw (hca calls env frame [] rfl)

def eagerOptions : FrameOptions := { unpaddedOptions with keyUpdateFrames := 1 }

def dataCall : SendEnv × Frame := (.instant, { ty := .data, payload := [] })

def heartbeatCall : SendEnv × Frame := (.instant, { ty := .padding, payload := [] })

/-- Two heartbeats carry the counter past two, where `key_update_frames` is two, and the
frame behind them does not rotate either: four frames in one generation. -/
theorem rotation_bound_fails :
    ¬ ∀ (P : Platform) (keys : SessionKeys) (o : FrameOptions) (calls : List (SendEnv × Frame)),
      0 < o.keyUpdateFrames → o.keyUpdateFrames < 2 ^ 64 →
        ((FrameWriter.new keys o).afterAll P calls).RotationBound o.keyUpdateFrames := by
  intro h
  have hbo := (h (.reference .release) (sampleKeys .client)
    { eagerOptions with keyUpdateFrames := 2 }
    [dataCall, heartbeatCall, heartbeatCall, dataCall, dataCall] (by decide) (by decide) 0).1
  exact absurd hbo (by decide +kernel)

theorem dataCalls_inTime (before : List (SendEnv × Frame)) (env : SendEnv)
    (frame : Frame) (rest : List (SendEnv × Frame))
    (heq : [dataCall, dataCall] = before ++ (env, frame) :: rest) :
    SendsInTime ((FrameWriter.new (sampleKeys .client) eagerOptions).afterAll (.reference .release)
      before) env frame := by
  match before, heq with
  | [], heq =>
    obtain ⟨rfl, rfl⟩ := Prod.mk.inj (List.cons.inj heq).1
    exact ⟨by decide +kernel, fun _ _ => by decide +kernel, fun _ _ => by decide +kernel⟩
  | [first], heq =>
    obtain ⟨rfl, hre⟩ := List.cons.inj heq
    obtain ⟨rfl, rfl⟩ := Prod.mk.inj (List.cons.inj hre).1
    exact ⟨by decide +kernel, fun _ _ => by decide +kernel, fun _ _ => by decide +kernel⟩
  | _ :: _ :: before, heq => simp at heq

theorem rotation_bound_sample :
    ((FrameWriter.new (sampleKeys .client) eagerOptions).afterAll (.reference .release)
      [dataCall, dataCall]).RotationBound 1 :=
  rotation_bound (.reference .release) (sampleKeys .client) eagerOptions (by decide)
    [dataCall, dataCall] dataCalls_inTime

end Espejismo
