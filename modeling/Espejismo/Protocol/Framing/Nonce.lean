import Mathlib.Logic.Relation
import Espejismo.Data.EpochLog
import Espejismo.Protocol.Framing.Lossless

/-!
# Protocol.Framing.Nonce

No frame is encrypted under a (generation, sequence number) that was used
before.  `WriterStep` lists what changes a writer: a frame handed to the
transport, a rotation, and changes of no account to the stamps.  Every send is a
sequence of such steps (`send_steps`), whatever the transport does and wherever
the send stops, so an invariant of the steps is an invariant of every run.
-/

namespace Espejismo

open Binary List

/-! ## The steps of a writer -/

inductive WriterStep (P : Platform) : FrameWriter → FrameWriter → Prop
  | handed {w : FrameWriter} (env : WriteEnv) (closing : Bool) {frame : Frame}
      {cipher : List UInt8} {next : Nat}
      (hc : P.aead.encrypt w.keys.txKey (sessionNonce w.txSeq w.keys.nonceTag)
        (framePlain w.options env.fill frame) = some cipher)
      (ha : addU64 P.build w.txSeq 1 = some next) :
      WriterStep P w (w.handed P env closing frame cipher next)
  | rotated {w : FrameWriter} {keys : SessionKeys} (h : w.keys.updateTx P = .ok keys) :
      WriterStep P w { w with keys, txSeq := 0 }
  | quiet {w : FrameWriter} (calls : List AeadCall) (til : Option Nat) :
      WriterStep P w { w with aeadLog := w.aeadLog ++ calls, paddingDisabledUntil := til }

abbrev WriterSteps (P : Platform) := Relation.ReflTransGen (WriterStep P)

section Steps

variable (P : Platform)

theorem writeOne_steps (env : WriteEnv) (closing : Bool) (frame : Frame) (w : FrameWriter) :
    WriterSteps P w (finalState ((writeOne P env closing frame).run w)) := by
  rcases writeOne_cases P env closing frame w with
    ⟨text, _, hr⟩ | ⟨calls, _, hr⟩ | ⟨cipher, next, _, hc, ha, hr⟩
  · rw [hr]
    exact .refl
  · rw [hr]
    exact .single (.quiet calls w.paddingDisabledUntil)
  · have hfi : finalState ((writeOne P env closing frame).run w) =
        w.handed P env closing frame cipher next := by
      rw [hr]
      split <;> rfl
    rw [hfi]
    exact .single (.handed env closing hc ha)

theorem observeWriteBackpressure_steps (env : WriteEnv) (w : FrameWriter) :
    WriterSteps P w (finalState ((observeWriteBackpressure env).run w)) := by
  obtain ⟨til, hob⟩ := run_observeWriteBackpressure env w
  rw [hob]
  simpa using Relation.ReflTransGen.single (WriterStep.quiet [] til)

theorem rotateTx_steps (w : FrameWriter) : WriterSteps P w (finalState ((rotateTx P).run w)) := by
  rw [run_rotateTx]
  cases h : w.keys.updateTx P with
  | ok => exact .single (.rotated h)
  | error => exact .refl

theorem steps_bind {f : α → Writing β} (w : FrameWriter)
    (hx : ∀ w, WriterSteps P w (finalState (x.run w)))
    (hf : ∀ a w, WriterSteps P w (finalState ((f a).run w))) :
    WriterSteps P w (finalState ((x >>= f).run w)) := by
  have hw := hx w
  rw [EStateM.run_bind]
  cases h : x.run w with
  | ok a w' =>
    rw [h] at hw
    exact hw.trans (hf a w')
  | error =>
    rw [h] at hw
    exact hw

theorem maybeWriteKeyUpdate_steps (env : SendEnv) (ty : FrameType) (w : FrameWriter) :
    WriterSteps P w (finalState ((maybeWriteKeyUpdate P env ty).run w)) := by
  refine steps_bind P w (fun w => .refl) fun w₀ w => ?_
  by_cases hdu : shouldKeyUpdate w₀.options w₀.txSeq ty = true
  · rw [if_pos hdu]
    refine steps_bind P w (writeOne_steps P env.rotation true keyUpdateFrame) fun _ w => ?_
    exact steps_bind P w (observeWriteBackpressure_steps P env.rotation) fun _ w =>
      rotateTx_steps P w
  · rw [if_neg hdu]
    exact .refl

theorem maybeWritePadding_steps (env : SendEnv) (ty : FrameType) (w : FrameWriter) :
    WriterSteps P w (finalState ((maybeWritePadding P env ty).run w)) := by
  refine steps_bind P w (fun w => .refl) fun w₀ w => ?_
  by_cases hpa : insertsPadding w₀ env ty = true
  · rw [if_pos hpa]
    exact steps_bind P w (writeOne_steps P env.padding false _) fun _ w =>
      observeWriteBackpressure_steps P env.padding w
  · rw [if_neg hpa]
    exact .refl

/-- **Every send is a sequence of steps**, wherever it stops. -/
theorem send_steps (env : SendEnv) (frame : Frame) (w : FrameWriter) :
    WriterSteps P w (finalState ((FrameWriter.send P env frame).run w)) := by
  refine steps_bind P w (maybeWriteKeyUpdate_steps P env frame.ty) fun _ w => ?_
  refine steps_bind P w (maybeWritePadding_steps P env frame.ty) fun _ w => ?_
  exact steps_bind P w (writeOne_steps P env.frame false frame) fun _ w =>
    observeWriteBackpressure_steps P env.frame w

end Steps

/-! ## Stamps -/

def FrameWriter.stamps (w : FrameWriter) : List (Nat × Nat) :=
  w.sent.map fun e => (e.generation, e.seq)

/-- The stamps are those of a counter that restarts at every generation. -/
def FrameWriter.Stamped (w : FrameWriter) : Prop :=
  EpochLog.Inv w.stamps w.keys.txGeneration w.txSeq

/-- Fewer than `2 ^ 64` frames were handed over in each generation. -/
def FrameWriter.FewFrames (w : FrameWriter) : Prop :=
  ∀ g, w.sent.countP (fun e => e.generation = g) < 2 ^ 64

theorem stamped_new (keys : SessionKeys) (o : FrameOptions) : (FrameWriter.new keys o).Stamped :=
  .nil _

variable {P : Platform} {w : FrameWriter} {keys : SessionKeys}

theorem stamped_handed
    (h : w.Stamped) : (w.handed P env closing frame cipher (w.txSeq + 1)).Stamped := by
  have hin := EpochLog.Inv.emit h
  simpa [FrameWriter.Stamped, FrameWriter.stamps, FrameWriter.handed, FrameWriter.entry] using hin

theorem stamped_rotated (hk : w.keys.updateTx P = .ok keys) (h : w.Stamped) :
    ({ w with keys, txSeq := 0 } : FrameWriter).Stamped :=
  EpochLog.Inv.rotate h (by
    rw [txGeneration_updateTx hk]
    exact Nat.lt_succ_self _)

theorem WriterStep.sent_le (h : WriterStep P w w') : w.sent <+: w'.sent := by
  cases h with
  | handed => exact prefix_append _ _
  | rotated | quiet => exact prefix_rfl

theorem WriterStep.stamped (h : WriterStep P w w') (hfe : w'.FewFrames) (hw : w.Stamped) :
    w'.Stamped := by
  cases h with
  | @handed env closing frame cipher next hc ha =>
    -- the frame is among the fewer than 2 ^ 64 of its generation
    have hold : w.sent.countP (fun e => e.generation = w.keys.txGeneration) = w.txSeq := by
      have hco := hw.count
      rwa [FrameWriter.stamps, countP_map] at hco
    have hro : w.txSeq + 1 < 2 ^ 64 := by
      have hco := hfe w.keys.txGeneration
      simpa [FrameWriter.handed, FrameWriter.entry, hold] using hco
    rw [addU64_of_lt P.build hro] at ha
    obtain rfl := Option.some.inj ha
    exact stamped_handed hw
  | rotated hk => exact stamped_rotated hk hw
  | quiet => exact hw

theorem WriterSteps.stamped (h : WriterSteps P w w') (hfe : w'.FewFrames) (hw : w.Stamped) :
    w'.Stamped := by
  induction h with
  | refl => exact hw
  | tail _ hst ih =>
    refine hst.stamped hfe (ih fun g => ?_)
    exact Nat.lt_of_le_of_lt (hst.sent_le.sublist.countP_le) (hfe g)

/-! ## Keys -/

/-- The traffic key of generation `g` of a session that starts with `keys`. -/
def txKeyAt (P : Platform) (keys : SessionKeys) (g : Nat) : Bytes 32 :=
  ((SessionKeys.afterUpdateTx P)^[g] keys).txKey

/-- Every frame handed over is encrypted under the key of its generation and
the nonce of its sequence number. -/
structure FrameWriter.Keyed (P : Platform) (keys : SessionKeys) (w : FrameWriter) : Prop where
  keys_eq : w.keys = (SessionKeys.afterUpdateTx P)^[w.keys.txGeneration] keys
  nonceTag_eq : w.keys.nonceTag = keys.nonceTag
  seq_lt : w.txSeq < 2 ^ 64
  sent : ∀ e ∈ w.sent, e.key = txKeyAt P keys e.generation ∧
    e.nonce = sessionNonce e.seq keys.nonceTag ∧ e.seq < 2 ^ 64 ∧
    ∃ plain, P.aead.encrypt e.key e.nonce plain = some e.ciphertext

theorem keyed_new (P : Platform) (h : keys.txGeneration = 0) (o : FrameOptions) :
    (FrameWriter.new keys o).Keyed P keys where
  keys_eq := by
    change keys = (SessionKeys.afterUpdateTx P)^[keys.txGeneration] keys
    rw [h]
    rfl
  nonceTag_eq := rfl
  seq_lt := by simp [FrameWriter.new]
  sent := by simp [FrameWriter.new]

theorem WriterStep.keyed (h : WriterStep P w w') (hw : w.Keyed P keys) : w'.Keyed P keys := by
  cases h with
  | @handed env closing frame cipher next hc ha =>
    refine ⟨hw.keys_eq, hw.nonceTag_eq, addU64_lt ha, ?_⟩
    intro e he
    rcases mem_append.mp he with hold | hne
    · exact hw.sent e hold
    obtain rfl := mem_singleton.mp hne
    refine ⟨?_, ?_, hw.seq_lt, _, hc⟩
    · exact congrArg SessionKeys.txKey hw.keys_eq
    · change sessionNonce w.txSeq w.keys.nonceTag = sessionNonce w.txSeq keys.nonceTag
      rw [hw.nonceTag_eq]
  | @rotated keys' hk =>
    have haf : SessionKeys.afterUpdateTx P w.keys = keys' := by
      rw [SessionKeys.afterUpdateTx, hk]
    refine ⟨?_, ?_, by simp, hw.sent⟩
    · rw [txGeneration_updateTx hk, Function.iterate_succ_apply', ← hw.keys_eq, haf]
    · rw [nonceTag_updateTx hk, hw.nonceTag_eq]
  | quiet => exact ⟨hw.keys_eq, hw.nonceTag_eq, hw.seq_lt, hw.sent⟩

theorem WriterSteps.keyed (h : WriterSteps P w w') (hw : w.Keyed P keys) : w'.Keyed P keys := by
  induction h with
  | refl => exact hw
  | tail _ hst ih => exact hst.keyed ih

end Espejismo
