import Mathlib.Algebra.Order.BigOperators.Group.List
import Mathlib.Algebra.Order.Ring.Nat
import Espejismo.Data.Machine
import Espejismo.Mux.Native.Sane

/-!
# Mux.Native.Buffer

What a session holds of a stream for its reader.  The receive channel counts
payloads and the window counts bytes: whatever the peer sends, a stream holds
at most one payload more than its channel has places, and nothing else bounds
the bytes.
-/

namespace Espejismo.Mux

open List

namespace NativeStream

variable {st : NativeStream}

/-- The receive channel has the configured capacity and keeps to it. -/
structure Fits (frames : Nat) (st : NativeStream) : Prop where
  capacity : st.rx.capacity = frames
  items : st.rx.items.length ≤ frames

variable {frames : Nat}

theorem Fits.refill (h : Fits frames st) (hr : Refill st st') : Fits frames st' := by
  cases hr with
  | current => exact h
  | next _ _ him =>
    refine ⟨h.capacity, ?_⟩
    have hle := h.items
    simp only [him, length_append, length_cons] at hle
    simp only
    omega

theorem Fits.call {senders : Bool} {op : Op} {tx tx' : Channel Command} (h : Fits frames st)
    (hc : Call senders st tx op st' tx') : Fits frames st' := by
  cases hc with
  | copied hfi | finished hfi => exact ⟨(h.refill hfi).capacity, (h.refill hfi).items⟩
  | drained | eof | dropped => exact ⟨h.capacity, Nat.zero_le _⟩
  | _ => exact ⟨h.capacity, h.items⟩

theorem Fits.step (hsp : Session.HandleStep st st') (h : Fits frames st) : Fits frames st' := by
  induction hsp with
  | same => exact h
  | call hcl => exact h.call hcl
  | given | flowed => exact ⟨h.capacity, h.items⟩
  | delivered _ hro =>
    refine ⟨h.capacity, ?_⟩
    have hlt := hro.2
    rw [h.capacity] at hlt
    simpa [Nat.succ_le_iff] using hlt
  | trans _ _ ih ih' => exact ih' (ih h)

theorem length_flatten_le {payloads : List (List UInt8)}
    (h : ∀ payload ∈ payloads, payload.length ≤ n) :
    payloads.flatten.length ≤ payloads.length * n := by
  simpa using sum_le_card_nsmul (payloads.map List.length) n (by simpa using h)

theorem length_held_le (h : Fits frames st) (ht : st.Tidy) :
    st.held.length ≤ (frames + 1) * maxPayload := by
  have hque := length_flatten_le ht.queue
  have hfra := Nat.mul_le_mul_right maxPayload h.items
  have hbuf := ht.buffer
  have hunr : st.unread.length ≤ st.readBuf.length := by simp [unread]
  rw [held, length_append, Nat.add_mul]
  omega

end NativeStream

namespace Session

variable {S : Session} {first : UInt32} {config : NativeMuxConfig}

structure Bounded (config : NativeMuxConfig) (S : Session) : Prop where
  sane : S.Sane
  config_eq : S.config = sanitizeConfig config
  fits : ∀ (r : Ref) (st : NativeStream), S.handles[r]? = some st →
    st.Fits (sanitizeConfig config).streamBufferFrames

theorem fits_step {frames : Nat} (hs : S.Sane) (hco : S.config.streamBufferFrames = frames)
    (hft : ∀ (r : Ref) (st : NativeStream), S.handles[r]? = some st → st.Fits frames)
    (h : Step S e S') (r : Ref) (st : NativeStream) (hg : S'.handles[r]? = some st) :
    st.Fits frames := by
  refine every_handle hs h hft ?_ (fun _ _ hh hst => hst.step hh) r st hg
  intro id priority holder
  exact ⟨hco, Nat.zero_le _⟩

theorem bounded_of_reach (h : Machine.Reach step Machine.Any (start first config) S) :
    S.Bounded config := by
  refine h.invariant ⟨sane_start first config, rfl, by simp [start]⟩ ?_
  intro S e S' hS _ hsp
  have hca := step_cases hS.sane hsp
  refine ⟨hS.sane.step hsp, (config_step hca).trans hS.config_eq, ?_⟩
  exact fits_step hS.sane (by rw [hS.config_eq]) hS.fits hca

/-- **Receive buffer bound**: a window with room for one payload more than the
receive channel has places bounds what a stream holds, whatever the peer sends. -/
theorem held_le_initialWindow
    (hwi : (max config.streamBufferFrames 1 + 1) * maxPayload ≤ config.initialWindowBytes)
    (h : Machine.Reach step Machine.Any (start first config) S) {r : Ref} {st : NativeStream}
    (hg : S.handles[r]? = some st) : st.held.length ≤ config.initialWindowBytes := by
  have hS := bounded_of_reach h
  have hhe := NativeStream.length_held_le (hS.fits r st hg) (hS.sane.tidy r st hg)
  exact Nat.le_trans hhe hwi

/-- A window of one byte does not keep two bytes out. -/
theorem held_exceeds_initialWindow :
    ∃ S, Machine.Reach step Machine.Any (serverSession { initialWindowBytes := 1 }) S ∧
      S.config.initialWindowBytes = 1 ∧
      S.handles[0]?.map (fun st => st.held) = some [5, 6] :=
  Machine.exists_of_run _ _ _ _
    [.arrive (.ok (some ⟨.open, 1, []⟩)), .arrive (.ok (some ⟨.data, 1, [5, 6]⟩)), .flush, .select,
      .select, .resume, .flush, .select, .select, .resume] (by decide +kernel)

theorem held_le_initialWindow_one_frame :
    ∃ (S : Session) (st : NativeStream), S.handles[0]? = some st ∧ st.held = [5, 6] ∧
      st.held.length ≤ 2 * maxPayload := by
  obtain ⟨S, hre, hhe⟩ := Machine.exists_of_run step Machine.Any
    (serverSession { initialWindowBytes := 2 * maxPayload, streamBufferFrames := 1 })
    (fun S => S.handles[0]?.map (fun st => st.held) = some [5, 6])
    [.arrive (.ok (some ⟨.open, 1, []⟩)), .arrive (.ok (some ⟨.data, 1, [5, 6]⟩)), .flush, .select,
      .select, .resume, .flush, .select, .select, .resume] (by decide +kernel)
  obtain ⟨st, hg, hhe⟩ := Option.map_eq_some_iff.mp hhe
  exact ⟨S, st, hg, hhe, held_le_initialWindow (by decide) hre hg⟩

end Session

end Espejismo.Mux
