import Espejismo.Protocol.Framing.Lossless
import Espejismo.Transport

/-!
# Transport.Failure

What a failed download pump does to the rest of its end.  The pump owns one half
of the application stream and one half of the connection; its failure drops
these halves and nothing else.  The stream is closed only when the upload pump
has returned too, and until then the upload pump goes on sending.
-/

namespace Espejismo

open Binary

/-! ## What the pumps leave alone -/

section Step

variable (P : Platform)

theorem Upload.step_of_returned {u : Upload} (h : u.result.isSome = true) (event : UploadEvent) :
    u.step P event = u := by
  rw [Upload.step, if_pos h]

variable {e : Endpoint}

theorem Endpoint.up_step_of_returned (h : e.up.result.isSome = true) (event : EndpointEvent) :
    (e.step P event).up.result = e.up.result ∧ (e.step P event).up.writer = e.up.writer := by
  cases event with
  | upload =>
    simp [Endpoint.step, Upload.step_of_returned P h]
  | appWrite =>
    unfold Endpoint.step Upload.appWrite
    dsimp only
    split
    · exact ⟨rfl, rfl⟩
    · split <;> exact ⟨rfl, rfl⟩
  | _ => exact ⟨rfl, rfl⟩

theorem Endpoint.sent_run_of_returned (h : e.up.result.isSome = true)
    (events : List EndpointEvent) :
    (e.run P events).up.writer = e.up.writer := by
  induction events generalizing e with
  | nil => rfl
  | cons event events ih =>
    obtain ⟨hre, hwr⟩ := Endpoint.up_step_of_returned P h event
    exact (ih (hre ▸ h)).trans hwr

/-- The stream is shut down only by a pump that returns `Ok`. -/
def Download.ShutOk (d : Download) : Prop := d.shut = true → d.result = some (.ok ())

theorem Download.recv_shutOk {d : Download} (h : d.ShutOk) : (d.recv P).ShutOk := by
  unfold Download.recv
  split
  · exact h
  · next hid =>
    have ho : d.shut = false := by
      cases hs : d.shut with
      | false => rfl
      | true => exact absurd (.inl (by rw [h hs]; rfl)) hid
    cases (readOne P).run d.reader with
    | ok =>
      dsimp only
      split
      · intro hs
        rw [ho] at hs
        contradiction
      · exact fun _ => rfl
      · intro hs
        rw [ho] at hs
        contradiction
    | error e r =>
      have hke : ∀ result, Download.ShutOk { d with reader := r, result } := by
        intro result hs
        rw [ho] at hs
        contradiction
      cases e with
      | eof =>
        dsimp only
        split
        · exact hke _
        · exact h
      | _ => exact hke _

theorem Endpoint.step_shutOk (h : e.down.ShutOk) (event : EndpointEvent) :
    (e.step P event).down.ShutOk := by
  cases event with
  | recv => exact Download.recv_shutOk P h
  | appWrite =>
    unfold Endpoint.step
    dsimp only
    split <;> exact h
  | _ => exact h

theorem Endpoint.run_shutOk (h : e.down.ShutOk) (events : List EndpointEvent) :
    (e.run P events).down.ShutOk := by
  induction events generalizing e with
  | nil => exact h
  | cons event events ih => exact ih (Endpoint.step_shutOk P h event)

end Step

theorem Endpoint.streamClosed_of_failed {e : Endpoint} (h : e.down.ShutOk)
    (hfa : e.down.result = some (.error err)) : e.streamClosed = e.up.result.isSome := by
  have ho : e.down.shut = false := by
    cases hs : e.down.shut with
    | false => rfl
    | true =>
      have hok := h hs
      rw [hfa] at hok
      simp at hok
  have hdo : e.down.result.isSome = true := by rw [hfa]; rfl
  rw [Endpoint.streamClosed, ho, hdo, Bool.false_or, Bool.and_true]

theorem Endpoint.spawn_shutOk (keys : SessionKeys) (o : FrameOptions) (bufferSize draw : Nat) :
    (Endpoint.spawn keys o bufferSize draw).down.ShutOk := by
  simp [Download.ShutOk, Endpoint.spawn, Download.start]

/-- **When a failed download is fatal**: in every state a session reaches with
its download pump failed, the application's stream is closed and nothing more is
sent, whatever happens later, exactly when the upload pump has returned. -/
theorem download_failure_fatal_iff (P : Platform) (keys : SessionKeys) (o : FrameOptions)
    (bufferSize draw : Nat) (events : List EndpointEvent) (err : Error)
    (hfa : ((Endpoint.spawn keys o bufferSize draw).run P events).down.result = some (.error err))
    :
    let e := (Endpoint.spawn keys o bufferSize draw).run P events
    (e.streamClosed = true ∧ ∀ later, (e.run P later).up.writer.sent = e.up.writer.sent) ↔
      e.up.result.isSome = true := by
  intro e
  have hcl : e.streamClosed = e.up.result.isSome := Endpoint.streamClosed_of_failed
    (Endpoint.run_shutOk P (Endpoint.spawn_shutOk keys o bufferSize draw) events) hfa
  constructor
  · rintro ⟨h, _⟩
    rw [← hcl]
    exact h
  · intro h
    refine ⟨hcl.trans h, fun later => ?_⟩
    rw [Endpoint.sent_run_of_returned P h later]

/-! A length field that unmasks to zero fails the download pump of a session
that has done nothing yet. -/

def badLength (P : Platform) (keys : SessionKeys) : List UInt8 :=
  encodeBE 4 (lengthMask P keys.rxLenMask 0)

def sampleEndpoint : Endpoint := .spawn (sampleKeys .client) unpaddedOptions 1024 0

def badLengthEvents (P : Platform) : List EndpointEvent :=
  [.netIn (badLength P (sampleKeys .client)), .recv]

def shutThenBadLength (P : Platform) : List EndpointEvent :=
  [.appShutdown, .upload (.read 0 1 .instant)] ++ badLengthEvents P

theorem badLength_recv :
    (sampleEndpoint.run (.reference .release) (badLengthEvents (.reference .release))).down.result =
      some (.error (.msg "invalid frame length 0")) ∧
    (sampleEndpoint.run (.reference .release)
      (badLengthEvents (.reference .release))).streamClosed = false := by
  decide +kernel

/-- The failure closes nothing while the upload pump runs. -/
theorem download_failure_not_fatal :
    ¬ ∀ (P : Platform) (keys : SessionKeys) (o : FrameOptions) (bufferSize draw : Nat)
      (events : List EndpointEvent) (err : Error),
      ((Endpoint.spawn keys o bufferSize draw).run P events).down.result = some (.error err) →
        ((Endpoint.spawn keys o bufferSize draw).run P events).streamClosed = true ∧
        ∀ later, (((Endpoint.spawn keys o bufferSize draw).run P events).run P
          later).up.writer.sent =
            ((Endpoint.spawn keys o bufferSize draw).run P events).up.writer.sent := by
  intro h
  have hcl := (h (.reference .release) (sampleKeys .client) unpaddedOptions 1024 0
    (badLengthEvents (.reference .release)) _ badLength_recv.1).1
  cases hcl.symm.trans badLength_recv.2

theorem download_failure_fatal_iff_sample :
    ((Endpoint.spawn (sampleKeys .client) unpaddedOptions 1024 0).run (.reference .release)
      (shutThenBadLength (.reference .release))).streamClosed = true :=
  ((download_failure_fatal_iff (.reference .release) (sampleKeys .client) unpaddedOptions 1024 0
    (shutThenBadLength (.reference .release)) (.msg "invalid frame length 0")
      (by decide +kernel)).mpr
    (by decide +kernel)).1

end Espejismo
