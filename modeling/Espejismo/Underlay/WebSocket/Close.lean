import Espejismo.Underlay.WebSocket.Pump

/-!
# Underlay.WebSocket.Close

What the two tasks of the WebSocket underlay put on the wire.  The lock keeps
their frames apart, and nothing follows the writer's close, which shuts the
wire down.  The reader's answer to a close does not: it leaves the writer
running.  So the order of the frames around a close is kept exactly as long as
the writer does not begin a frame behind that answer (`BeforeAnswer`).
-/

namespace Espejismo.Underlay

open Binary Machine List Option

def Outgoing.isClose : Outgoing → Bool
  | .close _ => true
  | _ => false

def Outgoing.carried : Outgoing → List UInt8
  | .binary payload => payload
  | _ => []

namespace Pump

def frames (s : Pump) : List Outgoing := s.sent.map (·.frame) ++ (s.begun.map (·.2)).toList

def pendingUpload (s : Pump) : List UInt8 :=
  match s.writer with
  | .sending frame => frame.carried
  | _ => []

/-- The wire is made of whole frames and at most the header of another; its
data are what was read from the application; nothing follows a close, so there
is no second one. -/
structure CloseDiscipline (role : WebSocketRole) (s : Pump) : Prop where
  whole : s.wire = s.sent.flatMap (·.bytes role) ++
    (s.begun.map fun b => wsHeader role b.1 b.2.opcode b.2.payload.length).getD []
  upload : s.sent.flatMap (·.frame.carried) ++ s.pendingUpload = s.uploaded
  last : ∀ before frame after, s.frames = before ++ frame :: after → frame.isClose = true →
    after = []

def answered (s : Pump) : Bool := s.sent.any fun x => x.task == .reader && x.frame.isClose

/-- The writer begins a frame only while the reader has not answered a close. -/
def BeforeAnswer (s : Pump) : PumpEvent → Prop
  | .acquire .writer _ => s.answered = false
  | _ => True

instance (s : Pump) (e : PumpEvent) : Decidable (BeforeAnswer s e) :=
  match e with
  | .acquire .writer _ => inferInstanceAs (Decidable (s.answered = false))
  | .acquire .reader _ => inferInstanceAs (Decidable True)
  | .frame _ => inferInstanceAs (Decidable True)
  | .upload _ => inferInstanceAs (Decidable True)
  | .uploadFailed => inferInstanceAs (Decidable True)
  | .release _ => inferInstanceAs (Decidable True)

/-! ## The invariant -/

/-- Behind a close nobody sends: the wire is shut, or the reader has answered
and stopped. -/
structure Closing (role : WebSocketRole) (s : Pump) : Prop where
  whole : Whole role s
  upload : s.sent.flatMap (·.frame.carried) ++ s.pendingUpload = s.uploaded
  last : ∀ x ∈ s.sent.dropLast, x.frame.isClose = false
  quiet : ∀ x ∈ s.sent, x.frame.isClose = true →
    s.lock = none ∧ (s.wireShut = true ∨ s.reader = .stopped ∧ s.answered = true)

variable {role : WebSocketRole} {s s' : Pump}

namespace Closing

theorem start (role : WebSocketRole) (inbound : List UInt8) : Closing role (Pump.start inbound) :=
  ⟨.start role inbound, rfl, by simp [Pump.start], by simp [Pump.start]⟩

theorem readerMoves (hs : Closing role s) (hw : Whole role s') (hp : s.reader = .reading)
    (hlo : s'.lock = s.lock) (hwr : s'.writer = s.writer) (hsh : s'.wireShut = s.wireShut)
    (hse : s'.sent = s.sent) (hu : s'.uploaded = s.uploaded) : Closing role s' := by
  have hpe : s'.pendingUpload = s.pendingUpload := by simp [pendingUpload, hwr]
  refine ⟨hw, ?_, hse ▸ hs.last, ?_⟩
  · rw [hse, hpe, hu]
    exact hs.upload
  · intro x hx hc
    obtain ⟨hl, hqu | ⟨hst, -⟩⟩ := hs.quiet x (hse ▸ hx) hc
    · exact ⟨hlo.trans hl, .inl (hsh.trans hqu)⟩
    · exact nomatch hp.symm.trans hst

theorem writerMoves (hs : Closing role s) (hw : Whole role s') (hp : s.writer = .reading)
    (hlo : s'.lock = s.lock) (hrd : s'.reader = s.reader) (hsh : s'.wireShut = s.wireShut)
    (hse : s'.sent = s.sent) (hu : s'.uploaded = s.uploaded ++ s'.pendingUpload) :
    Closing role s' := by
  have ha : s'.answered = s.answered := by simp [answered, hse]
  refine ⟨hw, ?_, hse ▸ hs.last, ?_⟩
  · have hno : s.pendingUpload = [] := by simp only [pendingUpload, hp]
    rw [hu, hse, ← hs.upload, hno, append_nil]
  · intro x hx hc
    rw [hlo, hsh, hrd, ha]
    exact hs.quiet x (hse ▸ hx) hc

variable {task : Task} {mask : Bytes 4} {frame : Outgoing} {e : PumpEvent}

theorem header (hs : Closing role s) (hp : s.phase task = .sending frame)
    (hsh : s.wireShut = false) (ho : BeforeAnswer s (.acquire task mask))
    (hw : Whole role (s.beginFrame role task mask frame)) :
    Closing role (s.beginFrame role task mask frame) := by
  refine ⟨hw, hs.upload, hs.last, ?_⟩
  · intro x hx hc
    obtain ⟨-, hqu | ⟨hst, ha⟩⟩ := hs.quiet x hx hc
    · exact nomatch hsh.symm.trans hqu
    · cases task with
      | reader => exact nomatch hst.symm.trans hp
      | writer => exact nomatch (show s.answered = false from ho).symm.trans ha

theorem payload (hs : Closing role s) (hlo : s.lock = some (task, mask))
    (hp : s.phase task = .sending frame)
    (hw : Whole role ((s.endFrame role task mask frame).frameSent task frame)) :
    Closing role ((s.endFrame role task mask frame).frameSent task frame) := by
  have hon : ∀ x ∈ s.sent, x.frame.isClose = false := by
    intro x hx
    by_contra hc
    obtain ⟨hl, -⟩ := hs.quiet x hx (eq_true_of_ne_false hc)
    cases hlo.symm.trans hl
  have hla : ∀ x ∈ (s.endFrame role task mask frame).sent.dropLast, x.frame.isClose = false := by
    simpa [endFrame] using hon
  have hne : ∀ x ∈ (s.endFrame role task mask frame).sent, x.frame.isClose = true →
      x = { task, mask, frame } := by
    intro x hx hc
    rw [endFrame, mem_append, mem_singleton] at hx
    obtain hx | hx := hx
    · cases (hon x hx).symm.trans hc
    · exact hx
  have hul := hs.upload
  cases task with
  | reader =>
    obtain ⟨payload, rfl⟩ | ⟨payload, rfl⟩ := hs.whole.orderly.reader frame hp
    · refine ⟨hw, ?_, hla, ?_⟩
      · simpa [frameSent, endFrame, pendingUpload, Outgoing.carried] using hul
      · intro x hx hc
        obtain rfl := hne x hx hc
        cases hc
    · refine ⟨hw, ?_, hla, ?_⟩
      · simpa [frameSent, stopReader, endFrame, pendingUpload, Outgoing.carried] using hul
      · simp [frameSent, stopReader, endFrame, answered, Outgoing.isClose]
  | writer =>
    have hp : s.writer = .sending frame := hp
    simp only [pendingUpload, hp] at hul
    obtain ⟨payload, rfl⟩ | rfl := hs.whole.orderly.writer frame hp
    · refine ⟨hw, ?_, hla, ?_⟩
      · simpa [frameSent, endFrame, pendingUpload] using hul
      · intro x hx hc
        obtain rfl := hne x hx hc
        cases hc
    · refine ⟨hw, ?_, hla, ?_⟩
      · simpa [frameSent, endFrame, pendingUpload] using hul
      · exact fun x hx hc => ⟨rfl, .inl rfl⟩

theorem step (hs : Closing role s) (ho : BeforeAnswer s e) (h : s.step role limit e = some s') :
    Closing role s' := by
  have hw := hs.whole.step h
  cases transition_of_step h with
  | @frame f rest appOpen hp =>
    obtain ⟨hlo, hwr, hsh, -, hse, hu⟩ := handle_wireSide limit appOpen
      { s with inbound := rest, seen := s.seen ++ [f] } f
    exact hs.readerMoves hw hp hlo hwr hsh hse hu
  | badFrame hp => exact hs.readerMoves hw hp rfl rfl rfl rfl rfl
  | upload hp => exact hs.writerMoves hw hp rfl rfl rfl rfl rfl
  | uploadEnd hp | uploadFailed hp =>
    exact hs.writerMoves hw hp rfl rfl rfl rfl (append_nil _).symm
  | @refused task mask frame hlo hp hsh =>
    cases task with
    | writer => exact nomatch (hs.whole.orderly.shut hsh).symm.trans hp
    | reader => exact ⟨hw, hs.upload, hs.last, fun x hx hc => ⟨hlo, .inl hsh⟩⟩
  | header _ hp hsh => exact hs.header hp hsh ho hw
  | payload hlo hp => exact hs.payload hlo hp hw

theorem closeDiscipline (hs : Closing role s) : CloseDiscipline role s := by
  refine ⟨hs.whole.wire, hs.upload, ?_⟩
  intro before frame after hf hc
  by_contra haf
  have hme : frame ∈ s.frames.dropLast := by
    rw [hf, dropLast_append_of_ne_nil (by simp), dropLast_cons_of_ne_nil haf]
    simp
  cases hb : s.begun with
  | none =>
    simp only [frames, hb, map_none, toList_none, append_nil, ← map_dropLast, List.mem_map] at hme
    obtain ⟨x, hx, rfl⟩ := hme
    exact nomatch (hs.last x hx).symm.trans hc
  | some =>
    simp only [frames, hb, map_some, toList_some, dropLast_concat, List.mem_map] at hme
    obtain ⟨x, hx, rfl⟩ := hme
    obtain ⟨hlo, -⟩ := hs.quiet x hx hc
    exact nomatch (begun_of_lock_eq_none hlo).symm.trans hb

theorem not_closeDiscipline (hs : Closing role s) (ho : ¬BeforeAnswer s e)
    (h : s.step role limit e = some s') : ¬CloseDiscipline role s' := by
  intro hd
  cases transition_of_step h with
  | @refused task mask frame hlo hp hsh =>
    cases task with
    | reader => exact ho trivial
    | writer => exact nomatch (hs.whole.orderly.shut hsh).symm.trans hp
  | @header task mask frame hlo hp =>
    cases task with
    | reader => exact ho trivial
    | writer =>
      have ha : s.answered = true := eq_true_of_ne_false ho
      obtain ⟨x, hx, hc⟩ := any_eq_true.mp ha
      obtain ⟨before, after, hse⟩ := append_of_mem hx
      have hbe : (s.beginFrame role .writer mask frame).begun = some (mask, frame) :=
        begun_of_lock rfl hp
      have hf : (s.beginFrame role .writer mask frame).frames =
          before.map (·.frame) ++ x.frame :: (after.map (·.frame) ++ [frame]) := by
        rw [frames, hbe, show (s.beginFrame role .writer mask frame).sent = _ from hse]
        simp
      have hni := hd.last _ _ _ hf (Bool.and_eq_true_iff.mp hc).2
      simp at hni
  | _ => exact ho trivial

end Closing

/-! ## Whole runs -/

/-- **Close discipline.**  In the runs in which the writer begins no frame
behind the reader's answer to a close, the wire keeps to the discipline.  The
first frame it does begin there breaks it. -/
theorem close_discipline_iff (role : WebSocketRole) (maxFrameBytes : Nat) (inbound : List UInt8)
    (s : Pump)
    (h : Reach (Pump.step role (pumpLimit maxFrameBytes)) BeforeAnswer (Pump.start inbound) s) :
    CloseDiscipline role s ∧
      ∀ e s', s.step role (pumpLimit maxFrameBytes) e = some s' →
        (CloseDiscipline role s' ↔ BeforeAnswer s e) := by
  have hs : Closing role s := h.invariant (.start role inbound) fun _ _ _ hs ho hsp =>
    hs.step ho hsp
  refine ⟨hs.closeDiscipline, fun e s' hsp => ⟨fun hd => ?_, fun ho => ?_⟩⟩
  · by_contra ho
    exact hs.not_closeDiscipline ho hsp hd
  · exact (hs.step ho hsp).closeDiscipline

theorem close_discipline_upload :
    ∃ s, Reach (Pump.step .client (pumpLimit 0)) BeforeAnswer (Pump.start [0x89, 0]) s ∧
      s.sent.map (·.frame) = [.pong [], .binary [1], .close []] ∧ CloseDiscipline .client s := by
  obtain ⟨s, hre, hse⟩ := exists_of_run (Pump.step .client (pumpLimit 0)) BeforeAnswer
    (Pump.start [0x89, 0])
    (fun s => s.sent.map (·.frame) = [.pong [], .binary [1], .close []])
    [.frame true, .upload [1], .acquire .reader (Bytes.zero 4), .release .reader,
      .acquire .writer (Bytes.zero 4), .release .writer, .upload [],
      .acquire .writer (Bytes.zero 4), .release .writer]
    (by decide)
  exact ⟨s, hre, hse, (close_discipline_iff .client 0 _ s hre).1⟩

/-- The peer closes while the application uploads: the answer is followed by
data and by a second close. -/
theorem close_answered_during_upload :
    ∃ s, Reach (Pump.step .client (pumpLimit 0)) Any (Pump.start [0x88, 0]) s ∧
      s.sent.map (·.frame) = [.close [], .binary [1], .close []] ∧ ¬CloseDiscipline .client s := by
  obtain ⟨s, hre, hse, hbe⟩ := exists_of_run (Pump.step .client (pumpLimit 0)) Any
    (Pump.start [0x88, 0])
    (fun s => s.sent.map (·.frame) = [.close [], .binary [1], .close []] ∧ s.begun.isNone = true)
    [.frame true, .acquire .reader (Bytes.zero 4), .release .reader, .upload [1],
      .acquire .writer (Bytes.zero 4), .release .writer, .upload [],
      .acquire .writer (Bytes.zero 4), .release .writer]
    (by decide)
  refine ⟨s, hre, hse, fun hd => ?_⟩
  have hf : s.frames = [] ++ .close [] :: [.binary [1], .close []] := by
    rw [frames, hse, isNone_iff_eq_none.mp hbe]
    rfl
  exact nomatch hd.last _ _ _ hf rfl

end Pump

end Espejismo.Underlay
