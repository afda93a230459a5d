import Espejismo.Underlay.WebSocket.Pump

/-!
# Underlay.WebSocket.Reader

What the reader of the WebSocket underlay gives to the application.

`Message` says what a complete binary message is made of, without reference to
how the reader collects it, and `Reassembles` what a sequence of frames is
worth: the messages it begins with, and a tail that begins with none.
-/

namespace Espejismo.Underlay

open Binary Machine List

/-! ## Messages -/

/-- The frames of a complete message, without the control frames between them,
and the message. -/
inductive Message (limit : Nat) : List WsFrame → List UInt8 → Prop
  | single (payload : List UInt8) : Message limit [.data payload] payload
  | fragments (start : List UInt8) (middle : List (List UInt8)) (last : List UInt8)
      (hln : (start ++ middle.flatten ++ last).length ≤ limit) :
      Message limit
        (.dataStart start :: (middle.map (.continuation · false) ++ [.continuation last true]))
        (start ++ middle.flatten ++ last)

def WsFrame.isData : WsFrame → Bool
  | .data _ => true
  | .dataStart _ => true
  | .continuation _ _ => true
  | _ => false

/-- `frames` are complete messages, which together say `out`, and a `tail` that
begins with no complete message.  Control frames do not count. -/
def Reassembles (limit : Nat) (frames : List WsFrame) (out : List UInt8) (tail : List WsFrame) :
    Prop :=
  ∃ messages : List (List WsFrame × List UInt8),
    (∀ m ∈ messages, Message limit m.1 m.2) ∧
    frames.filter WsFrame.isData = messages.flatMap (·.1) ++ tail ∧
    out = messages.flatMap (·.2) ∧
    ∀ frames payload, Message limit frames payload → ¬frames <+: tail

def WsFrame.payload : WsFrame → List UInt8
  | .data payload => payload
  | .dataStart payload => payload
  | .continuation payload _ => payload
  | _ => []

def payloads (frames : List WsFrame) : List UInt8 := frames.flatMap WsFrame.payload

@[simp] theorem payloads_append (frames frames' : List WsFrame) :
    payloads (frames ++ frames') = payloads frames ++ payloads frames' :=
  flatMap_append

@[simp] theorem payloads_singleton (frame : WsFrame) : payloads [frame] = frame.payload := by
  simp [payloads]

@[simp] theorem payloads_continuations (middle : List (List UInt8)) (final : Bool) :
    payloads (middle.map (.continuation · final)) = middle.flatten := by
  simp [payloads, flatMap_map, WsFrame.payload]

theorem length_payloads_le (h : frames <+: frames') :
    (payloads frames).length ≤ (payloads frames').length := by
  obtain ⟨rest, rfl⟩ := h
  simp

/-- The frames of a message that is not complete yet, and what there is of
it. -/
inductive Partial (limit : Nat) : List WsFrame → Option (List UInt8) → Prop
  | none : Partial limit [] none
  | some (start : List UInt8) (middle : List (List UInt8))
      (hln : (start ++ middle.flatten).length ≤ limit) :
      Partial limit (.dataStart start :: middle.map (.continuation · false))
        (some (start ++ middle.flatten))

namespace Partial

variable {limit : Nat} {tail frames : List WsFrame} {fragmentedMessage : Option (List UInt8)}
  {frame : WsFrame} {payload message : List UInt8}

theorem length_le (h : Partial limit tail fragmentedMessage)
    (hm : fragmentedMessage = Option.some message) : message.length ≤ limit := by
  subst hm
  cases h with
  | some start middle hln => exact hln

theorem not_isPrefix (h : Partial limit tail fragmentedMessage)
    (hm : Message limit frames payload) :
    ¬frames <+: tail := by
  intro hpr
  cases h with
  | none =>
    rw [prefix_nil] at hpr
    cases hm <;> contradiction
  | some start middle =>
    cases hm with
    | single => simp at hpr
    | fragments start' middle' last =>
      have hla : WsFrame.continuation last true ∈
          WsFrame.dataStart start :: middle.map (.continuation · false) :=
        hpr.subset (by simp)
      simp at hla

theorem keep (h : Partial limit tail fragmentedMessage)
    (hr : react limit fragmentedMessage frame = .keep message) :
    Partial limit (tail ++ [frame]) (Option.some message) := by
  cases h with
  | none =>
    cases frame with
    | dataStart payload =>
      simp only [react] at hr
      split at hr
      · contradiction
      · next hle =>
        rw [Reaction.keep.injEq] at hr
        subst hr
        simpa using Partial.some payload [] (by simpa using hle)
    | _ => simp [react] at hr
  | some start middle =>
    cases frame with
    | continuation payload finalFragment =>
      simp only [react] at hr
      split at hr
      · contradiction
      · next hle =>
        cases finalFragment with
        | true => simp at hr
        | false =>
          simp only [Bool.false_eq_true, if_false, Reaction.keep.injEq] at hr
          subst hr
          have hne : Partial limit _ _ := .some start (middle ++ [payload])
            (by simp at hle ⊢; omega)
          simpa using hne
    | _ => simp [react] at hr

theorem deliver (h : Partial limit tail fragmentedMessage)
    (hr : react limit fragmentedMessage frame = .deliver message) :
    Message limit (tail ++ [frame]) message := by
  cases h with
  | none =>
    cases frame with
    | data payload =>
      simp only [react, Option.isSome_none, Bool.false_eq_true, if_false,
        Reaction.deliver.injEq] at hr
      subst hr
      exact .single payload
    | dataStart =>
      simp only [react] at hr
      split at hr <;> contradiction
    | _ => simp [react] at hr
  | some start middle =>
    cases frame with
    | continuation payload finalFragment =>
      simp only [react] at hr
      split at hr
      · contradiction
      · next hle =>
        cases finalFragment with
        | false => simp at hr
        | true =>
          simp only [if_true, Reaction.deliver.injEq] at hr
          subst hr
          exact .fragments start middle payload (by simp at hle ⊢; omega)
    | _ => simp [react] at hr

theorem stop (h : Partial limit tail fragmentedMessage)
    (hr : react limit fragmentedMessage frame = .stop) (hm : Message limit frames payload) :
    ¬tail ++ [frame] <+: frames := by
  intro hpr
  cases h with
  | none =>
    -- the frame begins a message
    cases hm with
    | single =>
      obtain rfl : frame = .data payload := by simpa using hpr
      simp [react] at hr
    | fragments start middle last hln =>
      obtain rfl : frame = .dataStart start := by simpa using hpr
      have hle : start.length ≤ limit := by
        simp only [length_append] at hln
        omega
      simp [react, hle] at hr
  | some =>
    cases hm with
    | single => simp at hpr
    | fragments start' middle' last hln =>
      rw [cons_append, cons_prefix_cons] at hpr
      obtain ⟨hsta, hpr⟩ := hpr
      obtain rfl := WsFrame.dataStart.inj hsta
      obtain ⟨payload, finalFragment, rfl⟩ : ∃ p b, frame = .continuation p b := by
        have hmm : frame ∈ middle'.map (.continuation · false) ++ [.continuation last true] :=
          hpr.subset (by simp)
        simp only [mem_append, mem_map, mem_singleton] at hmm
        obtain ⟨p, -, rfl⟩ | rfl := hmm
        · exact ⟨p, false, rfl⟩
        · exact ⟨last, true, rfl⟩
      -- the fragments so far are no longer than the message they begin
      have hsu := length_payloads_le hpr
      simp only [payloads_append, payloads_continuations, payloads_singleton, WsFrame.payload,
        length_append] at hsu hln
      simp only [react, length_append] at hr
      split at hr
      · omega
      · split at hr <;> contradiction

end Partial

/-! ## The reader -/

/-- Every write of the reader succeeds: the application takes what it is given,
and the wire is not shut. -/
def WritesSucceed (s : Pump) : PumpEvent → Prop
  | .frame appOpen => appOpen = true
  | .acquire .reader _ => s.wireShut = false
  | _ => True

instance (s : Pump) (e : PumpEvent) : Decidable (WritesSucceed s e) :=
  match e with
  | .frame appOpen => inferInstanceAs (Decidable (appOpen = true))
  | .acquire .reader _ => inferInstanceAs (Decidable (s.wireShut = false))
  | .acquire .writer _ => inferInstanceAs (Decidable True)
  | .upload _ => inferInstanceAs (Decidable True)
  | .uploadFailed => inferInstanceAs (Decidable True)
  | .release _ => inferInstanceAs (Decidable True)

def pings (frames : List WsFrame) : List (List UInt8) :=
  frames.filterMap fun
    | .ping payload => some payload
    | _ => none

def Outgoing.pong? : Outgoing → Option (List UInt8)
  | .pong payload => some payload
  | _ => none

namespace Pump

def pongs (s : Pump) : List (List UInt8) := s.sent.filterMap (·.frame.pong?)

/-- The pong that the reader is about to send. -/
def pendingPong (s : Pump) : List (List UInt8) :=
  match s.reader with
  | .sending frame => frame.pong?.toList
  | _ => []

end Pump

/-- Why the reader stopped: behind a close frame, at a frame that cannot come
next in any message, or at bytes that are no frame (the end of the stream is
one way not to be). -/
inductive StopReason (role : WebSocketRole) (limit : Nat) (s : Pump) (tail : List WsFrame) : Prop
  | closed {payload : List UInt8} (h : s.seen.getLast? = some (.close payload))
  | violation (h : ∀ frames payload, Message limit frames payload → ¬tail <+: frames)
  | noFrame {e : Error} (h : readWsFrame role limit s.inbound = .error e)

/-- Where the reader is with the message it collects. -/
inductive Standing (role : WebSocketRole) (limit : Nat) (s : Pump) (tail : List WsFrame) : Prop
  | running (hp : s.reader = .reading ∨ ∃ payload, s.reader = .sending (.pong payload))
      (hon : ∀ payload, .close payload ∉ s.seen) (h : Partial limit tail s.fragmentedMessage)
  | closing {payload : List UInt8} (hp : s.reader = .sending (.close payload))
      (hla : s.seen.getLast? = some (.close payload))
      (h : Partial limit tail s.fragmentedMessage)
  | stopped (hp : s.reader = .stopped) (hap : s.appEnded = true)
      (hrs : StopReason role limit s tail)
      (hln : ∀ message, s.fragmentedMessage = some message → message.length ≤ limit)
      (hno : ∀ frames payload, Message limit frames payload → ¬frames <+: tail)

structure ReaderInv (role : WebSocketRole) (limit : Nat) (input : List UInt8) (s : Pump) :
    Prop where
  parsed : readWsFrames role limit s.seen.length input = .ok (s.seen, s.inbound)
  pongs : s.pongs ++ s.pendingPong = pings s.seen
  before : ∀ payload, .close payload ∉ s.seen.dropLast
  messages : ∃ (messages : List (List WsFrame × List UInt8)) (tail : List WsFrame),
    (∀ m ∈ messages, Message limit m.1 m.2) ∧
    s.seen.filter WsFrame.isData = messages.flatMap (·.1) ++ tail ∧
    s.delivered = messages.flatMap (·.2) ∧ Standing role limit s tail

variable {role : WebSocketRole} {limit : Nat} {input : List UInt8} {s : Pump}

theorem readWsFrames_concat (h : readWsFrames role limit frames.length input = .ok (frames, rest))
    (hne : readWsFrame role limit rest = .ok (frame, rest')) :
    readWsFrames role limit (frames ++ [frame]).length input = .ok (frames ++ [frame], rest') := by
  induction frames generalizing input with
  | nil =>
    obtain ⟨-, rfl⟩ := Prod.mk.inj (Except.ok.inj h)
    simp [readWsFrames, hne, bind, Except.bind, pure, Except.pure]
  | cons f frames ih =>
    rw [length_cons, readWsFrames, bind_eq_ok] at h
    obtain ⟨⟨f', input'⟩, hre, h⟩ := h
    rw [bind_eq_ok] at h
    obtain ⟨⟨frames', rest''⟩, hf, h⟩ := h
    obtain ⟨hcn, rfl⟩ := Prod.mk.inj (Except.ok.inj h)
    obtain ⟨rfl, rfl⟩ := List.cons.inj hcn
    have ha := ih hf
    simp only [cons_append, length_cons, readWsFrames, hre, ha, bind, Except.bind,
      pure, Except.pure]

/-! ## One step of the reader -/

section Step

variable {tail : List WsFrame}

theorem Standing.congr (h : Standing role limit s tail) (hrd : s'.reader = s.reader)
    (hme : s'.fragmentedMessage = s.fragmentedMessage) (hse : s'.seen = s.seen)
    (hen : s'.appEnded = s.appEnded) (hi : s'.inbound = s.inbound) :
    Standing role limit s' tail := by
  cases h with
  | running hp hon h => exact .running (hrd ▸ hp) (hse ▸ hon) (hme ▸ h)
  | closing hp hla h =>
    exact .closing (hrd.trans hp) (hse ▸ hla) (hme ▸ h)
  | stopped hp hap hrs hln hno =>
    refine .stopped (hrd.trans hp) (hen.trans hap) ?_ (hme ▸ hln) hno
    cases hrs with
    | closed h => exact .closed (hse ▸ h)
    | violation h => exact .violation h
    | noFrame h => exact .noFrame (hi ▸ h)

theorem ReaderInv.congr (hs : ReaderInv role limit input s) (hrd : s'.reader = s.reader)
    (hme : s'.fragmentedMessage = s.fragmentedMessage) (hse : s'.seen = s.seen)
    (hen : s'.appEnded = s.appEnded) (hi : s'.inbound = s.inbound)
    (hde : s'.delivered = s.delivered) (hpo : s'.pongs = s.pongs) :
    ReaderInv role limit input s' := by
  have hpe : s'.pendingPong = s.pendingPong := by simp [Pump.pendingPong, hrd]
  obtain ⟨messages, tail, ha, hf, hou, hst⟩ := hs.messages
  refine ⟨by rw [hse, hi]; exact hs.parsed,
    by rw [hpo, hpe, hse]; exact hs.pongs, hse ▸ hs.before,
    messages, tail, ha, hse ▸ hf, hde.trans hou, ?_⟩
  exact hst.congr hrd hme hse hen hi

theorem isData_of_react (h : react limit fragmentedMessage frame = reaction)
    (hsk : reaction ≠ .skip) (hrp : ∀ o, reaction ≠ .reply o) : frame.isData = true := by
  subst h
  cases frame with
  | ping payload => exact absurd rfl (hrp (.pong payload))
  | close payload => exact absurd rfl (hrp (.close payload))
  | pong => exact absurd rfl hsk
  | _ => rfl

theorem pings_concat (frames : List WsFrame) (frame : WsFrame) :
    pings (frames ++ [frame]) = pings frames ++ pings [frame] :=
  filterMap_append

theorem pings_of_isData (h : frame.isData = true) : pings [frame] = [] := by
  cases frame <;> first | rfl | contradiction

theorem ReaderInv.partial_of_reading (hs : ReaderInv role limit input s)
    (hp : s.reader = .reading) :
    ∃ (messages : List (List WsFrame × List UInt8)) (tail : List WsFrame),
      (∀ m ∈ messages, Message limit m.1 m.2) ∧
      s.seen.filter WsFrame.isData = messages.flatMap (·.1) ++ tail ∧
      s.delivered = messages.flatMap (·.2) ∧ Partial limit tail s.fragmentedMessage ∧
      s.pongs = pings s.seen ∧ ∀ payload, .close payload ∉ s.seen := by
  obtain ⟨messages, tail, ha, hf, hou, hst⟩ := hs.messages
  have han : s.pongs = pings s.seen := by
    simpa [Pump.pendingPong, hp] using hs.pongs
  cases hst with
  | running _ hon h => exact ⟨messages, tail, ha, hf, hou, h, han, hon⟩
  | closing hp' | stopped hp' => exact nomatch hp.symm.trans hp'

/-- **One frame**: a complete message is delivered, a fragment is kept, a
control frame leaves the message alone, and anything else stops the reader. -/
theorem ReaderInv.frame (hs : ReaderInv role limit input s) (hp : s.reader = .reading)
    {frame : WsFrame} {rest : List UInt8}
    (hre : readWsFrame role limit s.inbound = .ok (frame, rest)) :
    ReaderInv role limit input
      ({ s with inbound := rest, seen := s.seen ++ [frame] }.handle limit true frame) := by
  obtain ⟨messages, tail, ha, hf, hou, hc, hpo, hon⟩ := hs.partial_of_reading hp
  have hb : ∀ payload, .close payload ∉ (s.seen ++ [frame]).dropLast := by
    simpa using hon
  have hsy (h : ∀ payload, frame ≠ .close payload) :
      ∀ payload, .close payload ∉ s.seen ++ [frame] := by
    intro payload hmm
    rw [mem_append, mem_singleton] at hmm
    exact hmm.elim (hon payload) fun heq => h payload heq.symm
  have hpa := readWsFrames_concat hs.parsed hre
  have hda (h : frame.isData = true) :
      (s.seen ++ [frame]).filter WsFrame.isData = messages.flatMap (·.1) ++ (tail ++ [frame]) := by
    simp [hf, h]
  have hco (h : frame.isData = false) :
      (s.seen ++ [frame]).filter WsFrame.isData = messages.flatMap (·.1) ++ tail := by
    simp [hf, h]
  have hqu (h : frame.isData = true) : s.pongs = pings (s.seen ++ [frame]) := by
    rw [pings_concat, pings_of_isData h, append_nil, hpo]
  unfold Pump.handle
  cases hr : react limit s.fragmentedMessage frame with
  | deliver message =>
    have hd := isData_of_react hr (by simp) (by simp)
    have hme := hc.deliver hr
    refine ⟨hpa, ?_, hb, messages ++ [(tail ++ [frame], message)], [], ?_, ?_, ?_, ?_⟩
    · simpa [Pump.pendingPong, hp, Pump.pongs] using hqu hd
    · intro m hm
      rw [mem_append, mem_singleton] at hm
      obtain hm | rfl := hm
      · exact ha m hm
      · exact hme
    · simp [hda hd]
    · simp [hou]
    · exact .running (.inl hp) (hsy (by rintro p rfl; cases hd)) .none
  | keep =>
    have hd := isData_of_react hr (by simp) (by simp)
    refine ⟨hpa, ?_, hb, messages, tail ++ [frame], ha, hda hd, hou, ?_⟩
    · simpa [Pump.pendingPong, hp, Pump.pongs] using hqu hd
    · exact .running (.inl hp) (hsy (by rintro p rfl; cases hd)) (hc.keep hr)
  | skip =>
    obtain rfl : frame = .pong := by
      unfold react at hr
      grind
    refine ⟨hpa, ?_, hb, messages, tail, ha, hco rfl, hou, ?_⟩
    · simpa [Pump.pendingPong, hp, Pump.pongs, pings] using hpo
    · exact .running (.inl hp) (hsy (by simp)) hc
  | reply =>
    obtain ⟨payload, rfl, rfl⟩ | ⟨payload, rfl, rfl⟩ := Pump.reply_of_react hr
    · refine ⟨hpa, ?_, hb, messages, tail, ha, hco rfl, hou, ?_⟩
      · simpa [Pump.pendingPong, Outgoing.pong?, Pump.pongs, pings] using hpo
      · exact .running (.inr ⟨payload, rfl⟩) (hsy (by simp)) hc
    · refine ⟨hpa, ?_, hb, messages, tail, ha, hco rfl, hou, ?_⟩
      · simpa [Pump.pendingPong, Outgoing.pong?, Pump.pongs, pings] using hpo
      · exact .closing rfl (by simp) hc
  | stop =>
    have hd := isData_of_react hr (by simp) (by simp)
    have hvi : ∀ frames payload, Message limit frames payload →
        ¬tail ++ [frame] <+: frames := fun frames payload hm => hc.stop hr hm
    refine ⟨hpa, ?_, hb, messages, tail ++ [frame], ha, hda hd, hou, ?_⟩
    · simpa [Pump.pendingPong, Pump.stopReader, Pump.pongs] using hqu hd
    · refine .stopped rfl rfl (.violation hvi) ?_ ?_
      · exact fun message hm => hc.length_le hm
      · intro frames payload hm hpr
        obtain rfl | hpr := prefix_concat_iff.mp hpr
        · exact hvi _ payload hm (prefix_refl _)
        · exact hc.not_isPrefix hm hpr

theorem ReaderInv.step (hs : ReaderInv role limit input s) (hor : s.Orderly)
    (hok : WritesSucceed s e) (h : s.step role limit e = some s') :
    ReaderInv role limit input s' := by
  cases Pump.transition_of_step h with
  | frame hp hre =>
    obtain rfl := hok
    exact hs.frame hp hre
  | badFrame hp hre =>
    obtain ⟨messages, tail, ha, hf, hou, hc, hpo, -⟩ := hs.partial_of_reading hp
    refine ⟨hs.parsed, ?_, hs.before, messages, tail, ha, hf, hou, ?_⟩
    · simpa [Pump.pendingPong, Pump.stopReader, Pump.pongs] using hpo
    · exact .stopped rfl rfl (.noFrame hre) (fun _ hm => hc.length_le hm)
        fun _ _ hm => hc.not_isPrefix hm
  | upload | uploadEnd | uploadFailed | header => exact hs.congr rfl rfl rfl rfl rfl rfl rfl
  | @refused task mask frame hl hp hsh =>
    cases task with
    | reader => cases (show s.wireShut = false from hok).symm.trans hsh
    | writer => exact hs.congr rfl rfl rfl rfl rfl rfl rfl
  | @payload task mask frame hl hp =>
    cases task with
    | writer =>
      obtain ⟨payload, rfl⟩ | rfl := hor.writer frame hp
      all_goals
        refine hs.congr rfl rfl rfl rfl rfl rfl ?_
        simp [Pump.frameSent, Pump.endFrame, Pump.pongs, Outgoing.pong?]
    | reader =>
      have hp : s.reader = .sending frame := hp
      have hpo := hs.pongs
      simp only [Pump.pendingPong, hp] at hpo
      obtain ⟨messages, tail, ha, hf, hou, hst⟩ := hs.messages
      obtain ⟨payload, rfl⟩ | ⟨payload, rfl⟩ := hor.reader frame hp
      · refine ⟨hs.parsed, ?_, hs.before, messages, tail, ha, hf, hou, ?_⟩
        · simpa [Pump.frameSent, Pump.endFrame, Pump.pongs]
        · cases hst with
          | running _ hon hc => exact .running (.inl rfl) hon hc
          | closing hp' | stopped hp' => cases hp.symm.trans hp'
      · refine ⟨hs.parsed, ?_, hs.before, messages, tail, ha, hf, hou, ?_⟩
        · simpa [Pump.frameSent, Pump.endFrame, Pump.stopReader, Pump.pendingPong, Pump.pongs,
            Outgoing.pong?] using hpo
        · cases hst with
          | running hp' =>
            obtain hp' | ⟨_, hp'⟩ := hp'
            all_goals cases hp.symm.trans hp'
          | closing _ hla hc =>
            exact .stopped rfl rfl (.closed hla) (fun _ hm => hc.length_le hm)
              fun _ _ hm => hc.not_isPrefix hm
          | stopped hp' => cases hp.symm.trans hp'

theorem ReaderInv.start (role : WebSocketRole) (limit : Nat) (input : List UInt8) :
    ReaderInv role limit input (Pump.start input) :=
  ⟨rfl, rfl, by simp [Pump.start], [], [], by simp, rfl, rfl,
    .running (.inl rfl) (by simp [Pump.start]) .none⟩

end Step

/-! ## Whole runs -/

theorem ReaderInv.of_reach (h : Reach (Pump.step role limit) WritesSucceed (Pump.start input) s) :
    ReaderInv role limit input s := by
  have hor : ∀ s, Reach (Pump.step role limit) WritesSucceed (Pump.start input) s →
      s.Orderly := fun s hr =>
    hr.invariant (.start input) fun _ _ _ ho _ hs => ho.step hs
  exact h.invariant_of hor (.start role limit input) fun _ _ _ ho hs hok hste =>
    hs.step ho hok hste

theorem length_rest_lt
    (h : readWsFrame role limit input = .ok (frame, rest)) : rest.length < input.length := by
  obtain ⟨f, -, rfl, -⟩ := of_readWsFrame h
  simp only [RawFrame.encode, length_cons, length_append]
  omega

theorem handle_inbound (limit : Nat) (appOpen : Bool) (s : Pump) (f : WsFrame) :
    (s.handle limit appOpen f).inbound = s.inbound := by
  unfold Pump.handle
  split
  · split <;> rfl
  all_goals rfl

structure Pump.Free (s : Pump) : Prop where
  lock : s.lock = none
  shut : s.wireShut = false

theorem reach_frameSent (hp : s.reader = .sending frame) (hs : s.Free) :
    ∃ t : Pump, Reach (Pump.step role limit) WritesSucceed s (t.frameSent .reader frame) ∧
      t.Free ∧ t.inbound = s.inbound := by
  obtain ⟨hlo, hsh⟩ := hs
  have hp : s.phase .reader = .sending frame := hp
  have hok : WritesSucceed s (.acquire .reader (Bytes.zero 4)) := hsh
  have hhe := Pump.step_acquire role limit (Bytes.zero 4) hlo hp hsh
  have hpy := Pump.step_release role limit
    (s := s.beginFrame role .reader (Bytes.zero 4) frame) rfl hp
  exact ⟨_, .next (e := .release .reader) (.next .refl hok hhe) trivial hpy, ⟨rfl, hsh⟩, rfl⟩

theorem reader_stops (role : WebSocketRole) (limit : Nat) (hp : s.reader = .reading)
    (hs : s.Free) : ∃ t, Reach (Pump.step role limit) WritesSucceed s t ∧ t.reader = .stopped := by
  -- each frame takes bytes off the wire
  induction hn : s.inbound.length using Nat.strongRecOn generalizing s with
  | ind n ih =>
    subst hn
    cases hre : readWsFrame role limit s.inbound with
    | error =>
      have hste : s.step role limit (.frame true) = some s.stopReader := by
        simp [Pump.step, hp, hre]
      exact ⟨_, .next .refl (by rfl) hste, rfl⟩
    | ok p =>
      obtain ⟨f, rest⟩ := p
      have hsr := length_rest_lt hre
      generalize hmi : { s with inbound := rest, seen := s.seen ++ [f] } = mid
      have hste : s.step role limit (.frame true) = some (mid.handle limit true f) := by
        simp [Pump.step, hp, hre, ← hmi]
      have hrc : Reach (Pump.step role limit) WritesSucceed s (mid.handle limit true f) :=
        .next .refl (by rfl) hste
      have hrt : (mid.handle limit true f).inbound = rest := by
        rw [handle_inbound, ← hmi]
      have hsi := Pump.handle_wireSide limit true mid f
      have hfr : (mid.handle limit true f).Free := by
        subst hmi
        exact ⟨hsi.1.trans hs.lock, hsi.2.2.1.trans hs.shut⟩
      obtain hr | hr | ⟨payload, -, hr⟩ | ⟨payload, -, hr⟩ := Pump.handle_reader limit true mid f
      · have hrn : (mid.handle limit true f).reader = .reading := by
          rw [hr, ← hmi, hp]
        obtain ⟨t, ht, hsp⟩ := ih rest.length hsr hrn hfr (by rw [hrt])
        exact ⟨t, hrc.trans ht, hsp⟩
      · exact ⟨_, hrc, hr⟩
      · obtain ⟨u, hsn, hu, hi⟩ := reach_frameSent hr hfr
        obtain ⟨t, ht, hsp⟩ := ih rest.length hsr (s := u.frameSent .reader
          (.pong payload)) rfl ⟨hu.lock, hu.shut⟩ (by rw [← hrt, ← hi]; rfl)
        exact ⟨t, (hrc.trans hsn).trans ht, hsp⟩
      · obtain ⟨u, hsn, -, -⟩ := reach_frameSent hr hfr
        exact ⟨_, hrc.trans hsn, rfl⟩

/-- **The reader delivers whole messages.**  As long as its writes succeed: it has
taken the first frames off the wire, none behind a close, and written the complete
messages these begin with, and the rest begins with none; the message it collects is
within the limit; the pings among them are answered in order, up to a pong it is about
to send, and what is sent is on the wire.  It stops only at a close frame, at a frame
that cannot come next, or where no frame can be read, and the application then sees the
end of the stream.  Left alone, it comes to such a stop. -/
theorem reader_delivers_messages (role : WebSocketRole) (maxFrameBytes : Nat) (input : List UInt8) :
    (∃ s, Reach (Pump.step role (pumpLimit maxFrameBytes)) WritesSucceed (Pump.start input) s ∧
      s.reader = .stopped) ∧
    ∀ s, Reach (Pump.step role (pumpLimit maxFrameBytes)) WritesSucceed (Pump.start input) s →
      readWsFrames role (pumpLimit maxFrameBytes) s.seen.length input = .ok (s.seen, s.inbound) ∧
      (∀ message, s.fragmentedMessage = some message → message.length ≤ max maxFrameBytes 1024) ∧
      (∀ payload, .close payload ∉ s.seen.dropLast) ∧
      s.pongs ++ s.pendingPong = pings s.seen ∧ s.wire = s.framed role ∧
      ∃ tail, Reassembles (pumpLimit maxFrameBytes) s.seen s.delivered tail ∧
        (s.reader = .stopped → s.appEnded = true ∧ s.pongs = pings s.seen ∧
          StopReason role (pumpLimit maxFrameBytes) s tail) := by
  refine ⟨reader_stops role _ rfl ⟨rfl, rfl⟩, ?_⟩
  intro s h
  obtain ⟨hpa, hpo, hb, messages, tail, ha, hf, hou, hst⟩ := ReaderInv.of_reach h
  have hwh : s.Whole role := h.invariant (.start role input) fun _ _ _ hs _ hste =>
    hs.step hste
  refine ⟨hpa, ?_, hb, hpo, hwh.wire, tail, ⟨messages, ha, hf, hou, ?_⟩, ?_⟩
  · intro message hm
    cases hst with
    | running _ _ hc | closing _ _ hc => exact hc.length_le hm
    | stopped _ _ _ hln => exact hln message hm
  · intro frames payload hm
    cases hst with
    | running _ _ hc | closing _ _ hc => exact hc.not_isPrefix hm
    | stopped _ _ _ _ hno => exact hno frames payload hm
  · intro hp
    have han : s.pongs = pings s.seen := by simpa [Pump.pendingPong, hp] using hpo
    cases hst with
    | running hp' =>
      obtain hp' | ⟨_, hp'⟩ := hp'
      all_goals exact nomatch hp.symm.trans hp'
    | closing hp' => exact nomatch hp.symm.trans hp'
    | stopped _ hap hrs => exact ⟨hap, han, hrs⟩

/-- A message in two fragments with a ping between them, a close, and a message behind it. -/
def fragmentsThenClose : List UInt8 :=
  [0x02, 1, 65, 0x89, 1, 7, 0x80, 1, 66, 0x88, 0, 0x82, 1, 67]

theorem reader_delivers_messages_fragments :
    ∃ s, Reach (Pump.step .client (pumpLimit 0)) WritesSucceed (Pump.start fragmentsThenClose) s ∧
      s.delivered = [65, 66] ∧ s.pongs = [[7]] ∧ s.inbound = [0x82, 1, 67] ∧
      s.wire = s.framed .client ∧ s.appEnded = true ∧
      ∃ tail, StopReason .client (pumpLimit 0) s tail := by
  obtain ⟨s, hrc, hde, hpo, hrt, hsp⟩ :=
    exists_of_run (Pump.step .client (pumpLimit 0)) WritesSucceed (Pump.start fragmentsThenClose)
      (fun s => s.delivered = [65, 66] ∧ s.pongs = [[7]] ∧ s.inbound = [0x82, 1, 67] ∧
        s.reader = .stopped)
      [.frame true, .frame true, .acquire .reader (Bytes.zero 4), .release .reader, .frame true,
        .frame true, .acquire .reader (Bytes.zero 4), .release .reader]
      (by decide)
  obtain ⟨-, -, -, -, hwi, tail, -, hed⟩ :=
    (reader_delivers_messages .client 0 fragmentsThenClose).2 s hrc
  obtain ⟨hap, -, hrs⟩ := hed hsp
  exact ⟨s, hrc, hde, hpo, hrt, hwi, hap, tail, hrs⟩

end Espejismo.Underlay
