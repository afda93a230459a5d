import Espejismo.Mux.Native
import Espejismo.Mux.Native.Call

/-!
# Mux.Native.Step

What one step of a session can do.  `Step` lists the transitions of a session
with the state after each; `step_cases` shows that these are all, for sessions
that are `Sane`, and every invariant is proved by cases on it.

The two facts about the task that make the list short: a frame is pending only
at the top of the loop, and then it is the only one.  So no command and no
frame is handled while another frame waits, and queueing a frame never fails.
-/

namespace Espejismo.Mux

open Binary Option EStateM

namespace Session

variable {S : Session} {e : Session.Event}

def Event.command? : Event → Option Command
  | .openStream priority => some (.open priority)
  | .pingRtt nonce => some (.ping nonce)
  | .goaway => some .goaway
  | _ => none

def Event.call? : Event → Option (Ref × NativeStream.Op)
  | .write r _ => some (r, .write)
  | .read r _ => some (r, .read)
  | .shutdown r => some (r, .shutdown)
  | .drop r => some (r, .drop)
  | _ => none

/-- The frame a command asks for, where that is all it asks for. -/
def controlFrame : Command → Option Frame
  | .fin id => some ⟨.fin, id, []⟩
  | .windowUpdate id amount => some ⟨.windowUpdate, id, encodeBE 4 amount.toNat⟩
  | .ping nonce => some ⟨.ping, 0, encodeBE 8 nonce.toNat⟩
  | .goaway => some ⟨.goaway, 0, []⟩
  | _ => none

def drainAfter (S : Session) : Effect → Option Nat
  | .continue => S.drainingSince
  | .startDrain => S.drainingSince.or (some S.clock)

def queue (S : Session) (pending : PendingFrames) (effect : Effect) : Session :=
  { S with pending, phase := .flushing, drainingSince := S.drainAfter effect }

def takeCommand (S : Session) (items : List Command) : Session :=
  { S with commands := { S.commands with items } }

def takeFrame (S : Session) (f : Frame) (items : List (Except Error (Option Frame))) : Session :=
  { S with frames := { S.frames with items }, handled := S.handled ++ [f] }

abbrev control (f : Frame) : PendingFrame := ⟨f, none⟩

inductive Step (S : Session) : Event → Session → Prop
  | tick (ms : Nat) : Step S (.tick ms) { S with clock := S.clock + ms }
  | asked {e : Event} {c} (hc : e.command? = some c) (hro : S.commands.HasRoom) :
      Step S e { S with commands := S.commands.push c }
  | accepted {r items} (hl : S.accepts.live = true) (hi : S.accepts.items = .ok r :: items) :
      Step S .accept
        { S with
          accepts := { S.accepts with items }
          handles := S.handles.modify r fun st => { st with holder := .application } }
  | errorAccepted {err items} (hl : S.accepts.live = true)
      (hi : S.accepts.items = .error err :: items) :
      Step S .accept { S with accepts := { S.accepts with items } }
  | sessionDropped (hl : S.accepts.live = true) : Step S .dropSession S.dropSession
  | called {e : Event} {r op} {st st' : NativeStream} {tx : Channel Command}
      (he : e.call? = some (r, op)) (hge : S.handles[r]? = some st)
      (ha : st.holder = .application) (hca : st.Call (S.senders r st) S.commands op st' tx) :
      Step S e { S with handles := S.handles.set r st', commands := tx }
  -- `flush_pending`
  | popped {p} {pending : PendingFrames} (hph : S.phase = .flushing)
      (hp : S.pending.toList = [p]) (hpe : pending.toList = []) :
      Step S .flush
        { S with
          pending, phase := .writing p.frame.encode p.queuedStream
          transmitted := S.transmitted ++ [p.frame] }
  | stopped {pending : PendingFrames} (hph : S.phase = .flushing) (hp : S.pending.toList = [])
      (hpe : pending.toList = []) (hst : S.shouldStop = true) :
      Step S .flush { S with pending }.leave
  | entered {pending : PendingFrames} (hph : S.phase = .flushing) (hp : S.pending.toList = [])
      (hpe : pending.toList = []) :
      Step S .flush { S with pending, phase := .selecting S.clock }
  | written {queuedStream} (hph : S.phase = .writing [] queuedStream) :
      Step S .flush
        (queuedStream.elim { S with phase := .flushing }
          fun streamId => { S with phase := .flushing }.releaseSendSlot streamId)
  | transmitted {n rest queuedStream} (hph : S.phase = .writing rest queuedStream)
      (hn : 0 < n ∧ n ≤ rest.length) :
      Step S (.transmit n) { S with phase := .writing (rest.drop n) queuedStream }
  | writeFailed {rest queuedStream}
      (hph : S.phase = .writing rest queuedStream) : Step S .writeError S.leave
  -- the `select!`
  | polled {since} (hph : S.phase = .selecting since) (hi : S.commands.items = []) :
      Step S .select { S with phase := .polled since }
  | idled {since} {pending : PendingFrames} (hph : S.phase = .polled since)
      (hfr : S.frames.items = []) (hemp : S.streams.entries = [])
      (hpe : pending.toList = [control ⟨.goaway, 0, []⟩]) :
      Step S .select (S.queue pending .startDrain)
  | expired {since} (hph : S.phase = .polled since) (hfr : S.frames.items = [])
      (hd : S.drainingSince.isSome) : Step S .select S.leave
  | repolled {since} (hph : S.phase = .polled since) (hfr : S.frames.items = []) :
      Step S .select { S with phase := .selecting since }
  | readerEnded {since items} (hph : S.phase = .polled since)
      (hfr : S.frames.items = .ok none :: items) :
      Step S .select { S with frames := { S.frames with items } }.leave
  | readerFailed {since err items} (hph : S.phase = .polled since)
      (hfr : S.frames.items = .error err :: items) :
      Step S .select { S with frames := { S.frames with items }, phase := .reporting err }
  -- `handle_command`
  | openFailed {since next priority items effect reply} (hph : S.phase = .selecting since)
      (hi : S.commands.items = .open priority :: items)
      (hnex : next = S.nextStreamId ∨ next = S.nextStreamId + 2 ∧ effect = .startDrain)
      (hef : effect = .startDrain →
        u32Max < S.nextStreamId ∨ UInt32.ofNat S.nextStreamId ∈ S.streams) :
      Step S .select
        (({ S.takeCommand items with nextStreamId := next }.sendReply (.error reply)).queue
          S.pending effect)
  | opened {since : Nat} {priority : StreamPriority} {items : List Command} {streamId : UInt32}
      {pending : PendingFrames} (hph : S.phase = .selecting since)
      (hi : S.commands.items = .open priority :: items)
      (hd : S.drainingSince = none) (hid : streamId.toNat = S.nextStreamId)
      (hnew : streamId ∉ S.streams)
      (hpe : pending.toList = [control ⟨.open, streamId, [priority.toByte]⟩]) :
      Step S .select
        ((({ S.takeCommand items with nextStreamId := S.nextStreamId + 2 }.insertStream
          (newStream S.config streamId priority .application)).sendReply
            (.ok S.handles.length)).queue
            pending .continue)
  | dataSent {since streamId priority payload items} {pending : PendingFrames}
      (hph : S.phase = .selecting since)
      (hi : S.commands.items = .data streamId priority payload :: items)
      (hm : streamId ∈ S.streams)
      (hpe : pending.toList = [⟨⟨.data, streamId, payload⟩, some streamId⟩]) :
      Step S .select ((S.takeCommand items).queue pending .continue)
  | dataDiscarded {since streamId priority payload items} (hph : S.phase = .selecting since)
      (hi : S.commands.items = .data streamId priority payload :: items)
      (hm : streamId ∉ S.streams) :
      Step S .select ((S.takeCommand items).queue S.pending .continue)
  | controlSent {since c f items} {pending : PendingFrames} {pings effect}
      (hph : S.phase = .selecting since) (hi : S.commands.items = c :: items)
      (hf : controlFrame c = some f) (hpe : pending.toList = [control f])
      (hef : effect = .startDrain → c = .goaway) :
      Step S .select ({ S.takeCommand items with pendingPings := pings }.queue pending effect)
  | resetSent {since streamId items} {pending : PendingFrames} (hph : S.phase = .selecting since)
      (hi : S.commands.items = .rst streamId :: items)
      (hpe : pending.toList = [control ⟨.rst, streamId, []⟩]) :
      Step S .select
        ({ S.takeCommand items with streams := S.streams.erase streamId }.queue pending .continue)
  -- `handle_frame`
  | refused {since f items} {pending : PendingFrames} (hph : S.phase = .polled since)
      (hfr : S.frames.items = .ok (some f) :: items)
      (hk : (f.kind = .open ∧
          (S.drainingSince.isSome ∨ S.config.maxStreams ≤ S.streams.entries.length)) ∨
        (f.kind = .data ∧ f.streamId ∉ S.streams))
      (hpe : pending.toList = [control ⟨.rst, f.streamId, []⟩]) :
      Step S .select ((S.takeFrame f items).queue pending .continue)
  | admitted {since f items priority} (hph : S.phase = .polled since)
      (hfr : S.frames.items = .ok (some f) :: items) (hk : f.kind = .open)
      (hd : S.drainingSince = none) (hfu : S.streams.entries.length < S.config.maxStreams)
      (hprr : openPriority f.payload = .ok priority) :
      Step S .select
        { (S.takeFrame f items).insertStream (newStream S.config f.streamId priority .session) with
          phase := .accepting S.handles.length }
  | dataTaken {since f items r} (hph : S.phase = .polled since)
      (hfr : S.frames.items = .ok (some f) :: items) (hk : f.kind = .data)
      (hm : S.streams.lookup f.streamId = some r) :
      Step S .select { S.takeFrame f items with phase := .delivering r f.payload }
  | granted {since f items} (hph : S.phase = .polled since)
      (hfr : S.frames.items = .ok (some f) :: items) (hk : f.kind = .windowUpdate)
      (hln : f.payload.length = 4) :
      Step S .select
        { (S.takeFrame f items).modifyFlow f.streamId (·.addWindow (decodeBE f.payload)) with
          phase := .flushing }
  | closed {since f items} (hph : S.phase = .polled since)
      (hfr : S.frames.items = .ok (some f) :: items) (hk : f.kind = .fin ∨ f.kind = .rst) :
      Step S .select
        { (S.takeFrame f items).markStreamClosed f.streamId with
          streams := S.streams.erase f.streamId, phase := .flushing }
  | pinged {since f items} {pending : PendingFrames} (hph : S.phase = .polled since)
      (hfr : S.frames.items = .ok (some f) :: items) (hk : f.kind = .ping)
      (hln : f.payload.length = 8) (hpe : pending.toList = [control ⟨.ping, 0, f.payload⟩]) :
      Step S .select ((S.takeFrame f items).queue pending .continue)
  | ponged {since f items pings} (hph : S.phase = .polled since)
      (hfr : S.frames.items = .ok (some f) :: items) (hk : f.kind = .ping)
      (hln : f.payload.length = 8) :
      Step S .select ({ S.takeFrame f items with pendingPings := pings }.queue S.pending .continue)
  | goneAway {since f items} (hph : S.phase = .polled since)
      (hfr : S.frames.items = .ok (some f) :: items) (hk : f.kind = .goaway) :
      Step S .select ((S.takeFrame f items).queue S.pending .startDrain)
  | rejected {since f items err}
      (hph : S.phase = .polled since) (hfr : S.frames.items = .ok (some f) :: items)
      (hk : (f.kind = .open ∧ openPriority f.payload = .error err) ∨
        (f.kind = .windowUpdate ∧ f.payload.length ≠ 4) ∨
        (f.kind = .ping ∧ f.payload.length ≠ 8) ∨ ∃ kind h, f.kind = .unknown kind h) :
      Step S .select { S.takeFrame f items with phase := .reporting err }
  -- the awaits
  | acceptSent {r} (hph : S.phase = .accepting r) (hro : S.accepts.HasRoom) :
      Step S .resume { S with accepts := S.accepts.push (.ok r), phase := .flushing }
  | acceptFailed {r err} (hph : S.phase = .accepting r) (hg : S.accepts.live = false) :
      Step S .resume { S.dropHandles [r] with phase := .reporting err }
  | delivered {r payload} {st : NativeStream} (hph : S.phase = .delivering r payload)
      (hge : S.handles[r]? = some st) (hro : st.rx.HasRoom) :
      Step S .resume { S.setHandle r { st with rx := st.rx.push payload } with phase := .flushing }
  | deliveryFailed {r payload} {st : NativeStream} {err} (hph : S.phase = .delivering r payload)
      (hge : S.handles[r]? = some st) (hg : st.rx.live = false) :
      Step S .resume { S with phase := .reporting err }
  | reported {err} {accepts : Channel (Except Error Ref)} (hph : S.phase = .reporting err)
      (hacc : (S.accepts.live = false ∧ accepts = S.accepts) ∨
        (S.accepts.HasRoom ∧ accepts = S.accepts.push (.error err))) :
      Step S .resume { S with accepts }.leave
  | aborted (hg : S.accepts.live = false) (hr : S.Running) (hflu : S.phase ≠ .flushing)
      (hacp : ∀ r, S.phase ≠ .accepting r) :
      Step S .abort (S.stop .aborted)
  | acceptAborted {r} (hg : S.accepts.live = false) (hph : S.phase = .accepting r) :
      Step S .abort ((S.dropHandles [r]).stop .aborted)
  -- the reader
  | arrived {result : Except Error (Option Frame)} (hdo : S.readerDone = false)
      (hro : S.frames.HasRoom) (hrea : Readable result) :
      Step S (.arrive result)
        { S with frames := S.frames.push result, readerDone := endsReader result }

/-! ## These are all -/

structure Sane (S : Session) : Prop where
  pending_nil : S.phase ≠ .flushing → S.pending.toList = []
  pending_le : S.pending.toList.length ≤ 1
  pending_small : ∀ p ∈ S.pending.toList, p.frame.payload.length ≤ maxPayload
  data_small : ∀ c ∈ S.commands.items, c.Small
  frame_small : ∀ f, .ok (some f) ∈ S.frames.items → f.payload.length ≤ maxPayload
  delivering_small : ∀ r payload, S.phase = .delivering r payload → payload.length ≤ maxPayload
  tidy : ∀ (r : Ref) (st : NativeStream), S.handles[r]? = some st → st.Tidy

theorem run_enqueueControl (h : S.pending.toList = []) (kind : FrameKind) (id : UInt32)
    (payload : List UInt8) :
    ∃ pending : PendingFrames, pending.toList = [control ⟨kind, id, payload⟩] ∧
      (enqueueControl kind id payload).run S = .ok () { S with pending } := by
  obtain ⟨pending, hpu, hli⟩ := PendingFrames.pushControl_of_empty h (control ⟨kind, id, payload⟩)
  refine ⟨pending, hli, ?_⟩
  simp only [enqueueControl, run_bind, run_get, hpu]
  rfl

variable {id : UInt32} {payload : List UInt8} {since : Nat} {priority : StreamPriority}
  {pending : PendingFrames}

theorem run_data (hm : id ∈ S.streams)
    (hpu : S.pending.pushData priority ⟨⟨.data, id, payload⟩, some id⟩ = .ok pending) :
    (handleCommand (.data id priority payload)).run S = .ok .continue { S with pending } := by
  have hr : enqueueData priority id payload S = .ok () { S with pending } := by
    change (enqueueData priority id payload).run S = _
    simp only [enqueueData, run_bind, run_get, hpu]
    rfl
  refine run_bind_eq_ok.mpr ⟨S, S, rfl, ?_⟩
  simp only [hm]
  refine run_bind_eq_ok.mpr ⟨(), { S with pending }, ?_, rfl⟩
  change EStateM.tryCatch _ _ _ = _
  unfold EStateM.tryCatch
  rw [hr]

theorem run_data_discarded (hm : id ∉ S.streams) :
    (handleCommand (.data id priority payload)).run S = .ok .continue S := by
  have hno : S.streams.lookup id = none := AList.lookup_eq_none.mpr hm
  refine run_bind_eq_ok.mpr ⟨S, S, rfl, ?_⟩
  simp only [hm]
  refine run_bind_eq_ok.mpr ⟨(), S, ?_, rfl⟩
  change EStateM.Result.ok () (S.releaseSendSlot id) = _
  simp [releaseSendSlot, modifyFlow, hno]

theorem continueWith_pending (S : Session) (pending : PendingFrames) (effect : Effect) :
    { S with pending }.continueWith effect = S.queue pending effect := by
  cases effect <;> rfl

theorem continueWith_eq (S : Session) (effect : Effect) :
    S.continueWith effect = S.queue S.pending effect := continueWith_pending S S.pending effect

section Open

variable (priority : StreamPriority)

theorem run_open_draining (hd : S.drainingSince.isSome = true) :
    (handleCommand (.open priority)).run S =
      .ok .continue (S.sendReply (.error (.msg "native mux is draining"))) := by
  simp only [handleCommand, run_bind, run_get, hd]
  rfl

theorem run_open_full (hd : S.drainingSince.isSome = false)
    (hfu : S.config.maxStreams ≤ S.streams.entries.length) :
    (handleCommand (.open priority)).run S =
      .ok .continue (S.sendReply (.error (.msg "native mux max streams reached"))) := by
  simp only [handleCommand, run_bind, run_get, hd, hfu]
  rfl

theorem run_open_exhausted (hd : S.drainingSince.isSome = false)
    (hfu : ¬ S.config.maxStreams ≤ S.streams.entries.length) (hma : u32Max < S.nextStreamId) :
    (handleCommand (.open priority)).run S =
      .ok .startDrain (S.sendReply (.error (.msg "native mux stream id exhausted"))) := by
  have hal : allocateStreamId S.nextStreamId = none := if_neg (by omega)
  simp only [handleCommand, run_bind, run_get, hd, hfu, hal]
  rfl

variable (hd : S.drainingSince.isSome = false)
  (hfu : ¬ S.config.maxStreams ≤ S.streams.entries.length) (hma : S.nextStreamId ≤ u32Max)

include hd hfu hma

theorem run_open_collision (hm : UInt32.ofNat S.nextStreamId ∈ S.streams) :
    (handleCommand (.open priority)).run S =
      .ok .startDrain ({ S with nextStreamId := S.nextStreamId + 2 }.sendReply
        (.error (.msg "native mux stream id collision"))) := by
  have hal : allocateStreamId S.nextStreamId =
    some (UInt32.ofNat S.nextStreamId, S.nextStreamId + 2) := if_pos hma
  simp only [handleCommand, run_bind, run_get, hd, hfu, hal, hm]
  rfl

theorem run_open (hm : UInt32.ofNat S.nextStreamId ∉ S.streams) (hemp : S.pending.toList = []) :
    ∃ pending : PendingFrames,
      pending.toList = [control ⟨.open, UInt32.ofNat S.nextStreamId, [priority.toByte]⟩] ∧
      (handleCommand (.open priority)).run S =
        .ok .continue
          { ({ S with nextStreamId := S.nextStreamId + 2 }.insertStream
            (newStream S.config (UInt32.ofNat S.nextStreamId) priority .application)).sendReply
              (.ok S.handles.length) with pending } := by
  have hal : allocateStreamId S.nextStreamId =
    some (UInt32.ofNat S.nextStreamId, S.nextStreamId + 2) := if_pos hma
  have hemp' : ({ S with nextStreamId := S.nextStreamId + 2 }.insertStream
    (newStream S.config (UInt32.ofNat S.nextStreamId) priority .application)).pending.toList = [] :=
    hemp
  obtain ⟨pending, hpe, hr⟩ :=
    run_enqueueControl hemp' .open (UInt32.ofNat S.nextStreamId) [priority.toByte]
  refine ⟨pending, hpe, ?_⟩
  refine run_bind_eq_ok.mpr ⟨S, S, rfl, ?_⟩
  simp only [hd, hfu, hal, hm]
  refine run_bind_eq_ok.mpr ⟨(), _, rfl, ?_⟩
  exact run_bind_eq_ok.mpr ⟨(), _, hr, rfl⟩

end Open

private theorem run_then_return
    (hr : (enqueueControl kind id payload).run S = .ok () { S with pending }) :
    (enqueueControl kind id payload >>= fun _ => pure effect).run S =
      .ok effect { S with pending } :=
  run_bind_eq_ok.mpr ⟨(), _, hr, rfl⟩

theorem step_command (hs : S.Sane)
    (hph : S.phase = .selecting since) (hi : S.commands.items = c :: items) :
    ∃ effect S₁, (handleCommand c).run (S.takeCommand items) = .ok effect S₁ ∧
      Step S .select (S₁.continueWith effect) := by
  have hemp : (S.takeCommand items).pending.toList = [] := hs.pending_nil (by simp [hph])
  cases c with
  | «open» priority =>
    cases hd : S.drainingSince.isSome with
    | true =>
      refine ⟨_, _, run_open_draining priority hd, ?_⟩
      rw [continueWith_eq]
      exact .openFailed hph hi (.inl rfl) (by simp)
    | false =>
      by_cases hfu : S.config.maxStreams ≤ S.streams.entries.length
      · refine ⟨_, _, run_open_full priority hd hfu, ?_⟩
        rw [continueWith_eq]
        exact .openFailed hph hi (.inl rfl) (by simp)
      by_cases hma : S.nextStreamId ≤ u32Max
      · by_cases hm : UInt32.ofNat S.nextStreamId ∈ S.streams
        · refine ⟨_, _, run_open_collision priority hd hfu hma hm, ?_⟩
          rw [continueWith_eq]
          exact .openFailed hph hi (.inr ⟨rfl, rfl⟩) (fun _ => .inr hm)
        · obtain ⟨pending, hpe, hr⟩ :=
            run_open (S := S.takeCommand items) priority hd hfu hma hm hemp
          refine ⟨_, _, hr, ?_⟩
          refine .opened hph hi (by simpa using hd) ?_ hm hpe
          exact UInt32.toNat_ofNat_of_lt' (Nat.lt_of_le_of_lt hma (by decide))
      · refine ⟨_, _, run_open_exhausted priority hd hfu (Nat.lt_of_not_le hma), ?_⟩
        rw [continueWith_eq]
        exact .openFailed hph hi (.inl rfl) (fun _ => .inl (by omega))
  | data streamId priority payload =>
    by_cases hm : streamId ∈ S.streams
    · obtain ⟨pending, hpu, hpe⟩ := PendingFrames.pushData_of_empty hemp priority
        ⟨⟨.data, streamId, payload⟩, some streamId⟩
      refine ⟨.continue, { S.takeCommand items with pending }, run_data hm hpu, ?_⟩
      exact .dataSent hph hi hm hpe
    · refine ⟨.continue, S.takeCommand items, run_data_discarded hm, ?_⟩
      exact .dataDiscarded hph hi hm
  | fin streamId =>
    obtain ⟨pending, hpe, hr⟩ := run_enqueueControl hemp .fin streamId []
    refine ⟨_, _, run_then_return hr, ?_⟩
    rw [continueWith_pending]
    exact .controlSent hph hi rfl hpe (by simp)
  | rst streamId =>
    have hemp' : { S.takeCommand items with
      streams := S.streams.erase streamId }.pending.toList = [] := hemp
    obtain ⟨pending, hpe, hr⟩ := run_enqueueControl hemp' .rst streamId []
    refine ⟨_, _, run_bind_eq_ok.mpr ⟨(), _, rfl, run_then_return hr⟩, ?_⟩
    exact .resetSent hph hi hpe
  | windowUpdate streamId amount =>
    obtain ⟨pending, hpe, hr⟩ :=
      run_enqueueControl hemp .windowUpdate streamId (encodeBE 4 amount.toNat)
    refine ⟨_, _, run_then_return hr, ?_⟩
    rw [continueWith_pending]
    exact .controlSent hph hi rfl hpe (by simp)
  | ping nonce =>
    have hemp' : { S.takeCommand items with
      pendingPings := nonce :: S.pendingPings.erase nonce }.pending.toList = [] := hemp
    obtain ⟨pending, hpe, hr⟩ := run_enqueueControl hemp' .ping 0 (encodeBE 8 nonce.toNat)
    refine ⟨_, _, run_bind_eq_ok.mpr ⟨(), _, rfl, run_then_return hr⟩, ?_⟩
    rw [continueWith_pending]
    exact .controlSent hph hi rfl hpe (by simp)
  | goaway =>
    obtain ⟨pending, hpe, hr⟩ := run_enqueueControl hemp .goaway 0 []
    refine ⟨_, _, run_then_return hr, ?_⟩
    rw [continueWith_pending]
    exact .controlSent hph hi rfl hpe (fun _ => rfl)

section Frame

variable {f : Frame} {items : List (Except Error (Option Frame))}

@[simp] theorem drainingSince_takeFrame : (S.takeFrame f items).drainingSince = S.drainingSince :=
    rfl

@[simp] theorem config_takeFrame : (S.takeFrame f items).config = S.config := rfl

@[simp] theorem streams_takeFrame : (S.takeFrame f items).streams = S.streams := rfl

@[simp] theorem pendingPings_takeFrame : (S.takeFrame f items).pendingPings = S.pendingPings := rfl

theorem step_frame (hs : S.Sane) (hph : S.phase = .polled since)
    (hfr : S.frames.items = .ok (some f) :: items) :
    Step S .select ({ S with frames := { S.frames with items } }.onFrame f) := by
  have hemp : (S.takeFrame f items).pending.toList = [] := hs.pending_nil (by simp [hph])
  -- the answer to a frame that is refused
  obtain ⟨pending, hpe, hre⟩ := run_enqueueControl hemp .rst f.streamId []
  change Step S .select (afterFrame ((handleFrame f).run (S.takeFrame f items)))
  simp only [handleFrame, run_bind, run_get]
  cases hk : f.kind with
  | «open» =>
    cases hd : S.drainingSince.isSome with
    | true =>
      simp only [drainingSince_takeFrame, hd, if_true, run_bind, hre]
      exact .refused hph hfr (.inl ⟨hk, .inl hd⟩) hpe
    | false =>
      by_cases hfu : S.config.maxStreams ≤ S.streams.entries.length
      · simp only [drainingSince_takeFrame, config_takeFrame, streams_takeFrame, hd, hfu,
          Bool.false_eq_true, if_false, if_true, run_bind, hre]
        exact .refused hph hfr (.inl ⟨hk, .inr hfu⟩) hpe
      simp only [drainingSince_takeFrame, config_takeFrame, streams_takeFrame, hd, hfu]
      cases hpr : openPriority f.payload with
      | ok =>
        exact .admitted hph hfr hk (by simpa using hd) (Nat.lt_of_not_le hfu) hpr
      | error => exact .rejected hph hfr (.inl ⟨hk, hpr⟩)
  | data =>
    cases hm : S.streams.lookup f.streamId with
    | none =>
      simp only [streams_takeFrame, hm, run_bind, hre]
      exact .refused hph hfr (.inr ⟨hk, AList.lookup_eq_none.mp hm⟩) hpe
    | some =>
      simp only [streams_takeFrame, hm]
      exact .dataTaken hph hfr hk hm
  | windowUpdate =>
    by_cases hln : f.payload.length = 4
    · simp only [hln]
      exact .granted hph hfr hk hln
    · simp only [hln, ne_eq]
      exact .rejected hph hfr (.inr (.inl ⟨hk, hln⟩))
  | fin => exact .closed hph hfr (.inl hk)
  | rst => exact .closed hph hfr (.inr hk)
  | ping =>
    by_cases hln : f.payload.length = 8
    · by_cases hnn : UInt64.ofNat (decodeBE f.payload) ∈ S.pendingPings
      · simp only [pendingPings_takeFrame, hln, hnn]
        exact .ponged hph hfr hk hln
      obtain ⟨pending, hpe, hec⟩ := run_enqueueControl hemp .ping 0 f.payload
      simp only [pendingPings_takeFrame, hln, hnn, ne_eq, not_true_eq_false, if_false,
        run_bind, hec]
      exact .pinged hph hfr hk hln hpe
    · simp only [hln, ne_eq]
      exact .rejected hph hfr (.inr (.inr (.inl ⟨hk, hln⟩)))
  | goaway => exact .goneAway hph hfr hk
  | unknown kind h => exact .rejected hph hfr (.inr (.inr (.inr ⟨kind, h, hk⟩)))

end Frame

theorem step_flush (hs : S.Sane) (h : S.flush = some S') : Step S .flush S' := by
  unfold flush at h
  cases hph : S.phase with
  | flushing =>
    rw [hph] at h
    cases h
    unfold flushNext
    cases hli : S.pending.toList with
    | nil =>
      obtain ⟨hno, hpe⟩ := PendingFrames.popNext_of_empty hli
      generalize S.pending.popNext = popped at hno hpe
      obtain ⟨first, pending⟩ := popped
      subst hno
      by_cases hst : S.shouldStop = true
      · simp only [if_pos hst]
        exact .stopped hph hli hpe hst
      · simp only [if_neg hst]
        exact .entered hph hli hpe
    | cons p rest =>
      have hle := hs.pending_le
      have hrs : rest = [] := by
        rw [hli, List.length_cons] at hle
        exact List.length_eq_zero_iff.mp (by omega)
      subst hrs
      have hsm := hs.pending_small p (by simp [hli])
      obtain ⟨hfi, hpe⟩ := PendingFrames.popNext_of_single hli
      generalize S.pending.popNext = popped at hfi hpe
      obtain ⟨first, pending⟩ := popped
      subst hfi
      simp only [writeFrame, if_neg (Nat.not_lt.mpr hsm)]
      exact .popped hph hli hpe
  | writing rest queuedStream =>
    rw [hph] at h
    cases rest with
    | nil =>
      cases h
      have hsp := Step.written hph
      cases queuedStream <;> exact hsp
    | cons => contradiction
  | _ =>
    rw [hph] at h
    contradiction

theorem step_selectCommand (hs : S.Sane) (hph : S.phase = .selecting since) :
    Step S .select (S.selectCommand since) := by
  unfold selectCommand
  cases hi : S.commands.items with
  | nil => exact .polled hph hi
  | cons c items =>
    obtain ⟨effect, S₁, hr, hsp⟩ := step_command hs hph hi
    simp only
    rw [show (handleCommand c).run { S with commands := { S.commands with items } } = _ from hr]
    exact hsp

theorem step_selectFrame (hs : S.Sane) (hph : S.phase = .polled since) :
    Step S .select (S.selectFrame since) := by
  unfold selectFrame
  cases hfr : S.frames.items with
  | nil =>
    by_cases hil : S.streams.entries.isEmpty ∧ S.drainingSince = none ∧
        since + S.config.sessionIdleTimeout ≤ S.clock
    · obtain ⟨pending, hpe, hr⟩ := run_enqueueControl (hs.pending_nil (by simp [hph])) .goaway 0 []
      rw [if_pos hil, hr]
      exact .idled hph hfr (by simpa using hil.1) hpe
    · rw [if_neg hil]
      by_cases hd : S.drainingSince.isSome ∧ since + S.config.drainTimeout ≤ S.clock
      · rw [if_pos hd]
        exact .expired hph hfr hd.1
      · rw [if_neg hd]
        exact .repolled hph hfr
  | cons result =>
    match result with
    | .ok (some f) => exact step_frame hs hph hfr
    | .ok none => exact .readerEnded hph hfr
    | .error err => exact .readerFailed hph hfr

theorem step_select (hs : S.Sane) (h : S.select = some S') : Step S .select S' := by
  unfold select at h
  cases hph : S.phase with
  | selecting =>
    rw [hph] at h
    cases h
    exact step_selectCommand hs hph
  | polled =>
    rw [hph] at h
    cases h
    exact step_selectFrame hs hph
  | _ =>
    rw [hph] at h
    contradiction

theorem step_resume (h : S.resume = some S') : Step S .resume S' := by
  unfold resume at h
  cases hph : S.phase with
  | accepting =>
    rw [hph] at h
    simp only [sendAccept] at h
    by_cases hg : S.accepts.live = false
    · rw [if_pos hg] at h
      cases h
      exact .acceptFailed hph hg
    · rw [if_neg hg, map_eq_some_iff] at h
      obtain ⟨accepts, hse, rfl⟩ := h
      obtain ⟨hro, rfl⟩ := Channel.trySend_eq_some hse
      exact .acceptSent hph hro
  | delivering r =>
    rw [hph] at h
    simp only [sendPayload] at h
    cases hge : S.handles[r]? with
    | none => simp [hge] at h
    | some st =>
      simp only [hge] at h
      by_cases hg : st.rx.live = false
      · rw [if_pos hg] at h
        cases h
        exact .deliveryFailed hph hge hg
      · rw [if_neg hg, map_eq_some_iff] at h
        obtain ⟨rx, hse, rfl⟩ := h
        obtain ⟨hro, rfl⟩ := Channel.trySend_eq_some hse
        exact .delivered hph hge hro
  | reporting =>
    rw [hph] at h
    simp only [sendError] at h
    by_cases hg : S.accepts.live = false
    · rw [if_pos hg] at h
      cases h
      exact .reported hph (.inl ⟨hg, rfl⟩)
    · rw [if_neg hg, map_eq_some_iff] at h
      obtain ⟨accepts, hse, rfl⟩ := h
      obtain ⟨hro, rfl⟩ := Channel.trySend_eq_some hse
      exact .reported hph (.inr ⟨hro, rfl⟩)
  | _ =>
    rw [hph] at h
    contradiction

theorem step_abort (h : S.abort = some S') : Step S .abort S' := by
  unfold abort at h
  by_cases hl : S.accepts.live
  · simp [hl] at h
  have hg : S.accepts.live = false := by simpa using hl
  simp only [hl, Bool.false_eq_true, if_false] at h
  cases hph : S.phase with
  | accepting =>
    simp only [hph, Option.some.injEq] at h
    subst h
    exact .acceptAborted hg hph
  | writing | selecting | delivering | reporting =>
    simp only [hph, Option.some.injEq] at h
    subst h
    exact .aborted hg (by simp [Running, hph]) (by simp [hph]) (by simp [hph])
  | _ => simp [hph] at h

theorem step_onHandle (he : e.call? = some (r, op)) (h : (S.onHandle r call).map Prod.snd = some S')
    (hca : ∀ st, S.handles[r]? = some st → st.holder = .application →
      ∀ a st' tx, call st S.commands = (a, st', tx) →
        st.Call (S.senders r st) S.commands op st' tx) : Step S e S' := by
  unfold onHandle at h
  cases hge : S.handles[r]? with
  | none => simp [hge] at h
  | some st =>
    by_cases ha : st.holder = .application
    · simp only [hge, ha, if_true, map_some, Option.some.injEq] at h
      subst h
      exact .called he hge ha (hca st hge ha _ _ _ rfl)
    · simp [hge, ha] at h

/-- **Inversion**: a step of a sane session is one of the transitions. -/
theorem step_cases (hs : S.Sane) (h : S.step e = some S') : Step S e S' := by
  cases e with
  | tick ms =>
    cases h
    exact .tick ms
  | openStream | pingRtt | goaway =>
    simp only [step, map_eq_some_iff] at h
    obtain ⟨commands, hse, rfl⟩ := h
    obtain ⟨hro, rfl⟩ := Channel.trySend_eq_some hse
    exact .asked rfl hro
  | accept =>
    simp only [step, accept] at h
    split at h
    · rename_i r items hl hi
      cases h
      exact .accepted hl hi
    · rename_i err items hl hi
      cases h
      exact .errorAccepted hl hi
    · contradiction
  | dropSession =>
    simp only [step] at h
    split at h
    · cases h
      exact .sessionDropped ‹_›
    · contradiction
  | write =>
    exact step_onHandle rfl h fun st _ _ a st' tx hca =>
      NativeStream.call_pollWrite (by rw [hca])
  | read r =>
    exact step_onHandle rfl h fun st hge _ a st' tx hca =>
      NativeStream.call_pollRead (hs.tidy r st hge) hca
  | shutdown =>
    exact step_onHandle rfl h fun st _ _ a st' tx hca => NativeStream.call_pollShutdown hca
  | drop r =>
    simp only [step] at h
    cases hge : S.handles[r]? with
    | none => simp [hge] at h
    | some st =>
      by_cases ha : st.holder = .application
      · simp only [hge, ha, if_true, Option.some.injEq] at h
        subst h
        simp only [dropHandles, dropOne, List.foldl_cons, hge]
        exact .called rfl hge ha (NativeStream.call_drop _ st S.commands)
      · simp [hge, ha] at h
  | flush => exact step_flush hs h
  | transmit =>
    simp only [step] at h
    split at h
    · rename_i rest queuedStream hph
      split at h
      · cases h
        exact .transmitted hph ‹_›
      · contradiction
    · contradiction
  | writeError =>
    simp only [step] at h
    split at h
    · cases h
      exact .writeFailed ‹_›
    · contradiction
  | select => exact step_select hs h
  | resume => exact step_resume h
  | abort => exact step_abort h
  | arrive =>
    simp only [step, arrive] at h
    split at h
    · contradiction
    rename_i hdo
    simp only [map_eq_some_iff] at h
    obtain ⟨frames, hse, rfl⟩ := h
    obtain ⟨hro, rfl⟩ := Channel.trySend_eq_some hse
    simp only [not_or, not_not] at hdo
    exact .arrived (by simpa using hdo.1) hro hdo.2

end Session

end Espejismo.Mux
