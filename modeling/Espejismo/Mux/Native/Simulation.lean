import Espejismo.Mux.Native.Endpoint

/-!
# Mux.Native.Simulation

A step of a session is, for each of its streams, a call on the handle or a few
moves of the endpoint (`endpoint_step`), and nothing at all for the streams it
does not concern.
-/

namespace Espejismo.Mux

open Binary Relation List

namespace Session

variable {S S' : Session} {e : Session.Event} {s : UInt32} {v : Endpoint}
  {may : FrameKind → Endpoint → Prop} {c : Command} {tx : Channel Command} {I : Endpoint → Prop}
  {f : Frame}

/-! ## Reading off the endpoint -/

theorem endpoint_eq (hst : S'.streamOf s = v.stream)
    (hat : decide (s ∈ S'.streams) = v.attached)
    (hco : commandsOf s S'.commands.items = v.commands)
    (hse : framesOf s S'.outgoing = v.sent) (hh : framesOf s S'.handled = v.handled)
    (har : S'.arrivingOf s = v.arriving) (hsta : S'.status = v.status) :
    S'.endpoint s = v := by
  simp [endpoint, hst, hat, hco, hse, hh, har, hsta]

theorem arrivingOf_eq_none (h : ∀ r payload, S.phase ≠ .delivering r payload) :
    S.arrivingOf s = none := by
  unfold arrivingOf
  split
  · exact absurd ‹_› (h _ _)
  · rfl

theorem arrivingOf_update (h : Updates S S' g)
    (hph : S'.phase = S.phase) : S'.arrivingOf s = S.arrivingOf s := by
  simp [arrivingOf, hph, h.idOf]

@[simp] theorem commandsOf_nil : commandsOf s [] = [] := rfl

theorem commandsOf_append (items sent : List Command) :
    commandsOf s (items ++ sent) = commandsOf s items ++ commandsOf s sent :=
  filter_append ..

theorem commandsOf_cons_self (h : c.streamId? = some s) (items : List Command) :
    commandsOf s (c :: items) = c :: commandsOf s items :=
  filter_cons_of_pos (by simpa using h)

theorem commandsOf_cons_ne (h : c.streamId? ≠ some s) (items : List Command) :
    commandsOf s (c :: items) = commandsOf s items :=
  filter_cons_of_neg (by simpa using h)

theorem framesOf_append (fs gs : List Frame) :
    framesOf s (fs ++ gs) = framesOf s fs ++ framesOf s gs :=
  filter_append ..

theorem framesOf_single (f : Frame) : framesOf s [f] = if f.streamId = s then [f] else [] := by
  by_cases h : f.streamId = s
  · simp [framesOf, h]
  · simp [framesOf, h]

theorem commandsOf_appends {id : UInt32} (h : NativeStream.Appends id tx tx') (hid : id ≠ s) :
    commandsOf s tx'.items = commandsOf s tx.items := by
  obtain ⟨sent, rfl, hse⟩ := h
  have hn : commandsOf s sent = [] := by
    refine filter_eq_nil_iff.mpr fun c hc => ?_
    simp [(hse c hc).1, hid]
  simp [commandsOf_append, hn]

/-! ## Steps that concern other streams -/

theorem endpoint_same (hst : S'.streamOf s = S.streamOf s) (hsr : S'.streams = S.streams)
    (hco : commandsOf s S'.commands.items = commandsOf s S.commands.items)
    (hou : framesOf s S'.outgoing = framesOf s S.outgoing)
    (hh : framesOf s S'.handled = framesOf s S.handled)
    (har : S'.arrivingOf s = S.arrivingOf s) (hsta : S'.status = S.status) :
    S'.endpoint s = S.endpoint s :=
  endpoint_eq hst (by rw [hsr]; rfl) hco hou hh har hsta

def Seen (may : FrameKind → Endpoint → Prop) (S : Session) (e : Event) (s : UInt32)
    (v : Endpoint) : Prop :=
  (∃ r op st, e.call? = some (r, op) ∧ S.handles[r]? = some st ∧ st.id = s ∧
    st.holder = .application ∧ Endpoint.Called s S.commands op (S.endpoint s) v) ∨
  ReflTransGen (Endpoint.Move may S.config s) (S.endpoint s) v

theorem Seen.same (h : v = S.endpoint s) : Seen may S e s v := .inr (h ▸ .refl)

theorem Seen.move (h : Endpoint.Move may S.config s (S.endpoint s) v) : Seen may S e s v :=
  .inr (.single h)

theorem handled_isPrefix {config : NativeMuxConfig}
    (h : Endpoint.Move may config s v v') : v.handled <+: v'.handled := by
  cases h with
  | refused | admitted | dataTaken | granted | closed | noted => exact prefix_append ..
  | dropped h =>
    cases h
    exact prefix_refl _
  | _ => exact prefix_refl _

/-- **Endpoint rule**: what calls and moves keep of a stream, a step keeps.  `Q` is
what is known of the frames handled; it holds of fewer frames as well. -/
theorem Seen.keeps_of {Q : List Frame → Prop} (hQ : ∀ fs gs, fs <+: gs → Q gs → Q fs)
    (h : Seen may S e s v)
    (hca : ∀ r op st, e.call? = some (r, op) → S.handles[r]? = some st → st.id = s →
      Endpoint.Called s S.commands op (S.endpoint s) v → I v)
    (hmo : ∀ v v', I v → Q v'.handled → Endpoint.Move may S.config s v v' → I v')
    (hI : I (S.endpoint s)) (hen : Q v.handled) : I v := by
  rcases h with ⟨r, op, st, he, hge, hid, -, hcl⟩ | hmv
  · exact hca r op st he hge hid hcl
  clear hca
  induction hmv with
  | refl => exact hI
  | tail _ hla ih =>
    exact hmo _ _ (ih (hQ _ _ (handled_isPrefix hla) hen)) hen hla

theorem Seen.keeps (h : Seen may S e s v)
    (hca : ∀ tx op v v', I v → Endpoint.Called s tx op v v' → I v')
    (hmo : ∀ v v', I v → Endpoint.Move may S.config s v v' → I v') (hI : I (S.endpoint s)) :
    I v :=
  h.keeps_of (Q := fun _ => True) (fun _ _ _ _ => trivial)
    (fun _ _ _ _ _ _ hcl => hca _ _ _ _ hI hcl) (fun _ _ hv _ hm => hmo _ _ hv hm) hI
    trivial

variable {r : Ref} {st : NativeStream} {T : Session} {payload : List UInt8}

theorem endpoint_call (hd : S.Distinct)
    (hge : S.handles[r]? = some st) (hcl : st.Call (S.senders r st) S.commands op st' tx)
    (hT : T = { S with handles := S.handles.set r st', commands := tx }) :
    (st.id = s ∧ Endpoint.Called s S.commands op (S.endpoint s) (T.endpoint s)) ∨
      T.endpoint s = S.endpoint s := by
  have hha : T.handles = S.handles.set r st' := by rw [hT]
  have hst := streamOf_set hd hge hcl.id_eq hha s
  have hu := Updates.of_set hge hcl.id_eq hha
  subst hT
  by_cases hs : st.id = s
  · left
    have hsn : S.senders r st = (S.endpoint s).attached := by
      simp [senders, endpoint, ← hs, hd.lookup_eq_iff hge]
    have hold : (S.endpoint s).stream = some st := by
      rw [← hs]
      exact hd.streamOf_eq hge
    rw [hsn] at hcl
    refine ⟨hs, ?_⟩
    have heq : { S with handles := S.handles.set r st', commands := tx }.endpoint s =
        { S.endpoint s with stream := some st', commands := commandsOf s tx.items } := by
      refine endpoint_eq ?_ rfl rfl rfl rfl (arrivingOf_update hu rfl) rfl
      rw [hst, if_pos hs]
    rw [heq]
    exact .mk hold hs rfl hcl
  · right
    refine endpoint_same ?_ rfl ?_ rfl rfl (arrivingOf_update hu rfl) rfl
    · rw [hst, if_neg hs]
    · exact commandsOf_appends hcl.appends hs

theorem endpoint_dropHandles (hd : S.Distinct) (refs : List Ref) :
    ReflTransGen (Endpoint.Move may S.config s) (S.endpoint s)
      ((S.dropHandles refs).endpoint s) := by
  induction refs generalizing S with
  | nil => exact .refl
  | cons r refs ih =>
    have hhe : ReflTransGen (Endpoint.Move may S.config s) (S.endpoint s)
        ((S.dropHandles [r]).endpoint s) := by
      cases hge : S.handles[r]? with
      | none =>
        have hsa : S.dropHandles [r] = S := by simp [dropHandles, dropOne, hge]
        rw [hsa]
      | some st =>
        have hdp : S.dropHandles [r] = { S with
            handles := S.handles.set r (st.drop S.commands).1
            commands := (st.drop S.commands).2 } := by
          simp [dropHandles, dropOne, hge]
        rcases endpoint_call hd hge (NativeStream.call_drop _ st S.commands) hdp with
          ⟨-, hca⟩ | hsa
        · exact .single (.dropped hca)
        · rw [hsa]
    obtain ⟨g, hg⟩ := updates_dropHandles S [r]
    have hd' : (S.dropHandles [r]).Distinct :=
      hd.update hg (.inl rfl) (fun _ _ h => h) fun _ _ h => hd.delivering _ _ h
    exact hhe.trans (ih hd')

/-! ## Steps of the task -/

/-- The task between two awaits: it runs and delivers nothing. -/
structure Idle (S : Session) : Prop where
  running : S.status = .running
  quiet : ∀ r payload, S.phase ≠ .delivering r payload

theorem status_eq_running (h : S.phase ≠ .ended ∧ S.phase ≠ .aborted) : S.status = .running := by
  unfold status
  cases hph : S.phase <;> simp_all

theorem Idle.of_phase {phase : Phase} (h : S.phase = phase)
    (hr : phase ≠ .ended ∧ phase ≠ .aborted)
    (hqu : ∀ r payload, phase ≠ .delivering r payload) :
    S.Idle := ⟨status_eq_running (h ▸ hr), h ▸ hqu⟩

theorem idle_flushing (h : S.phase = .flushing) : S.Idle := .of_phase h (by simp) (by simp)

theorem endpoint_idle (hS : S.Idle) (hS' : S'.Idle) (hst : S'.streamOf s = v.stream)
    (hat : decide (s ∈ S'.streams) = v.attached)
    (hco : commandsOf s S'.commands.items = v.commands)
    (hse : framesOf s S'.outgoing = v.sent) (hh : framesOf s S'.handled = v.handled)
    (har : v.arriving = (S.endpoint s).arriving)
    (hsta : v.status = (S.endpoint s).status) : S'.endpoint s = v := by
  refine endpoint_eq hst hat hco hse hh ?_ ?_
  · rw [har, arrivingOf_eq_none hS'.quiet]
    exact (arrivingOf_eq_none hS.quiet).symm
  · rw [hsta, hS'.running]
    exact hS.running.symm

theorem framesOf_other (h : f.streamId ≠ s) (fs : List Frame) :
    framesOf s (fs ++ [f]) = framesOf s fs := by
  rw [framesOf_append, framesOf_single, if_neg h, append_nil]

theorem framesOf_own (h : f.streamId = s) (fs : List Frame) :
    framesOf s (fs ++ [f]) = framesOf s fs ++ [f] := by
  rw [framesOf_append, framesOf_single, if_pos h]

section Queue

variable {T : Session} {pending : PendingFrames} {p : PendingFrame} {effect : Effect}
  (hemp : S.pending.toList = []) (hpe : pending.toList = [p])
  (ht : T.transmitted = S.transmitted)

include hemp hpe ht

theorem outgoing_queue : (T.queue pending effect).outgoing = S.outgoing ++ [p.frame] := by
  simp [outgoing, queue, ht, hpe, hemp]

theorem sent_queue_own (hp : p.frame.streamId = s) :
    framesOf s (T.queue pending effect).outgoing = (S.endpoint s).sent ++ [p.frame] := by
  rw [outgoing_queue hemp hpe ht, framesOf_own hp]
  rfl

theorem sent_queue_other (hp : p.frame.streamId ≠ s) :
    framesOf s (T.queue pending effect).outgoing = framesOf s S.outgoing := by
  rw [outgoing_queue hemp hpe ht, framesOf_other hp]

end Queue

theorem idle_queue (S : Session) (pending : PendingFrames) (effect : Effect) :
    (S.queue pending effect).Idle := idle_flushing rfl

/-! ## Commands -/

section Command

variable {since : Nat} {c : Command} {items : List Command} {pending : PendingFrames}

theorem seen_other (hS : S.Idle) (hS' : S'.Idle) (him : S.commands.items = c :: items)
    (hc : c.streamId? ≠ some s) (hco : S'.commands.items = items)
    (hst : S'.streamOf s = S.streamOf s) (hme : s ∈ S'.streams ↔ s ∈ S.streams)
    (ho : framesOf s S'.outgoing = framesOf s S.outgoing) (hh : S'.handled = S.handled) :
    Seen may S e s (S'.endpoint s) := by
  refine .same (endpoint_idle hS hS' hst ?_ ?_ ho (by rw [hh]; rfl) rfl rfl)
  · simp [hme, endpoint]
  · rw [hco, endpoint, him, commandsOf_cons_ne hc]

theorem commands_own (him : S.commands.items = c :: items) (hc : c.streamId? = some s) :
    (S.endpoint s).commands = c :: commandsOf s items := by
  rw [endpoint, him, commandsOf_cons_self hc]

theorem seen_own (hS : S.Idle) (hS' : S'.Idle) (hco : S'.commands.items = items)
    (hha : S'.handles = S.handles) (hh : S'.handled = S.handled)
    (hatt : decide (s ∈ S'.streams) = attached) (ho : framesOf s S'.outgoing = sent)
    (hmo : Endpoint.Move may S.config s (S.endpoint s)
      { S.endpoint s with attached, commands := commandsOf s items, sent }) :
    Seen may S e s (S'.endpoint s) := by
  have hst : S'.streamOf s = S.streamOf s := by rw [streamOf, hha, streamOf]
  have heq : S'.endpoint s =
      { S.endpoint s with attached, commands := commandsOf s items, sent } :=
    endpoint_idle hS hS' hst hatt (by rw [hco]) ho (by rw [hh]; rfl) rfl rfl
  rw [heq]
  exact .move hmo

variable {f : Frame} {streamId : UInt32} {priority : StreamPriority}

theorem controlFrame_cases (hf : controlFrame c = some f) :
    c.streamId? = some f.streamId ∨
      (c.streamId? = none ∧ f.streamId = 0 ∧ (f.kind = .ping ∨ f.kind = .goaway)) := by
  cases c <;> cases hf <;> simp [Command.streamId?]

theorem moves_announced (hid : f.streamId = 0) (hk : f.kind = .ping ∨ f.kind = .goaway)
    (hv : v.sent = framesOf s out) :
    ReflTransGen (Endpoint.Move may S.config s) v { v with sent := framesOf s (out ++ [f]) } := by
  by_cases hs : s = 0
  · rw [framesOf_own (hid.trans hs.symm), ← hv]
    exact .single (.announced hs hk)
  · rw [framesOf_other (by rw [hid]; exact Ne.symm hs), ← hv]

theorem seen_announced (hS : S.Idle) (hS' : S'.Idle)
    (hmv : ReflTransGen (Endpoint.Move may S.config s) (S.endpoint s)
      { S.endpoint s with handled := framesOf s S'.handled }) (hha : S'.handles = S.handles)
    (hsr : S'.streams = S.streams)
    (hco : commandsOf s S'.commands.items = commandsOf s S.commands.items)
    (ho : S'.outgoing = S.outgoing ++ [f]) (hid : f.streamId = 0)
    (hk : f.kind = .ping ∨ f.kind = .goaway) : Seen may S e s (S'.endpoint s) := by
  have heq : S'.endpoint s = { S.endpoint s with
      handled := framesOf s S'.handled, sent := framesOf s (S.outgoing ++ [f]) } := by
    refine endpoint_idle hS hS' ?_ (by rw [hsr]; rfl) hco (by rw [ho]) rfl rfl rfl
    rw [streamOf, hha]
    rfl
  rw [heq]
  exact .inr (hmv.trans (moves_announced hid hk rfl))

theorem streamOf_insert (st : NativeStream) (hne : S.streamOf st.id = none)
    (h : S'.handles = S.handles ++ [st]) (s : UInt32) :
    S'.streamOf s = if st.id = s then some st else S.streamOf s := by
  rw [streamOf, h, Keyed.get_concat hne]
  rfl

variable (hs : S.Sane) (hph : S.phase = .selecting since) (him : S.commands.items = c :: items)

include hph

theorem idle_selecting : S.Idle := .of_phase hph (by simp) (by simp)

include him

theorem seen_openFailed (hc : c.streamId? = none) (next : Nat) (reply : Error) (effect : Effect) :
    Seen may S e s ((({ S.takeCommand items with nextStreamId := next }.sendReply
      (.error reply)).queue S.pending effect).endpoint s) :=
  seen_other (idle_selecting hph) (idle_queue ..) him (by simp [hc]) rfl rfl .rfl rfl rfl

theorem seen_dataDiscarded (hc : c = .data streamId priority payload)
    (hme : streamId ∉ S.streams) :
    Seen may S e s (((S.takeCommand items).queue S.pending .continue).endpoint s) := by
  subst hc
  have hil := idle_selecting hph
  by_cases hss : streamId = s
  · subst hss
    exact seen_own hil (idle_queue ..) rfl rfl rfl rfl rfl
      (.dataDiscarded (commands_own him rfl) (by simp [endpoint, hme]))
  · exact seen_other hil (idle_queue ..) him (by simp [Command.streamId?, hss]) rfl rfl .rfl rfl rfl

include hs

theorem seen_opened (hd : S.Distinct) (hc : c.streamId? = none)
    (hma : streamId = s → may .open (S.endpoint s)) (hid : streamId.toNat = S.nextStreamId)
    (hpe : pending.toList = [control ⟨.open, streamId, [priority.toByte]⟩])
    (hT : T = ({ S.takeCommand items with nextStreamId := S.nextStreamId + 2 }.insertStream
      (newStream S.config streamId priority .application)).sendReply (.ok S.handles.length)) :
    Seen may S e s ((T.queue pending .continue).endpoint s) := by
  have hil := idle_selecting hph
  have hemp := hs.pending_nil (by simp [hph])
  have hn := hd.streamOf_next hid
  have hst : (T.queue pending .continue).streamOf s =
      if streamId = s then some (newStream S.config streamId priority .application)
      else S.streamOf s :=
    streamOf_insert (newStream S.config streamId priority .application) hn (by rw [hT]; rfl) s
  have hsr : (T.queue pending .continue).streams = S.streams.insert streamId S.handles.length := by
    rw [hT]
    rfl
  subst hT
  by_cases hss : streamId = s
  · subst hss
    have hco : commandsOf streamId items = (S.endpoint streamId).commands := by
      rw [endpoint, him, commandsOf_cons_ne (by simp [hc])]
    rw [if_pos rfl] at hst
    rw [endpoint_idle hil (idle_queue ..) hst (v := { S.endpoint streamId with
        stream := some (newStream S.config streamId priority .application), attached := true
        sent := (S.endpoint streamId).sent ++ [⟨.open, streamId, [priority.toByte]⟩] })
      (by simp [hsr]) hco (sent_queue_own hemp hpe rfl rfl) rfl rfl rfl]
    exact .move (.opened priority (hma rfl) hn hil.running)
  · have hss' : s ≠ streamId := fun h => hss h.symm
    rw [if_neg hss] at hst
    exact seen_other hil (idle_queue ..) him (by simp [hc]) rfl hst
      (by simp [hsr, hss']) (sent_queue_other hemp hpe rfl hss) rfl

theorem seen_controlSent (hf : controlFrame c = some f) (hpe : pending.toList = [control f])
    (pings : List UInt64) (effect : Effect) :
    Seen may S e s
      (({ S.takeCommand items with pendingPings := pings }.queue pending effect).endpoint s) := by
  have hil := idle_selecting hph
  have hemp := hs.pending_nil (by simp [hph])
  rcases controlFrame_cases hf with hc | ⟨hc, hid, hk⟩
  · by_cases hss : f.streamId = s
    · subst hss
      exact seen_own hil (idle_queue ..) rfl rfl rfl rfl
        (sent_queue_own hemp hpe rfl rfl)
        (.controlSent (commands_own him hc) hc hf hil.running)
    · exact seen_other hil (idle_queue ..) him (by rw [hc]; simpa using hss) rfl rfl .rfl
        (sent_queue_other hemp hpe rfl hss) rfl
  · refine seen_announced hil (idle_queue ..) .refl rfl rfl ?_
      (outgoing_queue hemp hpe rfl) hid hk
    rw [him, commandsOf_cons_ne (by simp [hc])]
    rfl

theorem seen_dataSent (hc : c = .data streamId priority payload) (hme : streamId ∈ S.streams)
    (hpe : pending.toList = [⟨⟨.data, streamId, payload⟩, some streamId⟩]) :
    Seen may S e s (((S.takeCommand items).queue pending .continue).endpoint s) := by
  subst hc
  have hil := idle_selecting hph
  have hemp := hs.pending_nil (by simp [hph])
  by_cases hss : streamId = s
  · subst hss
    exact seen_own hil (idle_queue ..) rfl rfl rfl rfl (sent_queue_own hemp hpe rfl rfl)
      (.dataSent (commands_own him rfl) (by simp [endpoint, hme]))
  · exact seen_other hil (idle_queue ..) him (by simp [Command.streamId?, hss]) rfl rfl .rfl
      (sent_queue_other hemp hpe rfl hss) rfl

theorem seen_resetSent (hc : c = .rst streamId)
    (hpe : pending.toList = [control ⟨.rst, streamId, []⟩]) :
    Seen may S e s (({ S.takeCommand items with streams := S.streams.erase streamId }.queue pending
      .continue).endpoint s) := by
  subst hc
  have hil := idle_selecting hph
  have hemp := hs.pending_nil (by simp [hph])
  by_cases hss : streamId = s
  · subst hss
    exact seen_own hil (idle_queue ..) rfl rfl rfl (by simp [queue])
      (sent_queue_own hemp hpe rfl rfl) (.resetSent (commands_own him rfl))
  · have hss' : s ≠ streamId := fun h => hss h.symm
    refine seen_other hil (idle_queue ..) him (by simp [Command.streamId?, hss]) rfl rfl ?_
      (sent_queue_other hemp hpe rfl hss) rfl
    simp [queue, hss']

end Command

/-! ## Frames -/

section Frames

variable {since : Nat} {f : Frame} {items : List (Except Error (Option Frame))}
  {pending : PendingFrames}

theorem seen_frame_other (hS : S.Idle) (hS' : S'.Idle) (hf : f.streamId ≠ s)
    (hst : S'.streamOf s = S.streamOf s) (hme : s ∈ S'.streams ↔ s ∈ S.streams)
    (hco : S'.commands = S.commands) (ho : framesOf s S'.outgoing = framesOf s S.outgoing)
    (hh : S'.handled = S.handled ++ [f]) : Seen may S e s (S'.endpoint s) := by
  refine .same (endpoint_idle hS hS' hst ?_ (by rw [hco]; rfl) ho ?_ rfl rfl)
  · simp [hme, endpoint]
  · rw [hh, framesOf_other hf]
    rfl

theorem seen_frame_own (hS : S.Idle) (hS' : S'.Idle) (hf : f.streamId = s)
    (hco : S'.commands = S.commands) (hh : S'.handled = S.handled ++ [f])
    (hst : S'.streamOf s = stream) (hatt : decide (s ∈ S'.streams) = attached)
    (ho : framesOf s S'.outgoing = sent) (hmo : Endpoint.Move may S.config s (S.endpoint s)
      { S.endpoint s with
        stream, attached, sent, handled := (S.endpoint s).handled ++ [f] }) :
    Seen may S e s (S'.endpoint s) := by
  have heq : S'.endpoint s = { S.endpoint s with
      stream, attached, sent, handled := (S.endpoint s).handled ++ [f] } := by
    refine endpoint_idle hS hS' hst hatt (by rw [hco]; rfl) ho ?_ rfl rfl
    rw [hh, framesOf_own hf]
    rfl
  rw [heq]
  exact .move hmo

theorem moves_noted (hda : f.kind ≠ .data) (hcs : f.kind ≠ .fin ∧ f.kind ≠ .rst)
    (hwi : f.kind = .windowUpdate → f.payload.length ≠ 4)
    (hon : f.kind = .open → ∃ err, openPriority f.payload = .error err) {handled : List Frame}
    (hv : v.handled = framesOf s handled) :
    ReflTransGen (Endpoint.Move may S.config s) v
      { v with handled := framesOf s (handled ++ [f]) } := by
  by_cases hf : f.streamId = s
  · rw [framesOf_own hf, ← hv]
    exact .single (.noted hf hda hcs hwi hon)
  · rw [framesOf_other hf, ← hv]

theorem seen_noted (hS : S.Idle) (hS' : S'.Idle) (hda : f.kind ≠ .data)
    (hcs : f.kind ≠ .fin ∧ f.kind ≠ .rst)
    (hwi : f.kind = .windowUpdate → f.payload.length ≠ 4)
    (hon : f.kind = .open → ∃ err, openPriority f.payload = .error err)
    (hha : S'.handles = S.handles) (hsr : S'.streams = S.streams)
    (hco : S'.commands = S.commands) (ho : S'.outgoing = S.outgoing)
    (hh : S'.handled = S.handled ++ [f]) : Seen may S e s (S'.endpoint s) := by
  have heq : S'.endpoint s = { S.endpoint s with handled := framesOf s (S.handled ++ [f]) } := by
    refine endpoint_idle hS hS' ?_ (by rw [hsr]; rfl) (by rw [hco]; rfl)
      (by rw [ho]; rfl) (by rw [hh]) rfl rfl
    rw [streamOf, hha]
    rfl
  rw [heq]
  exact .inr (moves_noted hda hcs hwi hon rfl)

variable (hph : S.phase = .polled since)

include hph

theorem idle_polled : S.Idle := .of_phase hph (by simp) (by simp)

theorem seen_refused (hs : S.Sane)
    (hma : f.kind = .open → f.streamId = s → may .open (S.endpoint s))
    (hk : f.kind = .open ∨ (f.kind = .data ∧ f.streamId ∉ S.streams))
    (hpe : pending.toList = [control ⟨.rst, f.streamId, []⟩]) :
    Seen may S e s (((S.takeFrame f items).queue pending .continue).endpoint s) := by
  have hil := idle_polled hph
  have hemp := hs.pending_nil (by simp [hph])
  by_cases hf : f.streamId = s
  · subst hf
    exact seen_frame_own hil (idle_queue ..) rfl rfl rfl rfl rfl
      (sent_queue_own hemp hpe rfl rfl)
      (.refused rfl (hk.imp (fun h => ⟨h, hma h rfl⟩) fun h => ⟨h.1, by simp [endpoint, h.2]⟩)
        hil.running)
  · exact seen_frame_other hil (idle_queue ..) hf rfl .rfl rfl
      (sent_queue_other hemp hpe rfl hf) rfl

variable {T : Session}

theorem seen_admitted (priority : StreamPriority) (hk : f.kind = .open)
    (hma : f.streamId = s → may .open (S.endpoint s)) (hne : S.streamOf f.streamId = none)
    (hT : T = { (S.takeFrame f items).insertStream (newStream S.config f.streamId priority .session)
      with phase := .accepting S.handles.length }) : Seen may S e s (T.endpoint s) := by
  have hil := idle_polled hph
  have hil' : T.Idle := .of_phase (by rw [hT]) (by simp) (by simp)
  have hst : T.streamOf s =
      if f.streamId = s then some (newStream S.config f.streamId priority .session)
      else S.streamOf s :=
    streamOf_insert (newStream S.config f.streamId priority .session) hne (by rw [hT]; rfl) s
  subst hT
  by_cases hf : f.streamId = s
  · rw [if_pos hf] at hst
    subst hf
    exact seen_frame_own hil hil' rfl rfl rfl hst (by simp [insertStream, newStream]) rfl
      (.admitted priority rfl hk (hma rfl) hne hil.running)
  · have hf' : s ≠ f.streamId := fun h => hf h.symm
    rw [if_neg hf] at hst
    exact seen_frame_other hil hil' hf hst (by simp [insertStream, newStream, hf']) rfl rfl rfl

theorem seen_dataTaken (hd : S.Distinct) (hk : f.kind = .data)
    (hme : S.streams.lookup f.streamId = some r) :
    Seen may S e s ({ S.takeFrame f items with phase := .delivering r f.payload }.endpoint s) := by
  have hil := idle_polled hph
  have hid := hd.table _ _ hme
  have ha : { S.takeFrame f items with phase := .delivering r f.payload }.arrivingOf s =
      if f.streamId = s then some f.payload else none := by
    have hid' : ∀ x, (if S.idOf r = some s then x else (none : Option (List UInt8))) =
        if f.streamId = s then x else none := by simp [hid]
    exact hid' _
  have hn : (S.endpoint s).arriving = none := arrivingOf_eq_none hil.quiet
  have hr : (S.endpoint s).status = .running := hil.running
  by_cases hf : f.streamId = s
  · subst hf
    rw [if_pos rfl] at ha
    have hatt : (S.endpoint f.streamId).attached = true := by
      simpa [endpoint] using AList.lookup_isSome.mp (by rw [hme]; rfl)
    have heq : { S.takeFrame f items with phase := .delivering r f.payload }.endpoint f.streamId =
        { S.endpoint f.streamId with
          handled := (S.endpoint f.streamId).handled ++ [f], arriving := some f.payload } :=
      endpoint_eq rfl rfl rfl rfl (framesOf_own rfl _) ha hr.symm
    rw [heq]
    exact .move (.dataTaken rfl hk hatt hn)
  · rw [if_neg hf] at ha
    refine .same (endpoint_eq rfl rfl rfl rfl (framesOf_other hf _) ?_ ?_)
    · rw [ha, hn]
    · rw [hr]
      rfl

theorem seen_granted (hd : S.Distinct) (hk : f.kind = .windowUpdate)
    (hle : f.payload.length = 4)
    (hT : T = { (S.takeFrame f items).modifyFlow f.streamId (·.addWindow (decodeBE f.payload)) with
      phase := .flushing }) : Seen may S e s (T.endpoint s) := by
  have hil := idle_polled hph
  have hil' : T.Idle := idle_flushing (by rw [hT])
  have hst := streamOf_modifyFlow (T := S.takeFrame f items)
    (g := (·.addWindow (decodeBE f.payload))) hd rfl rfl (show T.handles = _ by rw [hT]) s
  subst hT
  by_cases hf : f.streamId = s
  · rw [if_pos hf] at hst
    exact seen_frame_own hil hil' hf rfl rfl hst rfl rfl (.granted hf hk hle)
  · rw [if_neg hf] at hst
    exact seen_frame_other hil hil' hf hst .rfl rfl rfl rfl

theorem seen_closed (hd : S.Distinct) (hk : f.kind = .fin ∨ f.kind = .rst)
    (hma : f.streamId = s → may f.kind (S.endpoint s))
    (hT : T = { (S.takeFrame f items).markStreamClosed f.streamId with
      streams := S.streams.erase f.streamId, phase := .flushing }) :
    Seen may S e s (T.endpoint s) := by
  have hil := idle_polled hph
  have hil' : T.Idle := idle_flushing (by rw [hT])
  have hst := streamOf_modifyFlow hd rfl rfl (show T.handles = _ by rw [hT]; rfl) s
  subst hT
  by_cases hf : f.streamId = s
  · rw [if_pos hf] at hst
    exact seen_frame_own hil hil' hf rfl rfl hst (by simp [hf]) rfl
      (.closed hf hk (hma hf) (arrivingOf_eq_none hil.quiet) hil.running)
  · have hf' : s ≠ f.streamId := fun h => hf h.symm
    rw [if_neg hf] at hst
    exact seen_frame_other hil hil' hf hst (by simp [hf']) rfl rfl rfl

end Frames

/-! ## Awaits and ends -/

theorem arrivingOf_delivering (hph : S.phase = .delivering r payload) :
    S.arrivingOf s = if S.idOf r = some s then some payload else none := by
  simp [arrivingOf, hph]

theorem seen_delivered (hd : S.Distinct) (hph : S.phase = .delivering r payload)
    (hge : S.handles[r]? = some st) (hro : st.rx.HasRoom)
    (hT : T = { S.setHandle r { st with rx := st.rx.push payload } with phase := .flushing }) :
    Seen may S e s (T.endpoint s) := by
  have hil' : T.Idle := idle_flushing (by rw [hT])
  have hid : ({ st with rx := st.rx.push payload } : NativeStream).id = st.id := rfl
  have hst := streamOf_set hd hge hid (show T.handles = _ by rw [hT]; rfl) s
  have ha := arrivingOf_delivering (s := s) hph
  have ha' := arrivingOf_eq_none (s := s) hil'.quiet
  have hr : S.status = .running := status_eq_running (by simp [hph])
  have hr' : T.status = (S.endpoint s).status := hil'.running.trans hr.symm
  simp only [idOf, hge, Option.map_some, Option.some.injEq] at ha
  by_cases hs : st.id = s
  · rw [if_pos hs] at hst ha
    have hold : (S.endpoint s).stream = some st := hs ▸ hd.streamOf_eq hge
    have heq : T.endpoint s = { S.endpoint s with
        stream := some { st with rx := st.rx.push payload }, arriving := none } := by
      refine endpoint_eq hst ?_ ?_ ?_ ?_ ha' hr' <;> rw [hT] <;> rfl
    rw [heq]
    exact .move (.delivered hold ha hro)
  · rw [if_neg hs] at hst ha
    refine .same (endpoint_eq hst ?_ ?_ ?_ ?_ (ha'.trans ha.symm) hr') <;> rw [hT] <;> rfl

theorem seen_deliveryFailed (hd : S.Distinct) (hph : S.phase = .delivering r payload)
    (hge : S.handles[r]? = some st) (hgo : st.rx.live = false) :
    Seen may S e s ({ S with phase := .reporting err }.endpoint s) := by
  have ha := arrivingOf_delivering (s := s) hph
  have hr : S.status = .running := status_eq_running (by simp [hph])
  simp only [idOf, hge, Option.map_some, Option.some.injEq] at ha
  by_cases hs : st.id = s
  · rw [if_pos hs] at ha
    have hold : (S.endpoint s).stream = some st := hs ▸ hd.streamOf_eq hge
    have heq : { S with phase := .reporting err }.endpoint s =
        { S.endpoint s with arriving := none } :=
      endpoint_eq rfl rfl rfl rfl rfl rfl hr.symm
    rw [heq]
    exact .move (.deliveryFailed hold ha hgo)
  · rw [if_neg hs] at ha
    exact .same (endpoint_eq rfl rfl rfl rfl rfl ha.symm hr.symm)

theorem seen_leave (hd : S.Distinct) (hr : S.status = .running) (hha : T.handles = S.handles)
    (hsr : T.streams = S.streams) (ho : framesOf s T.outgoing = framesOf s S.outgoing)
    (hh : T.handled = S.handled) : Seen may S e s (T.leave.endpoint s) := by
  have heq : T.leave.endpoint s = { S.endpoint s with
      stream := (S.endpoint s).touch .close, attached := false, commands := [], arriving := none
      status := .ended } := by
    refine endpoint_eq (streamOf_leave hd hha hsr s) ?_ rfl ho ?_ rfl rfl
    · simp [leave, stop]
    · simp [leave, stop, hh, endpoint]
  rw [heq]
  exact .move (.ended hr)

theorem move_aborted (may : FrameKind → Endpoint → Prop) (S : Session) (s : UInt32) :
    Endpoint.Move may S.config s (S.endpoint s) ((S.stop .aborted).endpoint s) := by
  exact .aborted

theorem seen_accepted (hd : S.Distinct) {accepts : Channel (Except Error Ref)} (hT : T = { S with
      accepts, handles := S.handles.modify r fun st => { st with holder := .application } }) :
    Seen may S e s (T.endpoint s) := by
  have hu := Updates.of_modify (f := fun st => { st with holder := .application }) (fun _ => rfl)
    (show T.handles = S.handles.modify r _ by rw [hT])
  subst hT
  cases hold : S.streamOf s with
  | none =>
    have hn := (hu.streamOf_none hold).trans hold.symm
    exact .same (endpoint_same hn rfl rfl rfl rfl (arrivingOf_update hu rfl) rfl)
  | some st =>
    obtain ⟨i, hge, rfl⟩ := exists_ref hold
    have hst := hu.streamOf_some hd hge
    by_cases hi : i = r
    · rw [if_pos hi] at hst
      refine .move ?_
      rw [endpoint_eq (v := { S.endpoint st.id with
        stream := some { st with holder := .application } }) hst rfl rfl rfl rfl
          (arrivingOf_update hu rfl) rfl]
      exact .given hold
    · rw [if_neg hi] at hst
      exact .same (endpoint_same (hst.trans hold.symm) rfl rfl rfl rfl
        (arrivingOf_update hu rfl) rfl)

theorem seen_released (hd : S.Distinct) (hS : S.Idle) (id : UInt32) :
    Seen may S e s (({ S with phase := .flushing }.releaseSendSlot id).endpoint s) := by
  have hst : ({ S with phase := .flushing }.releaseSendSlot id).streamOf s =
      if id = s then (S.endpoint s).touch .releaseSendSlot else S.streamOf s :=
    streamOf_modifyFlow hd rfl rfl rfl s
  by_cases hs : id = s
  · rw [if_pos hs] at hst
    have heq : ({ S with phase := .flushing }.releaseSendSlot id).endpoint s =
        { S.endpoint s with stream := (S.endpoint s).touch .releaseSendSlot } :=
      endpoint_idle hS (idle_flushing rfl) hst rfl rfl rfl rfl rfl rfl
    rw [heq]
    exact .move .released
  · rw [if_neg hs] at hst
    exact .same (endpoint_idle hS (idle_flushing rfl) hst rfl rfl rfl rfl rfl rfl)

/-! ## Every step -/

theorem seen_quiet (hS : S.Idle) (hS' : S'.Idle) (hha : S'.handles = S.handles)
    (hsr : S'.streams = S.streams) (hco : S'.commands = S.commands)
    (ho : framesOf s S'.outgoing = framesOf s S.outgoing) (hh : S'.handled = S.handled) :
    Seen may S e s (S'.endpoint s) := by
  refine .same (endpoint_idle hS hS' ?_ ?_ ?_ ho ?_ rfl rfl)
  · rw [streamOf, hha]
    rfl
  · rw [hsr]
    rfl
  · rw [hco]
    rfl
  · rw [hh]
    rfl

theorem endpoint_step (hs : S.Sane) (hd : S.Distinct) (hfs : S.AcceptsFresh e)
    (hma : ∀ kind, S.Handling e kind s → may kind (S.endpoint s)) (h : Step S e S') :
    Seen may S e s (S'.endpoint s) := by
  cases h with
  | tick | errorAccepted | arrived => exact .same rfl
  | asked hc =>
    rename_i c _
    have hn : c.streamId? ≠ some s := by
      cases e <;> cases hc <;> simp [Command.streamId?]
    refine .same (endpoint_same rfl rfl ?_ rfl rfl rfl rfl)
    rw [Channel.items_push, commandsOf_append, commandsOf_cons_ne hn, commandsOf_nil, append_nil]
  | accepted => exact seen_accepted hd rfl
  | sessionDropped => exact .inr (endpoint_dropHandles hd _)
  | called he hge hap hcl =>
    rcases endpoint_call hd hge hcl rfl with ⟨hid, hca⟩ | hsa
    · exact .inl ⟨_, _, _, he, hge, hid, hap, hca⟩
    · exact .same hsa
  | popped hph hp hpe | entered hph hp hpe =>
    refine seen_quiet (idle_flushing hph) (.of_phase rfl (by simp) (by simp)) rfl rfl rfl ?_ rfl
    simp [outgoing, hp, hpe]
  | stopped hph hp hpe =>
    refine seen_leave hd (status_eq_running (by simp [hph])) rfl rfl ?_ rfl
    simp [outgoing, hp, hpe]
  | written hph =>
    rename_i queuedStream
    have hil : S.Idle := .of_phase hph (by simp) (by simp)
    cases queuedStream with
    | none => exact seen_quiet hil (idle_flushing rfl) rfl rfl rfl rfl rfl
    | some id => exact seen_released hd hil id
  | transmitted hph =>
    exact seen_quiet (.of_phase hph (by simp) (by simp)) (.of_phase rfl (by simp) (by simp))
      rfl rfl rfl rfl rfl
  | writeFailed hph | expired hph | readerEnded hph | reported hph =>
    exact seen_leave hd (status_eq_running (by simp [hph])) rfl rfl rfl rfl
  | polled hph =>
    exact seen_quiet (idle_selecting hph) (.of_phase rfl (by simp) (by simp)) rfl rfl rfl rfl rfl
  | idled hph _ _ hpe =>
    have hemp := hs.pending_nil (by simp [hph])
    exact seen_announced (idle_polled hph) (idle_queue ..) .refl rfl rfl rfl
      (outgoing_queue hemp hpe rfl) rfl (.inr rfl)
  | repolled hph | readerFailed hph =>
    exact seen_quiet (idle_polled hph) (.of_phase rfl (by simp) (by simp)) rfl rfl rfl rfl rfl
  | openFailed hph him => exact seen_openFailed hph him rfl _ _ _
  | opened hph him _ hid _ hpe =>
    exact seen_opened hs hph him hd rfl
      (fun h => hma _ ⟨rfl, .inl ⟨rfl, _, _, _, hph, him, h ▸ hid⟩⟩) hid hpe rfl
  | dataSent hph him hme hpe => exact seen_dataSent hs hph him rfl hme hpe
  | dataDiscarded hph him hme => exact seen_dataDiscarded hph him rfl hme
  | controlSent hph him hf hpe =>
    exact seen_controlSent hs hph him hf hpe _ _
  | resetSent hph him hpe => exact seen_resetSent hs hph him rfl hpe
  | refused hph hfr hk hpe =>
    exact seen_refused hph hs
      (fun hon hid => hma _ ⟨rfl, .inr ⟨_, _, _, hph, hfr, hon, hid⟩⟩)
      (hk.imp_left And.left) hpe
  | admitted hph hfr hk hdr hfu =>
    exact seen_admitted hph _ hk
      (fun hid => hma _ ⟨rfl, .inr ⟨_, _, _, hph, hfr, hk, hid⟩⟩)
      (hfs _ _ _ rfl hph hfr hk hdr hfu).2 rfl
  | dataTaken hph _ hk hme => exact seen_dataTaken hph hd hk hme
  | granted hph _ hk hle => exact seen_granted hph hd hk hle rfl
  | closed hph hfr hk =>
    exact seen_closed hph hd hk (fun hid => hma _ ⟨rfl, .inr ⟨_, _, _, hph, hfr, rfl, hid⟩⟩) rfl
  | pinged hph _ hk _ hpe =>
    have hemp := hs.pending_nil (by simp [hph])
    exact seen_announced (idle_polled hph) (idle_queue ..)
      (moves_noted (by simp [hk]) (by simp [hk]) (by simp [hk]) (by simp [hk]) rfl) rfl rfl rfl
      (outgoing_queue hemp hpe rfl) rfl (.inl rfl)
  | ponged hph _ hk | goneAway hph _ hk =>
    exact seen_noted (idle_polled hph) (idle_queue ..) (by simp [hk]) (by simp [hk])
      (by simp [hk]) (by simp [hk]) rfl rfl rfl rfl rfl
  | rejected hph =>
    refine seen_noted (idle_polled hph) (.of_phase rfl (by simp) (by simp)) ?_ ?_ ?_ ?_ rfl rfl
      rfl rfl rfl
    all_goals grind
  | acceptSent hph =>
    exact seen_quiet (.of_phase hph (by simp) (by simp)) (idle_flushing rfl) rfl rfl rfl rfl rfl
  | acceptFailed hph =>
    rename_i r err _
    refine .inr ?_
    have hsa : { S.dropHandles [r] with phase := .reporting err }.endpoint s =
        (S.dropHandles [r]).endpoint s :=
      endpoint_idle (S := S.dropHandles [r]) (.of_phase hph (by simp) (by simp))
        (.of_phase rfl (by simp) (by simp)) rfl rfl rfl rfl rfl rfl rfl
    rw [hsa]
    exact endpoint_dropHandles hd _
  | delivered hph hge hro => exact seen_delivered hd hph hge hro rfl
  | deliveryFailed hph hge hgo => exact seen_deliveryFailed hd hph hge hgo
  | aborted => exact .move (move_aborted may S s)
  | acceptAborted =>
    rename_i r _ _
    exact .inr ((endpoint_dropHandles hd [r]).tail (move_aborted may (S.dropHandles [r]) s))

end Session

end Espejismo.Mux
