import Espejismo.Mux.Native.Pair.Delivery

/-!
# Mux.Native.Pair.Signal

Every handle that was closed has told the peer.  `poll_shutdown` and the drop of
a handle put a FIN or a RST into the command channel and ignore whether it was
taken.  As long as the channel has a place for it (`RoomToClose`), the FIN or
RST is queued, pending or written (`Signalled`), and a table entry whose handle
is gone waits for a frame that will remove it.
-/

namespace Espejismo.Mux

open Binary Relation List Option

namespace Session

variable {S S' : Session} {e : Session.Event} {s : UInt32} {st : NativeStream} {r' : Ref}

/-- A FIN or RST of the stream is queued as a command, pending or written. -/
def Signalled (S : Session) (s : UInt32) : Prop :=
  .fin s ∈ S.commands.items ∨ .rst s ∈ S.commands.items ∨ Closed (framesOf s S.outgoing)

def closedBy (S : Session) : Event → List Ref
  | .shutdown r | .drop r => [r]
  | .dropSession => S.accepts.items.filterMap Except.toOption
  | .resume =>
    match S.phase with
    | .accepting r => if S.accepts.live then [] else [r]
    | _ => []
  | _ => []

def isOpen (S : Session) (r : Ref) : Bool := S.handles[r]?.any fun st => !st.localClosed

/-- The command channel has a place for every handle that is closed now. -/
def RoomToClose (S : Session) (e : Event) : Prop :=
  (S.closedBy e).countP S.isOpen ≤ S.commands.capacity - S.commands.items.length

instance (S : Session) (e : Event) : Decidable (S.RoomToClose e) :=
  inferInstanceAs (Decidable (_ ≤ _))

/-! ## Signals stay -/

theorem outgoing_isPrefix (hs : S.Sane) (h : Step S e S') : S.outgoing <+: S'.outgoing := by
  rcases outgoing_step hs h with hou | ⟨f, hou, -⟩
  · exact hou ▸ prefix_refl _
  · exact hou ▸ prefix_append ..

theorem mem_commands_dropHandles (refs : List Ref) (hm : c ∈ S.commands.items) :
    c ∈ (S.dropHandles refs).commands.items := by
  obtain ⟨sent, heq, -⟩ := commands_dropHandles S refs
  simp [heq, hm]

theorem closing_step (hs : S.Sane) (h : Step S e S') (hru : S'.Running)
    (hc : c = .fin s ∨ c = .rst s) (hm : c ∈ S.commands.items) :
    c ∈ S'.commands.items ∨ Closed (framesOf s S'.outgoing) := by
  -- a frame that was just queued is the last to go out
  have hse : ∀ {T : Session} {pending : PendingFrames} {effect : Effect} {f : Frame},
      S.phase ≠ .flushing → pending.toList = [control f] → T.transmitted = S.transmitted →
        f.streamId = s → f.Closes → Closed (framesOf s (T.queue pending effect).outgoing) := by
    intro T pending effect f hp hpe hT hid hclo
    rw [outgoing_queue (hs.pending_nil hp) hpe hT, framesOf_own hid]
    simp [hclo]
  -- any other command is taken without touching this one
  have hrt : ∀ {c₀ : Command} {items : List Command}, S.commands.items = c₀ :: items → c₀ ≠ c →
      c ∈ items := by
    intro c₀ items hi hne
    rw [hi, mem_cons] at hm
    exact hm.resolve_left (Ne.symm hne)
  cases h with
  | asked => exact .inl (mem_append_left _ hm)
  | called _ _ _ hca =>
    obtain ⟨sent, heq, -⟩ := hca.appends
    exact .inl (by simp [heq, hm])
  | sessionDropped | acceptFailed => exact .inl (mem_commands_dropHandles _ hm)
  | stopped | writeFailed | expired | readerEnded | reported => exact absurd rfl hru.1
  | aborted | acceptAborted => exact absurd rfl hru.2
  | written =>
    rename_i queuedStream _
    cases queuedStream <;> exact .inl hm
  | openFailed _ hi | opened _ hi | dataSent _ hi | dataDiscarded _ hi =>
    exact .inl (hrt hi (by rcases hc with rfl | rfl <;> simp))
  | @controlSent _ c₀ f _ _ _ _ hp hi hf hpe =>
    by_cases heq : c₀ = c
    · subst heq
      rcases hc with rfl | rfl
      · cases hf
        exact .inr (hse (by simp [hp]) hpe rfl rfl (.inl rfl))
      · cases hf
    · exact .inl (hrt hi heq)
  | @resetSent _ id _ _ hp hi hpe =>
    by_cases heq : Command.rst id = c
    · subst heq
      rcases hc with hc | hc
      · cases hc
      · cases hc
        exact .inr (hse (by simp [hp]) hpe rfl rfl (.inr rfl))
    · exact .inl (hrt hi heq)
  | _ => exact .inl hm

theorem Signalled.step (hsi : S.Signalled s) (hs : S.Sane) (h : Step S e S') (hru : S'.Running) :
    S'.Signalled s := by
  rcases hsi with hfn | hrs | hse
  · exact (closing_step hs h hru (.inl rfl) hfn).imp_right .inr
  · exact .inr (closing_step hs h hru (.inr rfl) hrs)
  · exact .inr (.inr (hse.of_isPrefix ((outgoing_isPrefix hs h).filter _)))

/-! ## Handles that are closed -/

def WasClosed (S : Session) (r : Ref) (st' : NativeStream) : Prop :=
  ∃ st, S.handles[r]? = some st ∧ st.id = st'.id ∧ st.localClosed = true

def ClosesNone (S S' : Session) : Prop :=
  ∀ (r : Ref) (st' : NativeStream), S'.handles[r]? = some st' → st'.localClosed = true →
    S.WasClosed r st'

namespace ClosesNone

theorem of_eq (h : S'.handles = S.handles) : ClosesNone S S' :=
  fun _ st' hge hcl => ⟨st', h ▸ hge, rfl, hcl⟩

theorem of_modify (h : S'.handles = S.handles.modify r g)
    (hg : ∀ st, (g st).id = st.id ∧ (g st).localClosed = st.localClosed) : ClosesNone S S' := by
  intro r' st' hge hcl
  rw [h, List.getElem?_modify, Option.map_eq_map, Option.map_eq_some_iff] at hge
  obtain ⟨st, hge, rfl⟩ := hge
  by_cases hr : r = r'
  · simp only [hr] at hcl ⊢
    exact ⟨st, hge, (hg st).1.symm, (hg st).2 ▸ hcl⟩
  · simp only [hr] at hcl ⊢
    exact ⟨st, hge, rfl, hcl⟩

variable {id : UInt32}

theorem of_modifyFlow {T : Session} (hT : T.handles = S.handles)
    (h : S'.handles = (T.modifyFlow id g).handles) : ClosesNone S S' := by
  unfold modifyFlow at h
  cases hr : T.streams.lookup id with
  | none =>
    simp only [hr, hT] at h
    exact of_eq h
  | some =>
    simp only [hr, hT] at h
    exact of_modify h fun _ => ⟨rfl, rfl⟩

theorem of_append
    (h : S'.handles = S.handles ++ [newStream S.config id priority holder]) : ClosesNone S S' := by
  intro r st' hge hcl
  rw [h, getElem?_append] at hge
  by_cases hr : r < S.handles.length
  · rw [if_pos hr] at hge
    exact ⟨st', hge, rfl, hcl⟩
  · rw [if_neg hr] at hge
    rw [mem_singleton.mp (mem_of_getElem? hge)] at hcl
    simp [newStream] at hcl

end ClosesNone

variable {r : Ref} {st' : NativeStream}

theorem closed_set (hge : S.handles[r]? = some st) (h : S'.handles = S.handles.set r st')
    (hid : st'.id = st.id)
    (hcl : st'.localClosed = true → st.localClosed = true ∨ S'.Signalled st.id)
    (hge' : S'.handles[r']? = some st'') (hcl' : st''.localClosed = true) :
    S.WasClosed r' st'' ∨ S'.Signalled st''.id := by
  rw [h, List.getElem?_set] at hge'
  by_cases hr : r = r'
  · subst hr
    have hlt := (List.getElem?_eq_some_iff.mp hge).1
    rw [if_pos rfl, if_pos hlt, Option.some.injEq] at hge'
    subst hge'
    rw [hid]
    exact (hcl hcl').imp_left fun hst => ⟨st, hge, hid.symm, hst⟩
  · rw [if_neg hr] at hge'
    exact .inl ⟨st'', hge', rfl, hcl'⟩

/-! ## Dropping handles -/

theorem dropHandles_none (hge : S.handles[r]? = none) : S.dropHandles [r] = S := by
  simp [dropHandles, dropOne, hge]

theorem dropHandles_some (hge : S.handles[r]? = some st) :
    S.dropHandles [r] =
      { S with
        handles :=
          S.handles.set r { st with holder := .gone, rx := st.rx.close, localClosed := true }
        commands :=
          if st.localClosed then S.commands
          else (S.commands.trySend (.rst st.id)).getD S.commands } := by
  simp only [dropHandles, dropOne, foldl_cons, foldl_nil, hge, NativeStream.drop]
  cases st.localClosed <;> rfl

theorem isOpen_dropHandles (h : (S.dropHandles [r]).isOpen r' = true) : S.isOpen r' = true := by
  cases hge : S.handles[r]? with
  | none => rwa [dropHandles_none hge] at h
  | some =>
    rw [dropHandles_some hge] at h
    simp only [isOpen, List.getElem?_set] at h ⊢
    by_cases hr : r = r'
    · subst hr
      have hlt := (List.getElem?_eq_some_iff.mp hge).1
      simp [hlt] at h
    · simpa only [if_neg hr] using h

theorem room_dropHandles
    (hro : n + (if S.isOpen r then 1 else 0) ≤ S.commands.capacity - S.commands.items.length) :
    n ≤ (S.dropHandles [r]).commands.capacity - (S.dropHandles [r]).commands.items.length := by
  cases hge : S.handles[r]? with
  | none =>
    rw [dropHandles_none hge]
    omega
  | some st =>
    rw [dropHandles_some hge]
    simp only [isOpen, hge] at hro
    cases hl : st.localClosed with
    | true => simpa [hl] using hro
    | false =>
      obtain ⟨sent, heq, hse⟩ := S.commands.getD_trySend (.rst st.id)
      rw [heq]
      rcases hse with ⟨rfl, -⟩ | ⟨rfl, -⟩ <;> simp [hl] at hro ⊢ <;> omega

theorem live_dropHandles (S : Session) (refs : List Ref) :
    (S.dropHandles refs).commands.live = S.commands.live := by
  obtain ⟨sent, heq, -⟩ := commands_dropHandles S refs
  rw [heq]

theorem signalled_dropHandles (refs : List Ref) (hlv : S.commands.live = true)
    (hro : refs.countP S.isOpen ≤ S.commands.capacity - S.commands.items.length)
    (hge' : (S.dropHandles refs).handles[r]? = some st') (hcl' : st'.localClosed = true) :
    S.WasClosed r st' ∨ .rst st'.id ∈ (S.dropHandles refs).commands.items := by
  induction refs generalizing S with
  | nil => exact .inl ⟨st', hge', rfl, hcl'⟩
  | cons r₀ refs ih =>
    rw [List.countP_cons] at hro
    -- the handles that are still open are fewer
    have hfew : refs.countP (S.dropHandles [r₀]).isOpen ≤ refs.countP S.isOpen :=
      List.countP_mono_left fun _ _ => isOpen_dropHandles
    have hrt := room_dropHandles (by omega)
    have hsp := ih (S := S.dropHandles [r₀]) ((live_dropHandles ..).trans hlv) (by omega) hge'
    rcases hsp with ⟨st₁, hge₁, hid, hcl₁⟩ | hrs
    · cases hge : S.handles[r₀]? with
      | none =>
        rw [dropHandles_none hge] at hge₁
        exact .inl ⟨st₁, hge₁, hid, hcl₁⟩
      | some st =>
        rw [dropHandles_some hge, List.getElem?_set] at hge₁
        by_cases hr : r₀ = r
        · subst hr
          have hlt := (List.getElem?_eq_some_iff.mp hge).1
          simp only [if_true, hlt, Option.some.injEq] at hge₁
          subst hge₁
          cases hl : st.localClosed with
          | true => exact .inl ⟨st, hge, hid, hl⟩
          | false =>
            have hsn : S.commands.HasRoom := by
              refine ⟨hlv, ?_⟩
              simp only [isOpen, hge, hl, Option.any_some, Bool.not_false, if_true] at hro
              omega
            right
            change _ ∈ ((S.dropHandles [r₀]).dropHandles refs).commands.items
            refine mem_commands_dropHandles refs ?_
            rw [dropHandles_some hge]
            simp [hl, Channel.trySend_of_hasRoom hsn, ← hid]
        · rw [if_neg hr] at hge₁
          exact .inl ⟨st₁, hge₁, hid, hcl₁⟩
    · exact .inr hrs

/-! ## Every run of a session -/

theorem closed_step (hlv : S.commands.live = true) (hro : S.RoomToClose e) (h : Step S e S')
    (hru : S'.Running) (hge' : S'.handles[r]? = some st') (hcl' : st'.localClosed = true) :
    S.WasClosed r st' ∨ S'.Signalled st'.id := by
  cases h with
  | @accepted r₀ =>
    refine .inl (ClosesNone.of_modify rfl (fun _ => ?_) r st' hge' hcl')
    exact ⟨rfl, rfl⟩
  | sessionDropped =>
    exact (signalled_dropHandles _ hlv hro hge' hcl').imp_right fun hrs => .inr (.inl hrs)
  | acceptFailed hp hgo =>
    rw [RoomToClose, closedBy] at hro
    simp only [hp, hgo] at hro
    exact (signalled_dropHandles _ hlv hro hge' hcl').imp_right fun hrs => .inr (.inl hrs)
  | @called e r₀ op st st₁ tx he hge happ hca =>
    refine closed_set hge rfl hca.id_eq (fun hcl => ?_) hge' hcl'
    -- an open handle that is closed by the call finds room
    have hsn : S.closedBy e = [r₀] → st.localClosed = false → S.commands.HasRoom := by
      intro hby hl
      rw [RoomToClose, hby] at hro
      simp only [countP_singleton, isOpen, hge, any_some, hl, Bool.not_false, if_true] at hro
      exact ⟨hlv, by omega⟩
    cases hca with
    | copied hfi | finished hfi => cases hfi <;> exact .inl hcl
    | shut hl =>
      have hby : S.closedBy e = [r₀] := by
        cases e <;> cases he
        rfl
      rw [Channel.trySend_of_hasRoom (hsn hby hl)]
      exact .inr (.inl (by simp))
    | dropped =>
      have hby : S.closedBy e = [r₀] := by
        cases e <;> cases he
        rfl
      cases hl : st.localClosed with
      | true => exact .inl rfl
      | false =>
        rw [Channel.trySend_of_hasRoom (hsn hby hl)]
        exact .inr (.inr (.inl (by simp)))
    | _ => exact .inl hcl
  | stopped | writeFailed | expired | readerEnded | reported => exact absurd rfl hru.1
  | aborted | acceptAborted => exact absurd rfl hru.2
  | written =>
    rename_i queuedStream _
    cases queuedStream with
    | none => exact .inl (ClosesNone.of_eq rfl r st' hge' hcl')
    | some =>
      exact .inl (ClosesNone.of_modifyFlow rfl rfl r st' hge' hcl')
  | opened | admitted => exact .inl (ClosesNone.of_append rfl r st' hge' hcl')
  | granted =>
    exact .inl (ClosesNone.of_modifyFlow (g := (·.addWindow _)) rfl rfl r st' hge' hcl')
  | closed =>
    exact .inl (ClosesNone.of_modifyFlow rfl rfl r st' hge' hcl')
  | @delivered r₀ payload st _ hge =>
    refine closed_set hge rfl ?_ ?_ hge' hcl'
    · rfl
    · exact .inl
  | _ => exact .inl (ClosesNone.of_eq rfl r st' hge' hcl')

theorem live_step (h : Step S e S') (hlv : S.commands.live = true) (hru : S'.Running) :
    S'.commands.live = true := by
  cases h with
  | called _ _ _ hca =>
    obtain ⟨sent, heq, -⟩ := hca.appends
    rw [heq]
    exact hlv
  | sessionDropped | acceptFailed => exact (live_dropHandles ..).trans hlv
  | stopped | writeFailed | expired | readerEnded | reported => exact absurd rfl hru.1
  | aborted | acceptAborted => exact absurd rfl hru.2
  | written =>
    rename_i queuedStream _
    cases queuedStream <;> exact hlv
  | _ => exact hlv

structure Signals (S : Session) : Prop where
  sane : S.Sane
  live : S.Running → S.commands.live = true
  signalled : S.Running → ∀ (r : Ref) (st : NativeStream), S.handles[r]? = some st →
    st.localClosed = true → S.Signalled st.id

theorem Signals.step (hS : S.Signals) (hro : S.RoomToClose e) (h : S.step e = some S') :
    S'.Signals := by
  have hcs := step_cases hS.sane h
  refine ⟨hS.sane.step h, ?_, ?_⟩
  · intro hru
    exact live_step hcs (hS.live (running_of_step hcs hru)) hru
  · intro hru r st' hge' hcl'
    have hru₀ := running_of_step hcs hru
    rcases closed_step (hS.live hru₀) hro hcs hru hge' hcl' with
      ⟨st, hge, hid, hcl⟩ | hsi
    · exact hid ▸ (hS.signalled hru₀ r st hge hcl).step hS.sane hcs hru
    · exact hsi

theorem signals_start (first : UInt32) (config : NativeMuxConfig) :
    (start first config).Signals where
  sane := sane_start first config
  live := fun _ => rfl
  signalled := by simp [start]

end Session

/-! ## Streams that the peer does not have -/

/-- A stream that frames came in for and that is not there was refused. -/
def Endpoint.Answered (v : Endpoint) : Prop := v.stream = none → v.handled ≠ [] → Has .rst v.sent

/-- The first frame of a stream is an OPEN that can be accepted. -/
def Begins (frames : List Frame) : Prop :=
  ∀ f ∈ frames.head?, f.kind = .open ∧ ∃ priority, Session.openPriority f.payload = .ok priority

theorem Begins.of_isPrefix (h : fs <+: gs) (hb : Begins gs) : Begins fs := by
  obtain ⟨rest, rfl⟩ := h
  cases fs with
  | nil => simp [Begins]
  | cons => exact hb

namespace Endpoint.Answered

variable {s : UInt32} {v : Endpoint} {config : NativeMuxConfig}

theorem move (hv : Answered v) (hk : Kept s v) (hb : Begins v'.handled)
    (h : Move Fresh config s v v') : Answered v' := by
  intro hn hne
  have hn₀ : v.stream = none := by
    by_contra hst
    exact stream_ne_none h hst hn
  by_cases hni : v.handled = []
  · -- this is the first frame
    cases h with
    | refused => simp
    | admitted => simp at hn
    | dataTaken _ _ hat => simp [(hk.absent hn₀).2] at hat
    | @granted f _ hki =>
      have ho := (hb f (by simp [hni])).1
      simp [hki] at ho
    | @closed f _ hki =>
      have ho := (hb f (by simp [hni])).1
      rcases hki with hki | hki <;> simp [hki] at ho
    | @noted f _ _ _ _ ho =>
      obtain ⟨hki, priority, hok⟩ := hb f (by simp [hni])
      obtain ⟨err, herr⟩ := ho hki
      simp [hok] at herr
    | dropped h =>
      cases h with
      | mk hst => simp [hn₀] at hst
    | _ => exact absurd hni hne
  · exact (hv hn₀ hni).of_isPrefix (sent_isPrefix h)

end Endpoint.Answered

namespace Pair

variable {P : Pair} {e : Pair.Event} {x : Side} {s : UInt32} {config : Side → NativeMuxConfig}
  {ok : Pair → Pair.Event → Prop}

theorem answered_of_reach (h : Machine.Reach step ok (connect config) P) (x : Side) (hs : s ≠ 0) :
    ((P.session x).endpoint s).Answered := by
  refine h.invariant_of (J := fun P => P.Sound ∧ ∀ x, ∀ f ∈ (P.session x).outgoing, f.Proper)
    (I := fun P => ((P.session x).endpoint s).Answered) ?_ ?_ ?_
  · exact fun P hr => ⟨sound_of_reach hr, proper_of_reach hr⟩
  · intro _ hne
    exact absurd (endpoint_connect config x s).handled hne
  rintro P e P' ⟨hP, hpp⟩ hI - hsp
  rcases session_step (Pair.step_cases hsp) x with hsa | ⟨se, -, -, hpr⟩
  · rwa [hsa]
  have hP' := hP.linked.step hsp
  by_cases how : s.toNat % 2 = x.parity
  · -- the side that opens the stream
    exact fun hn hne => absurd ((hP'.opener x s hs how).unused hn).handled hne
  have hpa : s.toNat % 2 = x.peer.parity := by
    rw [Side.parity_peer]
    cases x <;> simp only [Side.parity] at how ⊢ <;> omega
  have hbe : Begins ((P.session x.peer).endpoint s).sent := by
    intro f hf
    have hki := (hP.linked.opener x.peer s hs hpa).openFirst.head f hf
    have hm := (mem_filter.mp (mem_of_mem_head? hf)).1
    have hok := hpp x.peer f hm
    rw [Frame.Proper, hki] at hok
    exact ⟨hki, hok⟩
  have hff := hP'.joined.handled_isPrefix_peer x s
  rw [hpr] at hff
  refine hP.keeps_of (fun _ _ => Begins.of_isPrefix) hsp ?_ ?_ hI (hbe.of_isPrefix hff)
  · intro se r op st _ _ _ _ hca hn
    exact absurd hn (Endpoint.stream_called hca)
  · exact fun v v' hv hI hb hmo => hI.move hv.kept hb hmo

/-! ## Every run of a pair -/

def RoomToClose (P : Pair) : Event → Prop
  | .act x se => (P.session x).RoomToClose se
  | _ => True

instance (P : Pair) : (e : Event) → Decidable (P.RoomToClose e)
  | .act x se => inferInstanceAs (Decidable ((P.session x).RoomToClose se))
  | .receive _ | .hangup _ | .cut _ _ => inferInstanceAs (Decidable True)

theorem signals_of_reach (h : Machine.Reach step RoomToClose (connect config) P) (x : Side) :
    (P.session x).Signals := by
  refine h.invariant (I := fun P => (P.session x).Signals) ?_ ?_
  · obtain ⟨first, hsr, -, -⟩ := connect_session config x
    rw [hsr]
    exact Session.signals_start ..
  · intro P e P' hS hro hsp
    rcases session_step (Pair.step_cases hsp) x with hsa | ⟨se, hta, hsp, -⟩
    · rwa [hsa]
    refine hS.step ?_ hsp
    rcases hta with ⟨rfl, -⟩ | ⟨result, rfl, rfl⟩
    · exact hro
    · exact Nat.zero_le _

/-- A FIN or RST of the stream is queued or under way, at either side. -/
def Closing (P : Pair) (s : UInt32) : Prop :=
  ∃ y, .fin s ∈ (P.session y).commands.items ∨ .rst s ∈ (P.session y).commands.items ∨
    Closed (P.underway y s)

theorem closing_of_signalled (hP : P.Joined) (hsi : (P.session x).Signalled s) :
    P.Closing s ∨ Closed ((P.session x.peer).endpoint s).handled := by
  rcases hsi with hfn | hrs | hse
  · exact .inl ⟨x, .inl hfn⟩
  · exact .inl ⟨x, .inr (.inl hrs)⟩
  · change Closed ((P.session x).endpoint s).sent at hse
    rw [sent_eq hP, closed_append] at hse
    rcases hse with hha | hun
    · exact .inr hha
    · exact .inl ⟨x, .inr (.inr hun)⟩

/-- **Close signalling**: in a run in which the command channel has a place for the
FIN or RST of every handle that is closed, every closed handle of a running session
has its FIN or RST queued, pending or written.  Between two running sessions, a table
entry whose handle was closed has a FIN or RST of its stream coming at one of the
sides, or the peer's handle is still in use. -/
theorem closing_signalled (first : UInt32) (single : NativeMuxConfig)
    (config : Side → NativeMuxConfig) :
    (∀ S, Machine.Reach Session.step Session.RoomToClose (Session.start first single) S → S.Running →
      ∀ (r : Ref) (st : NativeStream), S.handles[r]? = some st → st.localClosed = true →
        S.Signalled st.id) ∧
    ∀ P, Machine.Reach step RoomToClose (connect config) P → (∀ x, (P.session x).Running) →
      ∀ (x : Side) (s : UInt32) (r : Ref) (st : NativeStream),
        (P.session x).streams.lookup s = some r → (P.session x).handles[r]? = some st →
          st.localClosed = true →
            P.Closing s ∨ ∃ (r' : Ref) (st' : NativeStream),
              (P.session x.peer).handles[r']? = some st' ∧ st'.id = s ∧ st'.localClosed = false := by
  refine ⟨?_, ?_⟩
  · intro S h hru
    exact (h.invariant (Session.signals_start first single) fun _ _ _ hS => hS.step).signalled hru
  intro P h hru x s r st hlo hge hcl
  have hP := sound_of_reach h
  have hli := hP.linked
  have hid : st.id = s := by
    have hid := (hli.distinct x).table s r hlo
    simpa [Session.idOf, hge] using hid
  subst hid
  have hst := stream_of_handle hli hge
  have hs : st.id ≠ 0 := by
    intro hze
    rw [hze] at hst
    simp [hli.zero x] at hst
  -- the entry is there, so no FIN or RST came in
  have ho : ¬ Closed ((P.session x).endpoint st.id).handled := by
    intro hin
    have hou := (hP.ends x st.id).receiving.closed hin
    simp [Session.endpoint, (hli.distinct x).lookup_eq_iff hge |>.mp hlo] at hou
  rcases closing_of_signalled hli.joined ((signals_of_reach h x).signalled (hru x) r st hge hcl)
    with hcn | hha
  · exact .inl hcn
  cases hpr : ((P.session x.peer).endpoint st.id).stream with
  | none =>
    left
    have hne : ((P.session x.peer).endpoint st.id).handled ≠ [] := by
      intro hni
      simp [hni, Closed] at hha
    have hrs := answered_of_reach h x.peer hs hpr hne
    have hse : Closed ((P.session x.peer).endpoint st.id).sent := closed_iff.mpr (.inr hrs)
    rw [sent_eq hli.joined, Side.peer_peer, closed_append] at hse
    exact ⟨x.peer, .inr (.inr (hse.resolve_left ho))⟩
  | some st' =>
    obtain ⟨r', hge', hid'⟩ := Session.exists_ref hpr
    cases hl : st'.localClosed with
    | false => exact .inr ⟨r', st', hge', hid', hl⟩
    | true =>
      left
      have hsi := (signals_of_reach h x.peer).signalled (hru x.peer) r' st' hge' hl
      rw [hid'] at hsi
      have hbo := closing_of_signalled hli.joined hsi
      rw [Side.peer_peer] at hbo
      exact hbo.resolve_right ho

/-- A command channel full of pings refuses the FIN of a shutdown; the handle is
closed, and the entry of its stream stays with nothing queued for it. -/
theorem refused_fin_lost :
    ∃ S, Machine.Reach Session.step Machine.Any
        (Session.clientSession { maxStreams := 1, sendQueueFrames := 1 }) S ∧
      S.Running ∧ S.handles[0]?.map (fun st => (st.id, st.localClosed)) = some (1, true) ∧
      1 ∈ S.streams ∧ commandsOf 1 S.commands.items = [] ∧
      framesOf 1 S.outgoing = [⟨.open, 1, [2]⟩] :=
  Machine.exists_of_run _ _ _ _
    ([.openStream .bulk, .flush, .select, .flush] ++ List.replicate 1033 (.pingRtt 0) ++ [.shutdown 0])
    (by decide +kernel)

theorem closing_signalled_once :
    (∃ S : Session, S.handles[0]?.map (fun st => (st.id, st.localClosed)) = some (1, true) ∧
      S.Signalled 1) ∧
    ∃ P : Pair, (P.session .client).streams.lookup 1 = some 0 ∧
      (P.Closing 1 ∨ ∃ (r' : Ref) (st' : NativeStream),
        (P.session .server).handles[r']? = some st' ∧ st'.id = 1 ∧ st'.localClosed = false) := by
  constructor
  · obtain ⟨S, hre, hru, hge⟩ := Machine.exists_of_run Session.step Session.RoomToClose
      (Session.start 1 {})
      (fun S => S.Running ∧ S.handles[0]?.map (fun st => (st.id, st.localClosed)) = some (1, true))
      [.openStream .bulk, .flush, .select, .flush, .shutdown 0] (by decide +kernel)
    obtain ⟨st, hst, hbo⟩ := map_eq_some_iff.mp hge
    rw [Prod.mk.injEq] at hbo
    refine ⟨S, hge, ?_⟩
    exact hbo.1 ▸ (closing_signalled 1 {} fun _ => {}).1 S hre hru 0 st hst hbo.2
  · obtain ⟨P, hre, hru, hlo, hge⟩ := Machine.exists_of_run step RoomToClose
      (connect fun _ => {})
      (fun P => (∀ x, (P.session x).Running) ∧ (P.session .client).streams.lookup 1 = some 0 ∧
        (P.session .client).handles[0]?.map (fun st => st.localClosed) = some true)
      (opening ++ [.act .client (.drop 0)]) (by decide +kernel)
    obtain ⟨st, hst, hcl⟩ := map_eq_some_iff.mp hge
    exact ⟨P, hlo, (closing_signalled 1 {} _).2 P hre hru .client 1 0 st hlo hst hcl⟩

end Pair

end Espejismo.Mux
