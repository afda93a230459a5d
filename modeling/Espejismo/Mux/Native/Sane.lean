import Espejismo.Mux.Native.Step

/-!
# Mux.Native.Sane

Sessions are sane from their start on, so that `step_cases` applies to every
step of every run, and what a step can do to one stream (`handles_step`).
-/

namespace Espejismo.Mux

open Binary List

namespace Session

variable {S S' : Session} {e : Session.Event}

/-! ## One stream -/

inductive HandleStep : NativeStream → NativeStream → Prop
  | same {st : NativeStream} : HandleStep st st
  | call {st st' : NativeStream} {senders : Bool} {op : NativeStream.Op}
      {tx tx' : Channel Command} (h : st.Call senders tx op st' tx') : HandleStep st st'
  | given {st : NativeStream} : HandleStep st { st with holder := .application }
  | flowed {st : NativeStream} (g : FlowState → FlowState) : HandleStep st (st.mapFlow g)
  | delivered {st : NativeStream} {payload : List UInt8} (hsm : payload.length ≤ maxPayload)
      (hro : st.rx.HasRoom) : HandleStep st { st with rx := st.rx.push payload }
  | trans {st st₁ st₂ : NativeStream} (h : HandleStep st st₁) (h' : HandleStep st₁ st₂) :
      HandleStep st st₂

def HandlesStep (S S' : Session) : Prop :=
  ∀ (r : Ref) (st' : NativeStream), S'.handles[r]? = some st' →
    ∃ st, S.handles[r]? = some st ∧ HandleStep st st'

namespace HandlesStep

theorem of_eq (h : S'.handles = S.handles) : HandlesStep S S' := by
  intro r st' hge
  rw [h] at hge
  exact ⟨st', hge, .same⟩

theorem trans (h : HandlesStep S S₁) (h' : HandlesStep S₁ S') : HandlesStep S S' := by
  intro r st' hge
  obtain ⟨st₁, hge₁, hst'⟩ := h' r st' hge
  obtain ⟨st, hge, hst⟩ := h r st₁ hge₁
  exact ⟨st, hge, hst.trans hst'⟩

theorem of_set (hge : S.handles[r]? = some st)
    (hst : HandleStep st st') (h : S'.handles = S.handles.set r st') : HandlesStep S S' := by
  intro r' st'' hge'
  rw [h, List.getElem?_set] at hge'
  by_cases hr : r = r'
  · subst hr
    have hlt := (List.getElem?_eq_some_iff.mp hge).1
    rw [if_pos rfl, if_pos hlt] at hge'
    cases hge'
    exact ⟨st, hge, hst⟩
  · rw [if_neg hr] at hge'
    exact ⟨st'', hge', .same⟩

theorem of_modify (hg : ∀ st, HandleStep st (g st))
    (h : S'.handles = S.handles.modify r g) : HandlesStep S S' := by
  intro r' st' hge
  rw [h, getElem?_modify, Option.map_eq_map, Option.map_eq_some_iff] at hge
  obtain ⟨st, hge, rfl⟩ := hge
  refine ⟨st, hge, ?_⟩
  by_cases hr : r = r'
  · simpa [hr] using hg st
  · simpa [hr] using HandleStep.same

theorem leave (S : Session) : HandlesStep S S.leave := by
  intro r st' hge
  simp only [Session.leave, stop, getElem?_mapIdx, Option.map_eq_some_iff] at hge
  obtain ⟨st, hge, rfl⟩ := hge
  refine ⟨st, hge, ?_⟩
  by_cases hr : r ∈ S.tableRefs
  · simpa [hr] using HandleStep.flowed FlowState.close
  · simpa [hr] using HandleStep.same

theorem of_modifyFlow {T : Session} {id : UInt32} (hT : T.handles = S.handles)
    (h : S'.handles = (T.modifyFlow id g).handles) : HandlesStep S S' := by
  unfold modifyFlow at h
  cases hr : T.streams.lookup id with
  | none =>
    simp only [hr, hT] at h
    exact of_eq h
  | some =>
    simp only [hr, hT] at h
    exact of_modify (fun st => .flowed g) h

theorem dropHandles (S : Session) (refs : List Ref) : HandlesStep S (S.dropHandles refs) := by
  induction refs generalizing S with
  | nil => exact of_eq rfl
  | cons r refs ih =>
    have hhe : HandlesStep S (S.dropHandles [r]) := by
      cases hge : S.handles[r]? with
      | none => exact of_eq (by simp [Session.dropHandles, dropOne, hge])
      | some st =>
        refine of_set hge (.call (NativeStream.call_drop false st S.commands)) ?_
        simp [Session.dropHandles, dropOne, hge]
    exact hhe.trans (ih (S.dropHandles [r]))

end HandlesStep

theorem handles_step (hs : S.Sane) (h : Step S e S') :
    HandlesStep S S' ∨
      ∃ id priority holder, S'.handles = S.handles ++ [newStream S.config id priority holder] := by
  cases h with
  | accepted => exact .inl (.of_modify (fun _ => .given) rfl)
  | sessionDropped | acceptFailed | acceptAborted => exact .inl (.dropHandles S _)
  | called _ hge _ hca => exact .inl (.of_set hge (.call hca) rfl)
  | stopped | writeFailed | expired | readerEnded | reported => exact .inl (.leave _)
  | written =>
    rename_i queuedStream _
    cases queuedStream with
    | none => exact .inl (.of_eq rfl)
    | some => exact .inl (.of_modifyFlow rfl rfl)
  | opened | admitted => exact .inr ⟨_, _, _, rfl⟩
  | granted =>
    exact .inl (.of_modifyFlow (g := (·.addWindow _)) rfl rfl)
  | closed => exact .inl (.of_modifyFlow rfl rfl)
  | delivered hph hge hro =>
    exact .inl (.of_set hge (.delivered (hs.delivering_small _ _ hph) hro) rfl)
  | _ => exact .inl (.of_eq rfl)

/-- **Handle rule**: what new streams have and one step of a stream keeps, every
stream has after a step. -/
theorem every_handle {p : NativeStream → Prop} (hs : S.Sane) (h : Step S e S')
    (hp : ∀ (r : Ref) (st : NativeStream), S.handles[r]? = some st → p st)
    (hne : ∀ id priority holder, p (newStream S.config id priority holder))
    (hsp : ∀ st st', HandleStep st st' → p st → p st') (r : Ref) (st' : NativeStream)
    (hge : S'.handles[r]? = some st') : p st' := by
  rcases handles_step hs h with hold | ⟨id, priority, holder, had⟩
  · obtain ⟨st, hst, hke⟩ := hold r st' hge
    exact hsp st st' hke (hp r st hst)
  rw [had, getElem?_append] at hge
  by_cases hr : r < S.handles.length
  · rw [if_pos hr] at hge
    exact hp r st' hge
  · rw [if_neg hr] at hge
    rw [mem_singleton.mp (mem_of_getElem? hge)]
    exact hne ..

theorem config_step (h : Step S e S') : S'.config = S.config := by
  cases h with
  | written =>
    rename_i queuedStream _
    cases queuedStream <;> rfl
  | _ => rfl

theorem commands_dropHandles (S : Session) (refs : List Ref) :
    ∃ sent : List Command,
      (S.dropHandles refs).commands = { S.commands with items := S.commands.items ++ sent } ∧
        ∀ c ∈ sent, c.Small := by
  induction refs generalizing S with
  | nil => exact ⟨[], by simp [dropHandles], by simp⟩
  | cons r refs ih =>
    have hhe : ∃ sent : List Command, (S.dropHandles [r]).commands =
        { S.commands with items := S.commands.items ++ sent } ∧ ∀ c ∈ sent, c.Small := by
      cases hge : S.handles[r]? with
      | none => exact ⟨[], by simp [dropHandles, dropOne, hge], by simp⟩
      | some st =>
        obtain ⟨sent, he, hse⟩ := (NativeStream.call_drop false st S.commands).appends
        refine ⟨sent, ?_, fun c hc => (hse c hc).2⟩
        simpa [dropHandles, dropOne, hge] using he
    obtain ⟨sent, he, hsm⟩ := hhe
    obtain ⟨sent', he', hsm'⟩ := ih (S.dropHandles [r])
    refine ⟨sent ++ sent', ?_, ?_⟩
    · change ((S.dropHandles [r]).dropHandles refs).commands = _
      rw [he', he]
      simp
    · intro c hc
      exact (mem_append.mp hc).elim (hsm c) (hsm' c)

/-! ## Sane sessions stay sane -/

theorem HandleStep.tidy (h : HandleStep st st') (ht : st.Tidy) : st'.Tidy := by
  induction h with
  | same => exact ht
  | call hca => exact hca.tidy ht
  | given | flowed => exact ⟨ht.credit, ht.offset, ht.used, ht.buffer, ht.queue⟩
  | delivered hsm =>
    refine ⟨ht.credit, ht.offset, ht.used, ht.buffer, ?_⟩
    intro p hp
    simp only [Channel.items_push, mem_append, mem_singleton] at hp
    rcases hp with hp | rfl
    · exact ht.queue p hp
    · exact hsm
  | trans _ _ ih ih' => exact ih' (ih ht)

theorem tidy_newStream (config : NativeMuxConfig) (id : UInt32) (priority : StreamPriority)
    (holder : Holder) : (newStream config id priority holder).Tidy where
  credit := rfl
  offset := Nat.zero_le _
  used := fun _ => rfl
  buffer := Nat.zero_le _
  queue := by simp [newStream]

theorem sane_start (id : UInt32) (config : NativeMuxConfig) : (start id config).Sane where
  pending_nil := fun _ => rfl
  pending_le := Nat.zero_le _
  pending_small := by simp [start]
  data_small := by simp [start]
  frame_small := by simp [start]
  delivering_small := by simp [start]
  tidy := by simp [start]

structure TaskSane (S : Session) : Prop where
  pending_nil : S.phase ≠ .flushing → S.pending.toList = []
  pending_le : S.pending.toList.length ≤ 1
  pending_small : ∀ p ∈ S.pending.toList, p.frame.payload.length ≤ maxPayload

theorem taskSane_queue {T : Session} {pending : PendingFrames}
    (h : pending.toList = [p]) (hsm : p.frame.payload.length ≤ maxPayload) :
    (T.queue pending effect).TaskSane where
  pending_nil := fun hph => absurd rfl hph
  pending_le := by simp [queue, h]
  pending_small := by simpa [queue, h] using hsm

theorem taskSane_of_empty (h : S.pending.toList = []) : S.TaskSane where
  pending_nil := fun _ => h
  pending_le := by simp [h]
  pending_small := by simp [h]

theorem controlFrame_small (h : controlFrame c = some f) : f.payload.length ≤ maxPayload := by
  cases c with
  | fin | windowUpdate | ping | goaway =>
    cases h
    simp [maxPayload]
  | _ => contradiction

theorem taskSane_step (hs : S.Sane) (h : Step S e S') : S'.TaskSane := by
  have hke : S'.phase = S.phase → S'.pending = S.pending → S'.TaskSane := by
    intro hph hpe
    exact ⟨by rw [hph, hpe]; exact hs.pending_nil, by rw [hpe]; exact hs.pending_le,
      by rw [hpe]; exact hs.pending_small⟩
  have hemp : S.phase ≠ .flushing → S'.pending = S.pending → S'.TaskSane :=
    fun hph hpe => taskSane_of_empty (hpe ▸ hs.pending_nil hph)
  cases h with
  | tick | asked | accepted | errorAccepted | called | arrived | sessionDropped =>
    exact hke rfl rfl
  | popped _ _ hpe | stopped _ _ hpe | entered _ _ hpe =>
    exact taskSane_of_empty hpe
  | written hph =>
    rename_i queuedStream
    apply hemp (by simp [hph])
    cases queuedStream <;> rfl
  | idled _ _ _ hpe | opened _ _ _ _ _ hpe | resetSent _ _ hpe
  | refused _ _ _ hpe =>
    exact taskSane_queue hpe (by simp [maxPayload])
  | dataSent hph hi _ hpe =>
    have hsm := hs.data_small _ (by rw [hi]; exact mem_cons_self)
    exact taskSane_queue hpe hsm
  | controlSent _ _ hf hpe => exact taskSane_queue hpe (controlFrame_small hf)
  | pinged _ _ _ hlen hpe =>
    exact taskSane_queue hpe (by simp only [maxPayload]; omega)
  | aborted _ _ hph => exact hemp hph rfl
  | transmitted hph | writeFailed hph | polled hph | expired hph | repolled hph
  | readerEnded hph | readerFailed hph | openFailed hph | dataDiscarded hph
  | admitted hph | dataTaken hph | granted hph | closed hph | ponged hph
  | goneAway hph | rejected hph | acceptSent hph | acceptFailed hph
  | acceptAborted _ hph | delivered hph | deliveryFailed hph | reported hph =>
    exact hemp (by simp [hph]) rfl

theorem data_small_step (hs : S.Sane) (h : Step S e S') : ∀ c ∈ S'.commands.items, c.Small := by
  -- the two ways in which the channel changes: more commands, or fewer
  have hap : ∀ {tx : Channel Command} {sent : List Command},
      tx = { S.commands with items := S.commands.items ++ sent } → (∀ c ∈ sent, c.Small) →
        ∀ c ∈ tx.items, c.Small := by
    rintro _ sent rfl hse c hc
    exact (mem_append.mp hc).elim (hs.data_small c) (hse c)
  have hta : ∀ {c₀ : Command} {items : List Command}, S.commands.items = c₀ :: items →
      ∀ c ∈ items, c.Small :=
    fun hi c hc => hs.data_small c (by rw [hi]; exact mem_cons_of_mem _ hc)
  cases h with
  | asked hc =>
    refine hap rfl ?_
    cases e <;> cases hc <;> simp [Command.Small]
  | called _ _ _ hca =>
    obtain ⟨sent, he, hse⟩ := hca.appends
    exact hap he fun c hc => (hse c hc).2
  | sessionDropped | acceptFailed =>
    obtain ⟨sent, he, hse⟩ := commands_dropHandles S _
    exact hap he hse
  | stopped | writeFailed | expired | readerEnded | reported | aborted | acceptAborted =>
    simp [leave, stop]
  | written =>
    rename_i queuedStream _
    cases queuedStream <;> exact hs.data_small
  | openFailed _ hi | opened _ hi | dataSent _ hi | dataDiscarded _ hi
  | controlSent _ hi | resetSent _ hi => exact hta hi
  | _ => exact hs.data_small

theorem frame_small_step (hs : S.Sane) (h : Step S e S') :
    ∀ f, .ok (some f) ∈ S'.frames.items → f.payload.length ≤ maxPayload := by
  have hta : ∀ {x : Except Error (Option Frame)} {items : List (Except Error (Option Frame))},
      S.frames.items = x :: items → ∀ f, .ok (some f) ∈ items → f.payload.length ≤ maxPayload :=
    fun hi f hf => hs.frame_small f (by rw [hi]; exact mem_cons_of_mem _ hf)
  cases h with
  | arrived _ _ hre =>
    intro f hf
    simp only [Channel.items_push, mem_append, mem_singleton] at hf
    rcases hf with hf | rfl
    · exact hs.frame_small f hf
    · exact hre
  | stopped | writeFailed | expired | readerEnded | reported | aborted | acceptAborted =>
    simp [leave, stop]
  | written =>
    rename_i queuedStream _
    cases queuedStream <;> exact hs.frame_small
  | readerFailed _ hfr | refused _ hfr | admitted _ hfr | dataTaken _ hfr
  | granted _ hfr | closed _ hfr | pinged _ hfr | ponged _ hfr
  | goneAway _ hfr | rejected _ hfr => exact hta hfr
  | _ => exact hs.frame_small

theorem delivering_small_step (hs : S.Sane) (h : Step S e S') :
    ∀ r payload, S'.phase = .delivering r payload → payload.length ≤ maxPayload := by
  cases h with
  | dataTaken _ hfr =>
    rintro r payload ⟨⟩
    exact hs.frame_small _ (by rw [hfr]; exact mem_cons_self)
  | written =>
    rename_i queuedStream _
    cases queuedStream <;> simp [releaseSendSlot, modifyFlow]
  | tick | asked | accepted | errorAccepted | called | sessionDropped | arrived =>
    exact hs.delivering_small
  | _ => simp [leave, stop, queue]

theorem Sane.step (hs : S.Sane) (h : S.step e = some S') : S'.Sane :=
  have hsp := step_cases hs h
  have hts := taskSane_step hs hsp
  { pending_nil := hts.pending_nil
    pending_le := hts.pending_le
    pending_small := hts.pending_small
    data_small := data_small_step hs hsp
    frame_small := frame_small_step hs hsp
    delivering_small := delivering_small_step hs hsp
    tidy := every_handle hs hsp hs.tidy (tidy_newStream S.config) fun _ _ h ht => h.tidy ht }

end Session

end Espejismo.Mux
