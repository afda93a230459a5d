import Espejismo.Data.Upkeep
import Espejismo.Mux.Native.Limits

/-!
# Mux.Native.Priority

The order in which the data of streams is written.  `PendingFrames::pop_next` prefers
interactive frames, but the session writes the frame of one command before it takes
the next, so the queue never holds frames of both classes: data leaves in the order
of the command channel.
-/

namespace Espejismo.Mux

open Binary Machine Upkeep List

/-! ## The classes of data -/

namespace PendingFrames

def queued (p : PendingFrames) : StreamPriority → List PendingFrame
  | .interactive => p.interactive
  | .bulk => p.bulk

/-- The class of the DATA frame that `popNext` takes. -/
def nextClass (p : PendingFrames) : Option StreamPriority :=
  [StreamPriority.interactive, .bulk].find? fun c =>
    (p.popNext.2.queued c).length < (p.queued c).length

variable {p : PendingFrames}

theorem queued_of_nextClass (h : p.nextClass = some priority) : p.queued priority ≠ [] := by
  have hsh := find?_some h
  exact ne_nil_of_length_pos (Nat.zero_lt_of_lt (of_decide_eq_true hsh))

theorem bulk_pushControl (h : p.pushControl frame = .ok p') : p'.bulk = p.bulk := by
  cases hsl : p.reserveSlot with
  | error =>
    simp only [pushControl, hsl] at h
    cases h
  | ok =>
    simp only [pushControl, hsl] at h
    cases h
    rfl

theorem bulk_pushData_interactive (h : p.pushData .interactive frame = .ok p') :
    p'.bulk = p.bulk := by
  cases hsl : p.reserveSlot with
  | error =>
    simp only [pushData, hsl] at h
    cases h
  | ok =>
    simp only [pushData, hsl] at h
    cases h
    rfl

end PendingFrames

def Command.isInteractive : Command → Bool
  | .data _ .interactive _ => true
  | _ => false

namespace Session

variable {S S' : Session} {e : Session.Event} {since : Nat}

/-- The class of the DATA frame that a step begins to write. -/
def begunClass (S : Session) (e : Event) : List StreamPriority :=
  match e, S.phase with
  | .flush, .flushing => S.pending.nextClass.toList
  | _, _ => []

abbrev Written := Session × List StreamPriority

def interactiveRun (classes : List StreamPriority) : Nat :=
  (classes.reverse.takeWhile (· = .interactive)).length

def InteractiveWaits (S : Session) : Prop :=
  S.commands.items.any Command.isInteractive = true ∨ S.pending.interactive ≠ []

instance (S : Session) : Decidable S.InteractiveWaits := inferInstanceAs (Decidable (_ ∨ _))

/-- **Priority**: DATA that is about to be written while interactive DATA waits is
interactive, unless eight interactive DATA frames have been written since the last
bulk one. -/
def Prioritised (t : Written) : Prop :=
  t.1.phase = .flushing → ∀ priority, t.1.pending.nextClass = some priority →
    t.1.InteractiveWaits → priority = .interactive ∨ maxInteractiveBurst ≤ interactiveRun t.2

/-- The stream of the bulk DATA command that the `select!` takes next, and the commands
behind it. -/
def bulkNext (S : Session) : Option (UInt32 × List Command) :=
  match S.phase, S.commands.items with
  | .selecting _, .data streamId .bulk _ :: items => some (streamId, items)
  | _, _ => none

/-- A bulk DATA command is taken when no interactive one stands behind it, and none is
sent before its frame is begun; or eight interactive DATA frames were written. -/
def Orderly (t : Written) : Event → Prop
  | .select => ∀ next, t.1.bulkNext = some next → next.1 ∈ t.1.streams →
      next.2.any Command.isInteractive = false ∨ maxInteractiveBurst ≤ interactiveRun t.2
  | .write r _ => t.1.phase = .flushing → t.1.pending.nextClass = some .bulk →
      t.1.handles[r]?.any (fun st => st.priority = .interactive) = true →
        maxInteractiveBurst ≤ interactiveRun t.2
  | _ => True

instance (t : Written) : ∀ e, Decidable (Orderly t e)
  | .select => inferInstanceAs (Decidable (∀ next, t.1.bulkNext = some next → _))
  | .write _ _ => inferInstanceAs (Decidable (_ → _))
  | .tick _ | .openStream _ | .pingRtt _ | .goaway | .accept | .dropSession | .read _ _
  | .shutdown _ | .drop _ | .flush | .transmit _ | .writeError | .resume | .abort | .arrive _ =>
    .isTrue trivial

/-! ## What a step queues -/

def NoBulk (S : Session) : Prop := S.pending.bulk = []

theorem upholds_enqueueControl (kind : FrameKind) (id : UInt32) (payload : List UInt8) :
    Upholds NoBulk (enqueueControl kind id payload) := by
  refine upholds_get_bind fun S hS => ?_
  cases hpu : S.pending.pushControl ⟨⟨kind, id, payload⟩, none⟩ with
  | error err => exact upholds_throw err
  | ok => exact upholds_set ((PendingFrames.bulk_pushControl hpu).trans hS)

theorem upholds_enqueueData_interactive (id : UInt32) (payload : List UInt8) :
    Upholds NoBulk (enqueueData .interactive id payload) := by
  refine upholds_get_bind fun S hS => ?_
  cases hpu : S.pending.pushData .interactive ⟨⟨.data, id, payload⟩, some id⟩ with
  | error err => exact upholds_throw err
  | ok => exact upholds_set ((PendingFrames.bulk_pushData_interactive hpu).trans hS)

theorem upholds_releaseSendSlot (id : UInt32) :
    Upholds NoBulk (modify (·.releaseSendSlot id) : EStateM Error Session Unit) :=
  upholds_modify fun _ hS => hS

theorem upholds_handleCommand (h : ∀ id payload, c ≠ .data id .bulk payload) :
    Upholds NoBulk (handleCommand c) := by
  cases c with
  | «open» priority =>
    refine upholds_get_bind fun S hS => ?_
    refine upholds_ite (upholds_bind (upholds_set hS) fun _ => upholds_pure _) ?_
    refine upholds_ite (upholds_bind (upholds_set hS) fun _ => upholds_pure _) ?_
    split
    · exact upholds_bind (upholds_set hS) fun _ => upholds_pure _
    refine upholds_ite (upholds_bind (upholds_set hS) fun _ => upholds_pure _) ?_
    exact upholds_bind (upholds_set hS) fun _ =>
      upholds_bind (upholds_enqueueControl _ _ _) fun _ =>
        upholds_bind (upholds_modify fun _ hS => hS) fun _ => upholds_pure _
  | data id priority payload =>
    cases priority with
    | bulk => exact absurd rfl (h id payload)
    | interactive =>
      refine upholds_get_bind fun S hS => ?_
      refine upholds_ite ?_ ?_
      · refine upholds_bind (upholds_tryCatch (upholds_enqueueData_interactive _ _) fun err => ?_)
          fun _ => upholds_pure _
        exact upholds_bind (upholds_releaseSendSlot id) fun _ => upholds_throw err
      · exact upholds_bind (upholds_releaseSendSlot id) fun _ => upholds_pure _
  | fin | windowUpdate | goaway =>
    exact upholds_bind (upholds_enqueueControl _ _ _) fun _ => upholds_pure _
  | rst | ping =>
    exact upholds_bind (upholds_modify fun _ hS => hS) fun _ =>
      upholds_bind (upholds_enqueueControl _ _ _) fun _ => upholds_pure _

theorem upholds_handleFrame (f : Frame) : Upholds NoBulk (handleFrame f) := by
  have hre : Upholds NoBulk (do
      enqueueControl .rst f.streamId []
      return FrameOutcome.done .continue) :=
    upholds_bind (upholds_enqueueControl _ _ _) fun _ => upholds_pure _
  refine upholds_get_bind fun S hS => ?_
  split
  · refine upholds_ite hre (upholds_ite hre ?_)
    exact upholds_bind (upholds_ofExcept _) fun _ =>
      upholds_bind (upholds_set hS) fun _ => upholds_pure _
  · split
    · exact hre
    · exact upholds_pure _
  · refine upholds_ite (upholds_throw _) ?_
    exact upholds_bind (upholds_set hS) fun _ => upholds_pure _
  · exact upholds_bind (upholds_set hS) fun _ => upholds_pure _
  · exact upholds_bind (upholds_set hS) fun _ => upholds_pure _
  · refine upholds_ite (upholds_throw _) (upholds_ite ?_ ?_)
    · exact upholds_bind (upholds_set hS) fun _ => upholds_pure _
    · exact upholds_bind (upholds_enqueueControl _ _ _) fun _ => upholds_pure _
  · exact upholds_pure _
  · exact upholds_throw _

theorem noBulk_continueWith (h : S.NoBulk) : (S.continueWith effect).NoBulk := by
  cases effect <;> exact h

theorem noBulk_onFrame (h : S.NoBulk) (f : Frame) : (S.onFrame f).NoBulk := by
  have hf := upholds_handleFrame f
  unfold onFrame
  cases hru : (handleFrame f).run { S with handled := S.handled ++ [f] } with
  | error err T =>
    have hT : T.NoBulk := hf.of_error hru h
    exact hT
  | ok outcome T =>
    have hT : T.NoBulk := hf.of_ok hru h
    cases outcome with
    | done => exact noBulk_continueWith hT
    | accepting | delivering => exact hT

theorem noBulk_selectCommand (h : S.NoBulk)
    (hc : ∀ id payload items, S.commands.items ≠ .data id .bulk payload :: items) :
    (S.selectCommand since).NoBulk := by
  unfold selectCommand
  split
  · exact h
  · next c items hi =>
    have hk : Upholds NoBulk (handleCommand c) :=
      upholds_handleCommand fun id payload heq => hc id payload items (heq ▸ hi)
    split
    · next hru => exact noBulk_continueWith (hk.of_ok hru h)
    · next T hru =>
      have hT : T.NoBulk := hk.of_error hru h
      exact hT

theorem noBulk_selectFrame (h : S.NoBulk) : (S.selectFrame since).NoBulk := by
  unfold selectFrame
  split
  · split
    · refine noBulk_onFrame ?_ _
      exact h
    · exact h
    · exact h
  · split
    · have hk := upholds_enqueueControl .goaway 0 []
      split
      · next hru => exact noBulk_continueWith (hk.of_ok hru h)
      · next hru => exact noBulk_continueWith (hk.of_error hru h)
    · split
      · exact h
      · exact h

variable {id : UInt32} {items : List Command}

theorem bulkNext_eq_some :
    S.bulkNext = some (id, items) ↔ ∃ since payload, S.phase = .selecting since ∧
      S.commands.items = .data id .bulk payload :: items := by
  unfold bulkNext
  split
  · next hph hi =>
    constructor
    · rintro ⟨⟩
      exact ⟨_, _, hph, hi⟩
    · rintro ⟨since, payload, -, hi'⟩
      rw [hi] at hi'
      cases hi'
      rfl
  · next hoh =>
    constructor
    · nofun
    · rintro ⟨since, payload, hph, hi⟩
      exact absurd hi (hoh since id payload items hph)

/-- A step of the `select!` that leaves a bulk frame to write has taken the DATA command
of a bulk stream. -/
theorem noBulk_select (hs : S.Sane) (hn : S.bulkNext = none) (h : S.step .select = some S') :
    S'.NoBulk := by
  have hemp (hph : S.phase ≠ .flushing) : S.NoBulk := by
    have := hs.pending_nil hph
    simp only [PendingFrames.toList, append_eq_nil_iff] at this
    exact this.2
  simp only [step, select] at h
  split at h
  · next since hph =>
    cases h
    refine noBulk_selectCommand (hemp (by simp [hph])) fun id payload items hi => ?_
    have := bulkNext_eq_some.mpr ⟨since, payload, hph, hi⟩
    rw [hn] at this
    cases this
  · next since hph =>
    cases h
    exact noBulk_selectFrame (hemp (by simp [hph]))
  · cases h

theorem bulk_select (hs : S.Sane) (hn : S.bulkNext = some (id, items)) (hm : id ∈ S.streams)
    (h : S.step .select = some S') :
    S'.phase = .flushing ∧ S'.pending.nextClass = some .bulk ∧ S'.commands.items = items ∧
      S'.pending.interactive = [] := by
  obtain ⟨since, payload, hph, hi⟩ := bulkNext_eq_some.mp hn
  have hemp : S.pending.toList = [] := hs.pending_nil (by simp [hph])
  have hpa : (S.pending.control = [] ∧ S.pending.interactive = []) ∧ S.pending.bulk = [] := by
    simpa only [PendingFrames.toList, append_eq_nil_iff] using hemp
  have hpu : S.pending.pushData .bulk ⟨⟨.data, id, payload⟩, some id⟩ =
      .ok { S.pending with bulk := S.pending.bulk ++ [⟨⟨.data, id, payload⟩, some id⟩] } := by
    rw [PendingFrames.pushData, PendingFrames.reserveSlot_of_empty hemp]
    rfl
  rw [eq_of_select hph hi (run_data hm hpu) h]
  simp [continueWith, PendingFrames.nextClass, PendingFrames.popNext, PendingFrames.queued,
    takeCommand, hpa]

theorem discarded_select (hs : S.Sane) (hn : S.bulkNext = some (id, items))
    (hm : id ∉ S.streams) (h : S.step .select = some S') : S'.NoBulk := by
  obtain ⟨since, payload, hph, hi⟩ := bulkNext_eq_some.mp hn
  have hemp := hs.pending_nil (by simp [hph])
  simp only [PendingFrames.toList, append_eq_nil_iff] at hemp
  rw [eq_of_select hph hi (run_data_discarded hm) h]
  exact hemp.2

/-! ## What a step sends -/

theorem any_trySend (hc : c.isInteractive = false) (tx : Channel Command) :
    ((tx.trySend c).getD tx).items.any Command.isInteractive =
      tx.items.any Command.isInteractive := by
  obtain ⟨sent, heq, hse⟩ := tx.getD_trySend c
  rw [heq]
  obtain ⟨rfl, -⟩ | ⟨rfl, -⟩ := hse <;> simp [hc]

theorem interactive_of_call {st : NativeStream} {senders : Bool} (h : st.Call senders tx op st' tx')
    (ha : tx'.items.any Command.isInteractive = true) :
    tx.items.any Command.isInteractive = true ∨ op = .write ∧ st.priority = .interactive := by
  cases h with
  | wrote =>
    rw [Channel.items_push, any_append, Bool.or_eq_true] at ha
    refine ha.imp_right fun hnw => ⟨rfl, ?_⟩
    cases hp : st.priority with
    | interactive => rfl
    | bulk => simp [hp, Command.isInteractive] at hnw
  | finished | shut =>
    rw [any_trySend rfl] at ha
    exact .inl ha
  | dropped =>
    split at ha
    · exact .inl ha
    · rw [any_trySend rfl] at ha
      exact .inl ha
  | _ => exact .inl ha

theorem any_dropHandles (S : Session) (refs : List Ref) :
    (S.dropHandles refs).commands.items.any Command.isInteractive =
      S.commands.items.any Command.isInteractive := by
  induction refs generalizing S with
  | nil => rfl
  | cons r refs ih =>
    refine (ih (S.dropHandles [r])).trans ?_
    cases hge : S.handles[r]? with
    | none => simp [dropHandles, dropOne, hge]
    | some =>
      simp only [dropHandles, dropOne, hge, foldl_cons, NativeStream.drop]
      split
      · rfl
      · exact any_trySend rfl _

/-- A step that is not one of the `select!` leaves a bulk frame that is next to be
written, and interactive data enters the channel by a write. -/
theorem frame_step (hs : S.Sane) (h : Step S e S') (he : e ≠ .select)
    (hph : S'.phase = .flushing) (hcl : S'.pending.nextClass = some .bulk) :
    S.phase = .flushing ∧ S'.pending = S.pending ∧ e ≠ .flush ∧
      (S'.commands.items.any Command.isInteractive = true →
        S.commands.items.any Command.isInteractive = true ∨
          ∃ r buf, e = .write r buf ∧
            S.handles[r]?.any (fun st => st.priority = .interactive) = true) := by
  have hid (hne : S.phase ≠ .flushing) (heq : S'.pending = S.pending) : False := by
    have hemp := hs.pending_nil hne
    simp only [PendingFrames.toList, append_eq_nil_iff] at hemp
    rw [heq] at hcl
    exact PendingFrames.queued_of_nextClass hcl hemp.2
  cases h with
  | tick | accepted | errorAccepted | arrived => exact ⟨hph, rfl, by simp, .inl⟩
  | asked hc =>
    refine ⟨hph, rfl, ?_, fun ha => .inl ?_⟩
    · rintro rfl
      cases hc
    · rw [Channel.items_push, any_append, Bool.or_eq_true] at ha
      refine ha.resolve_right ?_
      cases e <;> cases hc <;> simp [Command.isInteractive]
  | sessionDropped =>
    refine ⟨hph, rfl, by simp, fun ha => .inl ?_⟩
    exact (any_dropHandles S _).symm.trans ha
  | called hca hge happ hst =>
    refine ⟨hph, rfl, ?_, fun ha => ?_⟩
    · rintro rfl
      cases hca
    · refine (interactive_of_call hst ha).imp_right fun hwt => ?_
      obtain ⟨rfl, hpr⟩ := hwt
      cases e <;> cases hca
      exact ⟨_, _, rfl, by simp [hge, hpr]⟩
  | @written queuedStream hwr =>
    refine (hid (by simp [hwr]) ?_).elim
    cases queuedStream <;> rfl
  | acceptSent hoh | delivered hoh => exact (hid (by simp [hoh]) rfl).elim
  | popped | entered | stopped | transmitted | writeFailed | acceptFailed | deliveryFailed | reported
  | aborted | acceptAborted => cases hph
  | _ => exact absurd rfl he

/-! ## Every run -/

variable {t t' : Written}

theorem begunClass_of_ne (h : e ≠ .flush) : S.begunClass e = [] := by
  unfold begunClass
  split
  · exact absurd rfl h
  · rfl

theorem not_noBulk (h : S.pending.nextClass = some .bulk) : ¬S.NoBulk :=
  PendingFrames.queued_of_nextClass h

theorem prioritised_select (hs : t.1.Sane) (h : t.1.step .select = some S') :
    Prioritised (S', t.2) ↔ Orderly t .select := by
  constructor
  · rintro hpri ⟨id, items⟩ hn hm
    obtain ⟨hph, hcl, hi, -⟩ := bulk_select hs hn hm h
    cases ha : items.any Command.isInteractive with
    | false => exact .inl rfl
    | true =>
      have hw : S'.InteractiveWaits := .inl (hi ▸ ha)
      exact .inr ((hpri hph .bulk hcl hw).resolve_left nofun)
  · intro ho hph priority hcl hw
    cases priority with
    | interactive => exact .inl rfl
    | bulk =>
      cases hn : t.1.bulkNext with
      | none => exact absurd (noBulk_select hs hn h) (not_noBulk hcl)
      | some next =>
        obtain ⟨id, items⟩ := next
        by_cases hm : id ∈ t.1.streams
        · obtain ⟨-, -, hi, hin⟩ := bulk_select hs hn hm h
          obtain hno | hru := ho _ hn hm
          · obtain ha | hne := hw
            · rw [hi, hno] at ha
              cases ha
            · exact absurd hin hne
          · exact .inr hru
        · exact absurd (discarded_select hs hn hm h) (not_noBulk hcl)

theorem Prioritised.step (hs : t.1.Sane) (ht : Prioritised t) (ho : Orderly t e)
    (h : logged Session.step begunClass t e = some t') : Prioritised t' := by
  obtain ⟨hst, hl⟩ := logged_eq_some.mp h
  by_cases he : e = .select
  · subst he
    have hl' : t'.2 = t.2 := by rw [hl, begunClass_of_ne (by simp), append_nil]
    rw [show t' = (t'.1, t.2) from Prod.ext rfl hl']
    exact (prioritised_select hs hst).mpr ho
  · intro hph priority hcl hw
    cases priority with
    | interactive => exact .inl rfl
    | bulk =>
      obtain ⟨hbe, hpe, hfl, hse⟩ := frame_step hs (step_cases hs hst) he hph hcl
      have hl' : t'.2 = t.2 := by rw [hl, begunClass_of_ne hfl, append_nil]
      rw [hpe] at hcl
      rw [hl']
      have hold (hw : t.1.InteractiveWaits) : maxInteractiveBurst ≤ interactiveRun t.2 :=
        (ht hbe _ hcl hw).resolve_left nofun
      obtain ha | hin := hw
      · obtain ha | ⟨r, buf, rfl, hr⟩ := hse ha
        · exact .inr (hold (.inl ha))
        · exact .inr (ho hbe hcl hr)
      · exact .inr (hold (.inr (hpe ▸ hin)))

/-- **Priority** holds in every run in which bulk data is taken only when no interactive
data waits behind it; a step of the `select!` that takes it otherwise breaks it. -/
theorem data_prioritised_iff {first : UInt32} {config : NativeMuxConfig}
    (h : Reach (logged Session.step begunClass) Orderly (start first config, []) t) :
    Prioritised t ∧
      ∀ S', t.1.step .select = some S' → (Prioritised (S', t.2) ↔ Orderly t .select) := by
  have ht := h.invariant (I := fun t => t.1.Sane ∧ Prioritised t)
    ⟨sane_start first config, fun _ _ hcl => by cases hcl⟩ fun t e t' ht ho hst =>
      ⟨ht.1.step (logged_eq_some.mp hst).1, ht.2.step ht.1 ho hst⟩
  exact ⟨ht.2, fun S' hst => prioritised_select ht.1 hst⟩

def openingBoth : List Event := openingTwice ++ [.flush, .transmit 10, .flush, .flush]

/-- A bulk DATA frame is about to be written while interactive data waits in the command
channel, and no interactive DATA frame has been written yet. -/
theorem bulk_written_first :
    ∃ t, Reach (logged Session.step begunClass) Any (clientSession {}, []) t ∧
      t.1.phase = .flushing ∧ t.1.pending.nextClass = some .bulk ∧ t.1.InteractiveWaits ∧
      interactiveRun t.2 = 0 :=
  exists_of_run _ _ _ _ (openingBoth ++ [.write 0 [7], .write 1 [8], .select]) (by decide +kernel)

theorem data_prioritised_iff_openingBoth :
    ∃ t, Reach (logged Session.step begunClass) Orderly (clientSession {}, []) t ∧
      t.1.pending.nextClass = some .interactive ∧ t.1.InteractiveWaits ∧ Prioritised t := by
  obtain ⟨t, hrc, hcl, hw⟩ := exists_of_run (logged Session.step begunClass) Orderly
    (clientSession {}, [])
    (fun t => t.1.pending.nextClass = some .interactive ∧ t.1.InteractiveWaits)
    (openingBoth ++ [.write 1 [8], .write 1 [9], .write 0 [7], .select]) (by decide +kernel)
  exact ⟨t, hrc, hcl, hw, (data_prioritised_iff hrc).1⟩

end Session

end Espejismo.Mux
