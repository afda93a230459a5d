import Mathlib.Algebra.GroupWithZero.Nat
import Espejismo.Mux.Native.Pair.Delivery

/-!
# Mux.Native.Pair.Credit

The window of a stream.  What a sender may still send, the bytes on their way to
the reader, what is held for it and the credit on its way back make up the
initial window, as long as each read and each write finds room in the command
channel: a write that is refused has used up credit, and a refused
WINDOW_UPDATE is not sent again.
-/

namespace Espejismo.Mux

open Binary Relation List Option

def grant (f : Frame) : Nat :=
  if f.kind = .windowUpdate ∧ f.payload.length = 4 then decodeBE f.payload else 0

def credits (frames : List Frame) : Nat := (frames.map grant).sum

def owed (commands : List Command) : Nat :=
  (commands.map fun
    | .windowUpdate _ amount => amount.toNat
    | _ => 0).sum

section Sums

variable {f : Frame}

@[simp] theorem credits_nil : credits [] = 0 := rfl

@[simp] theorem credits_append (fs gs : List Frame) :
    credits (fs ++ gs) = credits fs + credits gs := by
  simp [credits]

@[simp] theorem credits_single (f : Frame) : credits [f] = grant f := by
  simp [credits]

@[simp] theorem owed_nil : owed [] = 0 := rfl

@[simp] theorem owed_append (cs ds : List Command) : owed (cs ++ ds) = owed cs + owed ds := by
  simp [owed]

theorem owed_cons (c : Command) (cs : List Command) : owed (c :: cs) = owed [c] + owed cs :=
  owed_append [c] cs

theorem credits_le_of_isPrefix (h : fs <+: gs) : credits fs ≤ credits gs := by
  obtain ⟨rest, rfl⟩ := h
  simp

theorem grant_of_ne (h : f.kind ≠ .windowUpdate) : grant f = 0 := by
  simp [grant, h]

theorem grant_of_controlFrame (hf : Session.controlFrame c = some f) : grant f = owed [c] := by
  cases c with
  | windowUpdate id amount =>
    cases hf
    have hlt : amount.toNat < 256 ^ 4 := amount.toNat_lt
    simp [grant, owed, decodeBE_encodeBE hlt]
  | _ => cases hf <;> rfl

end Sums

/-! ## Calls -/

namespace NativeStream

variable {st st' : NativeStream}

theorem Refill.credit_eq (h : Refill st st') :
    st'.pendingWindowUpdate = st.pendingWindowUpdate ∧ st'.obtained = st.obtained := by
  cases h <;> exact ⟨rfl, rfl⟩

def Balance (st st' : NativeStream) (added : List Command) : Prop :=
  owed added + st'.pendingWindowUpdate + st.obtained.length =
    st'.obtained.length + st.pendingWindowUpdate

theorem Balance.of_eq (hcd : st'.pendingWindowUpdate = st.pendingWindowUpdate)
    (ho : st'.obtained = st.obtained) (how : owed added = 0) : Balance st st' added := by
  unfold Balance
  rw [ho]
  omega

theorem Call.returns (h : Call senders st tx op st' tx') (ht : op ≠ .drop → st.Tidy) :
    ∃ added, tx'.items = tx.items ++ added ∧
      (Balance st st' added ∨ (op = .read ∧ ¬ tx.HasRoom ∧ added = [] ∧
        st'.pendingWindowUpdate = 0 ∧ st.obtained.length ≤ st'.obtained.length)) := by
  cases h with
  | copied hfi =>
    obtain ⟨hcd, ho⟩ := hfi.credit_eq
    refine ⟨[], by simp, .inl ?_⟩
    simp only [Balance, owed_nil, length_append, length_take, ho]
    omega
  | finished hfi =>
    rename_i st₁
    obtain ⟨hcd, ho⟩ := hfi.credit_eq
    have hti := ((ht (by simp)).refill hfi).1
    have hlen : st₁.unread.length = st₁.readBuf.length - st₁.readOffset := by simp [unread]
    have hoff := hti.offset
    have hpen := hti.credit
    have hnat : (UInt32.ofNat st₁.readBuf.length).toNat = st₁.readBuf.length := by
      apply UInt32.toNat_ofNat_of_lt'
      have hbu := hti.buffer
      unfold maxPayload at hbu
      simp only [UInt32.size]
      omega
    obtain ⟨sent, heq, hs⟩ :=
      tx.getD_trySend (.windowUpdate st₁.id (UInt32.ofNat st₁.readBuf.length))
    refine ⟨sent, by rw [heq], ?_⟩
    rcases hs with ⟨rfl, -⟩ | ⟨rfl, hfu⟩
    · simp only [Balance, owed, map_cons, map_nil, sum_cons, sum_nil, length_append, ho]
      omega
    · exact .inr ⟨rfl, hfu, rfl, rfl, by simp [ho]⟩
  | eof _ hur =>
    obtain ⟨-, -, hze⟩ := (ht (by simp)).empty_of_unread hur
    exact ⟨[], by simp, .inl (.of_eq hze.symm rfl rfl)⟩
  | shut =>
    obtain ⟨sent, heq, hs⟩ := tx.getD_trySend (.fin st.id)
    have how : owed sent = 0 := by rcases hs with ⟨rfl, -⟩ | ⟨rfl, -⟩ <;> rfl
    exact ⟨sent, by rw [heq], .inl (.of_eq rfl rfl how)⟩
  | dropped =>
    by_cases hlo : st.localClosed = true
    · rw [if_pos hlo]
      exact ⟨[], by simp, .inl (.of_eq rfl rfl rfl)⟩
    rw [if_neg hlo]
    obtain ⟨sent, heq, hs⟩ := tx.getD_trySend (.rst st.id)
    have how : owed sent = 0 := by rcases hs with ⟨rfl, -⟩ | ⟨rfl, -⟩ <;> rfl
    exact ⟨sent, by rw [heq], .inl (.of_eq rfl rfl how)⟩
  | wrote => exact ⟨_, rfl, .inl (.of_eq rfl rfl rfl)⟩
  | _ => exact ⟨[], by simp, .inl (.of_eq rfl rfl rfl)⟩

theorem Call.spends (h : Call senders st tx op st' tx') (hro : op = .write → tx.HasRoom) :
    st'.flow.available + st'.written.flatten.length =
      st.flow.available + st.written.flatten.length := by
  cases h with
  | wrote =>
    simp only [flatten_append, length_append, flatten_singleton]
    omega
  | writeRefused _ _ _ hfu => exact absurd (hro rfl) hfu
  | copied hfi | finished hfi => cases hfi <;> rfl
  | _ => rfl

end NativeStream

/-! ## One end of a stream -/

namespace Endpoint

variable {s : UInt32} {v v' : Endpoint} {config : NativeMuxConfig}

def unreturned (v : Endpoint) : Nat := (v.stream.map NativeStream.pendingWindowUpdate).getD 0

def got (v : Endpoint) : Nat := (v.stream.map fun st => st.obtained.length).getD 0

/-- The credit that went back, that is queued to go, and that will be. -/
def returned (v : Endpoint) : Nat := credits v.sent + owed v.commands + v.unreturned

def available (v : Endpoint) : Nat := (v.stream.map fun st => st.flow.available).getD 0

def spent (v : Endpoint) : Nat := v.written.flatten.length

theorem unreturned_touch (v : Endpoint) (g : FlowState → FlowState) :
    ((v.touch g).map NativeStream.pendingWindowUpdate).getD 0 = v.unreturned := by
  rw [unreturned, map_touch v fun _ => rfl]

theorem got_touch (v : Endpoint) (g : FlowState → FlowState) :
    ((v.touch g).map fun st : NativeStream => st.obtained.length).getD 0 = v.got := by
  rw [got, map_touch v fun _ => rfl]

/-- What a move does to the account of the reader: nothing, unless the session
ends. -/
structure Holds (v v' : Endpoint) : Prop where
  got : v'.got = v.got
  le : v'.returned ≤ v.returned
  eq : v'.status = .running → v'.returned = v.returned

theorem Holds.of_eq (hgo : v'.got = v.got) (hun : v'.unreturned = v.unreturned)
    (h : credits v'.sent + owed v'.commands = credits v.sent + owed v.commands) : Holds v v' := by
  have heq : v'.returned = v.returned := by rw [returned, returned, h, hun]
  exact ⟨hgo, Nat.le_of_eq heq, fun _ => heq⟩

theorem Holds.stop (hgo : v'.got = v.got) (hun : v'.unreturned = v.unreturned)
    (hs : v'.sent = v.sent) (hco : v'.commands = []) (hss : v'.status ≠ .running) :
    Holds v v' := by
  refine ⟨hgo, ?_, fun hru => absurd hru hss⟩
  simp [returned, hun, hs, hco]

theorem holds_drop (h : Called s tx .drop v v') : Holds v v' := by
  obtain ⟨st, st', tx', added, hst, -, hca, hi, rfl⟩ := h.exists_call
  have hke : st'.obtained = st.obtained ∧ st'.pendingWindowUpdate = st.pendingWindowUpdate := by
    cases hca <;> exact ⟨rfl, rfl⟩
  have how : owed added = 0 := by
    obtain ⟨added', hi', hb⟩ := hca.returns (by simp)
    rw [hi, append_cancel_left_eq] at hi'
    subst hi'
    rcases hb with hb | ⟨hrd, -⟩
    · simp only [NativeStream.Balance, hke] at hb
      omega
    · simp at hrd
  refine .of_eq ?_ ?_ ?_
  · simp [got, hst, hke]
  · simp [unreturned, hst, hke]
  · simp [how]

theorem holds_begun (hp : Pristine v)
    (hsr : v'.stream = some (Session.newStream config s priority holder))
    (hs : credits v'.sent = 0) (hco : v'.commands = v.commands) : Holds v v' := by
  refine .of_eq ?_ ?_ ?_
  · simp [got, hsr, hp.stream, Session.newStream]
  · simp [unreturned, hsr, hp.stream, Session.newStream]
  · simp [hs, hco, hp.sent]

theorem holds_move (h : Move Fresh config s v v') : Holds v v' := by
  cases h with
  | dropped h => exact holds_drop h
  | given hst | delivered hst =>
    exact .of_eq (by simp [got, hst]) (by simp [unreturned, hst]) rfl
  | released | granted | closed => exact .of_eq (got_touch ..) (unreturned_touch ..) rfl
  | opened _ hma => exact holds_begun (hma rfl) rfl (by simp [(hma rfl).sent, grant]) rfl
  | admitted _ _ _ hma => exact holds_begun (hma rfl) rfl (by simp [(hma rfl).sent]) rfl
  | dataSent hc | resetSent hc => exact .of_eq rfl rfl (by simp [hc, grant, owed])
  | dataDiscarded hc => exact .of_eq rfl rfl (by simp [hc, owed])
  | @controlSent c f rest hc _ hf =>
    refine .of_eq rfl rfl ?_
    rw [hc, owed_cons c rest, credits_append, credits_single, grant_of_controlFrame hf]
    simp only
    omega
  | announced _ hki =>
    refine .of_eq rfl rfl ?_
    rw [credits_append, credits_single, grant_of_ne (by rcases hki with h | h <;> simp [h])]
    rfl
  | refused => exact .of_eq rfl rfl (by simp [grant])
  | dataTaken | noted | deliveryFailed => exact .of_eq rfl rfl rfl
  | ended => exact .stop (got_touch ..) (unreturned_touch ..) rfl rfl (by simp)
  | aborted => exact .stop rfl rfl rfl rfl (by simp)

/-- No more credit is returned than bytes were read; and no less while the handle
is there and the session runs. -/
structure Returning (v : Endpoint) : Prop where
  le : v.returned ≤ v.got
  eq : v.status = .running → v.alive = true ∨ v.stream = none → v.returned = v.got

theorem running_move (h : Move may config s v v') (hru : v'.status = .running) :
    v.status = .running := by
  cases h with
  | dropped h =>
    cases h
    exact hru
  | ended | aborted => simp at hru
  | _ => exact hru

theorem alive_eq (v : Endpoint) : v.alive = v.stream.any fun st => st.rx.live := by
  rw [alive, buffer, Option.any_map]

theorem alive_touch (v : Endpoint) (g : FlowState → FlowState) :
    (v.touch g).any (fun st => st.rx.live) = v.alive := by
  rw [alive_eq, any_touch v fun _ => rfl]

theorem alive_move (h : Move may config s v v') (hl : v'.alive = true ∨ v'.stream = none) :
    v.alive = true ∨ v.stream = none := by
  have hto : ∀ g, v'.stream = v.touch g → v.alive = true ∨ v.stream = none := by
    intro g hg
    refine hl.imp (fun h => ?_) fun h => touch_eq_none (hg ▸ h)
    rw [← alive_touch v g, ← hg, ← alive_eq]
    exact h
  cases h with
  | dropped h =>
    cases h with
    | mk hst _ _ hca =>
      left
      rw [alive_some hst]
      exact hca.live (by simpa [alive, buffer] using hl)
  | given hst | delivered hst => simpa [alive, buffer, hst] using hl
  | released | granted | closed | ended => exact hto _ rfl
  | opened _ _ hnw | admitted _ _ _ _ hnw => exact .inr hnw
  | _ => exact hl

namespace Returning

theorem pristine (hp : Pristine v) : Returning v := by
  have hze : v.returned = 0 := by simp [returned, unreturned, hp.stream, hp.sent, hp.commands]
  have hgo : v.got = 0 := by simp [got, hp.stream]
  exact ⟨by rw [hze, hgo], fun _ _ => by rw [hze, hgo]⟩

theorem called (hv : Returning v) (ht : op ≠ .drop → ∀ st, v.stream = some st → st.Tidy)
    (hro : op = .read → tx.HasRoom) (h : Called s tx op v v') : Returning v' := by
  obtain ⟨st, st', tx', added, hst, -, hca, hi, rfl⟩ := h.exists_call
  obtain ⟨added', hi', hb⟩ := hca.returns fun hne => ht hne st hst
  rw [hi, append_cancel_left_eq] at hi'
  subst hi'
  rcases hb with hb | ⟨hrd, hfu, -⟩
  · have hle := hv.le
    have heq := hv.eq
    simp only [returned, unreturned, got, hst, map_some, getD_some] at hle heq
    simp only [NativeStream.Balance] at hb
    constructor
    · simp only [returned, unreturned, got, map_some, getD_some, owed_append]
      omega
    · intro hru hl
      have hold := heq hru (.inl ?_)
      · simp only [returned, unreturned, got, map_some, getD_some, owed_append]
        omega
      · rw [alive_some hst]
        exact hca.live (by simpa [alive, buffer] using hl)
  · exact absurd (hro hrd) hfu

theorem move (hv : Returning v) (h : Move Fresh config s v v') : Returning v' := by
  obtain ⟨hgo, hle, heq⟩ := holds_move h
  refine ⟨?_, ?_⟩
  · rw [hgo]
    exact Nat.le_trans hle hv.le
  · intro hru hl
    rw [hgo, heq hru]
    exact hv.eq (running_move h hru) (alive_move h hl)

end Returning

/-! ## The writer -/

theorem available_touch (v : Endpoint) (g : FlowState → FlowState)
    (hg : ∀ flow, (g flow).available = flow.available) :
    ((v.touch g).map fun st : NativeStream => st.flow.available).getD 0 = v.available := by
  rw [available, map_touch v fun st => hg st.flow]

/-- What a writer has left and what it has used is its window with the credit that
came back. -/
def Spending (window : Nat) (v : Endpoint) : Prop :=
  v.attached = true → v.available + v.spent = window + credits v.handled

theorem spent_move (h : Move may config s v v') : v'.spent = v.spent := by
  rw [spent, written_move h, spent]

namespace Spending

variable {window : Nat}

theorem called (hv : Spending window v) (hro : op = .write → tx.HasRoom)
    (h : Called s tx op v v') : Spending window v' := by
  obtain ⟨st, st', tx', added, hst, -, hca, -, rfl⟩ := h.exists_call
  intro ha
  have hold := hv ha
  have hspe := hca.spends hro
  simp only [available, spent, written, hst, map_some, getD_some] at hold ⊢
  omega

theorem move (hwi : config.initialWindowBytes = window) (hmx : window ≤ usizeMax)
    (hk : Kept s v) (hv : Spending window v) (hev : credits v'.handled ≤ v'.spent)
    (h : Move Fresh config s v v') : Spending window v' := by
  have hsa : v'.available = v.available → credits v'.handled = credits v.handled →
      (v'.attached = true → v.attached = true) → Spending window v' := by
    intro hav hcr ha hin
    rw [hav, hcr, spent_move h]
    exact hv (ha hin)
  have hsp := spent_move h
  have hno : ∀ f : Frame, grant f = 0 → credits (v.handled ++ [f]) = credits v.handled := by
    intro f hf
    rw [credits_append, credits_single, hf, Nat.add_zero]
  cases h with
  | dropped h =>
    exact hv.called (by simp) h
  | given hst | delivered hst => exact hsa (by simp [available, hst]) rfl fun h => h
  | released => exact hsa (available_touch v _ fun _ => rfl) rfl fun h => h
  | opened _ hma =>
    intro _
    simp [available, spent, written, Session.newStream, FlowState.new, hwi, (hma rfl).handled]
  | admitted _ _ hki hma =>
    intro _
    simp [available, spent, written, Session.newStream, FlowState.new, hwi,
      (hma rfl).handled, grant, hki]
  | granted _ hki hlen =>
    rename_i f _
    intro ha
    have ha' : v.attached = true := ha
    have hold := hv ha'
    have hgra : grant f = decodeBE f.payload := by simp [grant, hki, hlen]
    simp only [hsp, credits_append, credits_single] at hev ⊢
    cases hst : v.stream with
    | none => simp [(hk.absent hst).2] at ha'
    | some st =>
      -- all credit that comes back was spent, so the counter does not saturate
      have hadd : satAdd st.flow.available (decodeBE f.payload) =
          st.flow.available + decodeBE f.payload := by
        apply satAdd_of_le
        simp only [available, hst, map_some, getD_some] at hold
        omega
      simp only [available, touch, ha', hst, map_some, getD_some, if_true,
        NativeStream.mapFlow, FlowState.addWindow, FlowState.wake] at hold ⊢
      omega
  | closed | resetSent | ended | aborted =>
    intro ha
    simp at ha
  | refused _ hki =>
    refine hsa rfl (hno _ (grant_of_ne ?_)) fun h => h
    rcases hki with h | h <;> simp [h.1]
  | dataTaken _ hki => exact hsa rfl (hno _ (grant_of_ne (by simp [hki]))) fun h => h
  | noted _ _ _ hw =>
    refine hsa rfl (hno _ ?_) fun h => h
    unfold grant
    rw [if_neg fun h => hw h.1 h.2]
  | _ => exact hsa rfl rfl fun h => h

end Spending

end Endpoint

/-! ## Both ends -/

namespace Pair

variable {P : Pair} {e : Pair.Event} {x : Side} {s : UInt32} {config : Side → NativeMuxConfig}

def Event.transfer? : Event → Option Side
  | .act x (.write _ _) | .act x (.read _ _) => some x
  | _ => none

/-- A read or write finds room in the command channel of its session. -/
def Roomy (P : Pair) (e : Event) : Prop := ∀ x ∈ e.transfer?, (P.session x).commands.HasRoom

instance (P : Pair) (e : Event) : Decidable (Roomy P e) :=
  inferInstanceAs (Decidable (∀ x ∈ e.transfer?, (P.session x).commands.HasRoom))

theorem Roomy.hasRoom (hok : Roomy P e) (ht : Takes e x se) (he : se.call? = some (r, op))
    (hop : op = .read ∨ op = .write) : (P.session x).commands.HasRoom := by
  rcases ht with ⟨rfl, -⟩ | ⟨result, -, rfl⟩
  · cases se with
    | write | read => exact hok x rfl
    | shutdown | drop =>
      cases he
      simp at hop
    | _ => cases he
  · cases he

structure Balanced (window : Side → Nat) (P : Pair) : Prop where
  sound : P.Sound
  returning : ∀ x s, ((P.session x).endpoint s).Returning
  spending : ∀ x s, ((P.session x).endpoint s).Spending (window x)

theorem credits_handled_le (hP : P.Sound) (hr : ∀ x s, ((P.session x).endpoint s).Returning)
    (x : Side) (s : UInt32) :
    credits ((P.session x).endpoint s).handled ≤ ((P.session x).endpoint s).spent := by
  have hcr := credits_le_of_isPrefix (hP.linked.joined.handled_isPrefix_peer x s)
  have hle := (hr x.peer s).le
  have hgo : ((P.session x.peer).endpoint s).got ≤ ((P.session x).endpoint s).spent := by
    unfold Endpoint.got
    cases hst : ((P.session x.peer).endpoint s).stream with
    | none => simp
    | some =>
      have hpr := hP.obtained_isPrefix hst
      rw [Side.peer_peer] at hpr
      exact hpr.length_le
  unfold Endpoint.returned at hle
  omega

theorem Balanced.step (hmx : ∀ x, window x ≤ usizeMax)
    (hP : P.Balanced window) (hcn : ∀ x, (P.session x).config.initialWindowBytes = window x)
    (hok : Roomy P e) (h : P.step e = some P') : P'.Balanced window := by
  have hso := hP.sound.step h
  have hre : ∀ x s, ((P'.session x).endpoint s).Returning := by
    intro x s
    refine hP.sound.keeps h ?_ (fun _ _ _ hv hm => hv.move hm) (hP.returning x s)
    intro se r op st ht he _ _ hca
    exact (hP.returning x s).called (fun _ _ hst => hP.sound.tidy hst)
      (fun hop => hok.hasRoom ht he (.inl hop)) hca
  refine ⟨hso, hre, ?_⟩
  intro x s
  -- along the moves of a step what was written stays the same
  have hke := hP.sound.keeps_of
    (I := fun v => v.spent = ((P'.session x).endpoint s).spent → v.Spending (window x))
    (fun _ _ hle hgs => Nat.le_trans (credits_le_of_isPrefix hle) hgs) h ?_ ?_
    (fun _ => hP.spending x s) (credits_handled_le hso hre x s)
  · exact hke rfl
  · intro se r op st ht he _ _ hca _
    exact (hP.spending x s).called (fun hop => hok.hasRoom ht he (.inr hop)) hca
  · intro v v' hv hI hQ hm hsp
    have hsp' := (Endpoint.spent_move hm).symm.trans hsp
    exact .move (hcn x) (hmx x) hv.kept (hI hsp') (hsp ▸ hQ) hm

theorem balanced_of_reach (hmx : ∀ x, (config x).initialWindowBytes ≤ usizeMax)
    (h : Machine.Reach step Roomy (connect config) P) :
    P.Balanced fun x => (sanitizeConfig (config x)).initialWindowBytes := by
  have hmx' : ∀ x, (sanitizeConfig (config x)).initialWindowBytes ≤ usizeMax := by
    intro x
    have := hmx x
    simp only [sanitizeConfig, usizeMax] at *
    omega
  refine h.invariant_of (J := fun P => ∀ x, (P.session x).config = sanitizeConfig (config x))
    (fun P hr => config_of_reach hr) ?_ ?_
  · refine ⟨sound_connect config, fun x s => .pristine (endpoint_connect config x s), ?_⟩
    intro x s ha
    simp [(endpoint_connect config x s).attached] at ha
  · intro P e P' hcn hP hok hste
    exact hP.step hmx' (fun x => by rw [hcn x]) hok hste

/-- **Credit conservation**: while each read and each write finds room in the
command channel, for every stream that both sides have in their tables and whose
reader was not dropped, the sender's credit, the bytes on their way to the reader
and held for it, and the credit on its way back make up the sender's window. -/
theorem credit_conserved (hmx : ∀ x, (config x).initialWindowBytes ≤ usizeMax)
    (h : Machine.Reach step Roomy (connect config) P) {r r' : Ref} {st st' : NativeStream}
    (hge : (P.session x).handles[r]? = some st)
    (hge' : (P.session x.peer).handles[r']? = some st') (hid : st'.id = st.id)
    (hon : st.id ∈ (P.session x).streams) (hon' : st.id ∈ (P.session x.peer).streams)
    (hl : st'.rx.live = true) :
    st.flow.available +
      (queuedData (commandsOf st.id (P.session x).commands.items)).flatten.length +
      (dataOf (P.underway x st.id)).flatten.length +
      (((P.session x.peer).arrivingOf st.id).getD []).length + st'.held.length +
      st'.pendingWindowUpdate + owed (commandsOf st.id (P.session x.peer).commands.items) +
      credits (P.underway x.peer st.id) = max (config x).initialWindowBytes 1 := by
  have hP := balanced_of_reach hmx h
  have hst := stream_of_handle hP.sound.linked hge
  have hst' := stream_of_handle hP.sound.linked hge'
  rw [hid] at hst'
  have ha : ((P.session x).endpoint st.id).attached = true := by simpa [Session.endpoint] using hon
  have ha' : ((P.session x.peer).endpoint st.id).attached = true := by
    simpa [Session.endpoint] using hon'
  have hen := hP.sound.ends x st.id
  have hen' := hP.sound.ends x.peer st.id
  have hru' : ((P.session x.peer).endpoint st.id).status = .running := by
    by_contra hne
    simp [hen'.kept.stopped hne] at ha'
  have hal := (Endpoint.alive_some hst').trans hl
  have hs := sent_eq hP.sound.linked.joined x st.id
  have hs' := sent_eq hP.sound.linked.joined x.peer st.id
  rw [Side.peer_peer] at hs'
  -- the four accounts
  have hsp := hP.spending x st.id ha
  have hrt := (hP.returning x.peer st.id).eq hru' (.inl hal)
  have hwr := hen.sending.whole ha
  have hrc := hen'.receiving.whole hal (.inl ha')
  have hln := congrArg (fun chunks : List (List UInt8) => chunks.flatten.length) hwr
  have hln' := congrArg List.length hrc
  rw [hs] at hln
  rw [Endpoint.received_some hst', hl] at hln'
  simp only [Endpoint.returned, hs', credits_append, Endpoint.unreturned, Endpoint.got, hst',
    map_some, getD_some] at hrt
  simp only [Endpoint.available, Endpoint.spent, hst, map_some, getD_some] at hsp
  simp only [dataOf_append, flatten_append, length_append, if_true] at hln hln'
  simp only [sanitizeConfig] at hsp
  simp only [Session.endpoint] at hsp hrt hln hln' ⊢
  omega

/-- A read whose WINDOW_UPDATE the full command channel refuses: one byte of the
window is gone. -/
theorem refused_update_loses_credit :
    ∃ P, Machine.Reach step Machine.Any
        (connect fun _ => { maxStreams := 1, sendQueueFrames := 1, initialWindowBytes := 10 }) P ∧
      1 ∈ (P.session .client).streams ∧ 1 ∈ (P.session .server).streams ∧
      (P.session .client).handles[0]?.map (fun st => (st.id, st.flow.available)) = some (1, 9) ∧
      (P.session .server).handles[0]?.map
        (fun st => (st.id, st.rx.live, st.held, st.pendingWindowUpdate)) = some (1, true, [], 0) ∧
      commandsOf 1 (P.session .client).commands.items = [] ∧ P.underway .client 1 = [] ∧
      commandsOf 1 (P.session .server).commands.items = [] ∧ P.underway .server 1 = [] :=
  Machine.exists_of_run _ _ _ _
    (opening ++ sending [7] ++ List.replicate 1033 (.act .server (.pingRtt 0)) ++
      [.act .server (.read 0 1)]) (by decide +kernel)

theorem credit_conserved_one_read :
    ∃ (P : Pair) (st st' : NativeStream), (P.session .client).handles[0]? = some st ∧
      (P.session .server).handles[0]? = some st' ∧ st'.obtained = [7] ∧
      st.flow.available + (queuedData
        (commandsOf st.id (P.session .client).commands.items)).flatten.length +
        (dataOf (P.underway .client st.id)).flatten.length +
        (((P.session .server).arrivingOf st.id).getD []).length + st'.held.length +
        st'.pendingWindowUpdate + owed (commandsOf st.id (P.session .server).commands.items) +
        credits (P.underway .server st.id) = 10 := by
  obtain ⟨P, hrh, hcl, hse, hon, hon'⟩ := Machine.exists_of_run step Roomy
    (connect fun _ => { initialWindowBytes := 10 })
    (fun P => (P.session .client).handles[0]?.map (fun st => st.id) = some 1 ∧
      (P.session .server).handles[0]?.map (fun st => (st.id, st.obtained, st.rx.live)) =
        some (1, [7], true) ∧ 1 ∈ (P.session .client).streams ∧ 1 ∈ (P.session .server).streams)
    (opening ++ sending [7, 8] ++ [.act .server (.read 0 1)]) (by decide +kernel)
  obtain ⟨st, hge, hid⟩ := map_eq_some_iff.mp hcl
  obtain ⟨st', hge', hst'⟩ := map_eq_some_iff.mp hse
  simp only [Prod.mk.injEq] at hst'
  obtain ⟨hid', ho, hl⟩ := hst'
  refine ⟨P, st, st', hge, hge', ho, ?_⟩
  exact credit_conserved (fun _ => by decide) hrh hge hge' (hid'.trans hid.symm)
    (hid ▸ hon) (hid ▸ hon') hl

end Pair

end Espejismo.Mux
