import Espejismo.Data.Machine
import Espejismo.Mux.Native.Simulation

/-!
# Mux.Native.Limits

The limits of a session, whatever its handles ask and its peer sends: the number of
streams in the table, the send slots of a stream, the queue of pending frames, the end
of new streams once the session drains, and the ids it gives to the streams that it
opens itself.
-/

namespace Espejismo.Mux

open Binary Machine List

/-! ## Send slots -/

def FlowState.Within (flow : FlowState) : Prop := flow.queuedSendFrames ≤ flow.sendQueueLimit

theorem FlowState.within_releaseSendSlot {flow : FlowState} (h : flow.Within) :
    flow.releaseSendSlot.Within := Nat.le_trans (Nat.sub_le _ 1) h

theorem NativeStream.Call.within {st : NativeStream} (h : st.Call senders tx op st' tx')
    (hst : st.flow.Within) : st'.flow.Within := by
  cases h with
  | wrote _ _ _ _ _ hsl => exact hsl
  | copied hfl | finished hfl => cases hfl <;> exact hst
  | _ => exact hst

namespace Session

variable {S S' T : Session} {e : Session.Event}

def SlotsWithin (S : Session) : Prop :=
  ∀ (r : Ref) (st : NativeStream), S.handles[r]? = some st → st.flow.Within

namespace SlotsWithin

theorem of_eq (hs : S.SlotsWithin) (h : S'.handles = S.handles) : S'.SlotsWithin := by
  intro r st hge
  exact hs r st (h ▸ hge)

variable {r : Ref}

theorem of_set (hs : S.SlotsWithin) (h : S'.handles = S.handles.set r st')
    (hst' : st'.flow.Within) :
    S'.SlotsWithin := by
  intro r' st hge
  rw [h] at hge
  obtain hold | rfl := mem_or_eq_of_mem_set (mem_of_getElem? hge)
  · obtain ⟨i, hi⟩ := mem_iff_getElem?.mp hold
    exact hs i st hi
  · exact hst'

theorem of_modify (hs : S.SlotsWithin) (h : S'.handles = S.handles.modify r g)
    (hg : ∀ st, st.flow.Within → (g st).flow.Within) : S'.SlotsWithin := by
  intro r' st' hge
  rw [h, getElem?_modify, Option.map_eq_map, Option.map_eq_some_iff] at hge
  obtain ⟨st, hst, rfl⟩ := hge
  split
  · exact hg st (hs r' st hst)
  · exact hs r' st hst

theorem of_modifyFlow (hs : S.SlotsWithin) {id : UInt32}
    (hT : T.handles = S.handles) (h : S'.handles = (T.modifyFlow id g).handles)
    (hg : ∀ flow, flow.Within → (g flow).Within) : S'.SlotsWithin := by
  unfold modifyFlow at h
  cases hr : T.streams.lookup id with
  | none =>
    simp only [hr, hT] at h
    exact hs.of_eq h
  | some =>
    simp only [hr, hT] at h
    exact hs.of_modify h fun st => hg st.flow

theorem leave (hs : S.SlotsWithin) : S.leave.SlotsWithin := by
  intro r st' hge
  simp only [Session.leave, stop, getElem?_mapIdx, Option.map_eq_some_iff] at hge
  obtain ⟨st, hst, rfl⟩ := hge
  split
  · exact hs r st hst
  · exact hs r st hst

theorem dropHandles (hs : S.SlotsWithin) (refs : List Ref) : (S.dropHandles refs).SlotsWithin := by
  induction refs generalizing S with
  | nil => exact hs
  | cons r refs ih =>
    have hhe : (S.dropHandles [r]).SlotsWithin := by
      cases hge : S.handles[r]? with
      | none => exact hs.of_eq (by simp [Session.dropHandles, dropOne, hge])
      | some st =>
        have hha : (S.dropHandles [r]).handles = S.handles.set r (st.drop S.commands).1 := by
          simp [Session.dropHandles, dropOne, hge]
        exact hs.of_set hha ((NativeStream.call_drop false st S.commands).within (hs r st hge))
    exact ih hhe

theorem append (hs : S.SlotsWithin) (hst' : st'.flow.Within) (h : S'.handles = S.handles ++ [st']) :
    S'.SlotsWithin := by
  intro r st hge
  rw [h] at hge
  obtain hold | hnw := mem_append.mp (mem_of_getElem? hge)
  · obtain ⟨i, hi⟩ := mem_iff_getElem?.mp hold
    exact hs i st hi
  · rw [mem_singleton.mp hnw]
    exact hst'

theorem step (hs : S.SlotsWithin) (h : Step S e S') : S'.SlotsWithin := by
  cases h with
  | accepted => exact hs.of_modify rfl fun _ => id
  | sessionDropped | acceptFailed | acceptAborted => exact (hs.dropHandles _).of_eq rfl
  | called _ hge _ hca => exact hs.of_set rfl (hca.within (hs _ _ hge))
  | stopped | readerEnded | reported =>
    exact SlotsWithin.leave (hs.of_eq rfl)
  | writeFailed | expired => exact hs.leave
  | @written queuedStream =>
    cases queuedStream with
    | none => exact hs.of_eq rfl
    | some =>
      exact hs.of_modifyFlow rfl rfl fun _ => FlowState.within_releaseSendSlot
  | opened | admitted => exact hs.append (Nat.zero_le _) rfl
  | granted =>
    exact hs.of_modifyFlow (g := (·.addWindow _)) rfl rfl fun _ => id
  | closed => exact hs.of_modifyFlow rfl rfl fun _ => id
  | @delivered r payload st _ hge => exact hs.of_set rfl (hs r st hge : st.flow.Within)
  | _ => exact hs.of_eq rfl

end SlotsWithin

/-! ## Opening a stream -/

inductive Answer (S S' : Session) : Prop
  | refused {reason : Error} (hids : S'.nextStreamId = S.nextStreamId)
      (hsr : S'.streams = S.streams) (hre : S'.replies = S.replies ++ [.error reason])
      (hwh : S.drainingSince.isSome = true ∧ reason = .msg "native mux is draining" ∨
        S.config.maxStreams ≤ S.streams.entries.length ∧
          reason = .msg "native mux max streams reached")
  | exhausted (hd : S.drainingSince = none)
      (hro : S.streams.entries.length < S.config.maxStreams) (hm : u32Max < S.nextStreamId)
      (hids : S'.nextStreamId = S.nextStreamId) (hsr : S'.streams = S.streams)
      (hre : S'.replies = S.replies ++ [.error (.msg "native mux stream id exhausted")])
  | collision (hd : S.drainingSince = none)
      (hro : S.streams.entries.length < S.config.maxStreams) (hm : S.nextStreamId ≤ u32Max)
      (hids : S'.nextStreamId = S.nextStreamId + 2) (hsr : S'.streams = S.streams)
      (hre : S'.replies = S.replies ++ [.error (.msg "native mux stream id collision")])
  | opened (hd : S.drainingSince = none)
      (hro : S.streams.entries.length < S.config.maxStreams) (hm : S.nextStreamId ≤ u32Max)
      (hids : S'.nextStreamId = S.nextStreamId + 2)
      (hsr : S'.streams = S.streams.insert (UInt32.ofNat S.nextStreamId) S.handles.length)
      (hre : S'.replies = S.replies ++ [.ok S.handles.length])

variable {since : Nat} {items : List Command}

theorem Answer.of_continueWith (h : Answer S T) : Answer S (T.continueWith effect) := by
  cases effect <;> cases h with
  | refused hids hsr hre hwh => exact .refused hids hsr hre hwh
  | exhausted hd hro hm hids hsr hre =>
    exact .exhausted hd hro hm hids hsr hre
  | collision hd hro hm hids hsr hre =>
    exact .collision hd hro hm hids hsr hre
  | opened hd hro hm hids hsr hre =>
    exact .opened hd hro hm hids hsr hre

theorem eq_of_select (hph : S.phase = .selecting since) (him : S.commands.items = c :: items)
    (hru : (handleCommand c).run (S.takeCommand items) = .ok effect T)
    (h : S.step .select = some S') : S' = T.continueWith effect := by
  have hse : S.step .select = some (S.selectCommand since) := by
    simp [step, select, hph]
  have hcm : S.selectCommand since = T.continueWith effect := by
    unfold selectCommand
    split
    · next hni =>
      rw [hni] at him
      cases him
    · next c' items' hcn =>
      rw [hcn] at him
      cases him
      rw [show (handleCommand c).run { S with commands := { S.commands with items } } = _ from hru]
  rw [hse, hcm] at h
  exact (Option.some.inj h).symm

theorem answer_of_step (hs : S.Sane)
    (hph : S.phase = .selecting since) (him : S.commands.items = .open priority :: items)
    (h : S.step .select = some S') : Answer S S' := by
  have he : (S.takeCommand items).pending.toList = [] := hs.pending_nil (by simp [hph])
  cases hd : S.drainingSince.isSome with
  | true =>
    rw [eq_of_select hph him (run_open_draining priority hd) h]
    exact .of_continueWith (.refused rfl rfl rfl (.inl ⟨hd, rfl⟩))
  | false =>
    have hn : S.drainingSince = none := by simpa using hd
    by_cases hfu : S.config.maxStreams ≤ S.streams.entries.length
    · rw [eq_of_select hph him (run_open_full priority hd hfu) h]
      exact .of_continueWith (.refused rfl rfl rfl (.inr ⟨hfu, rfl⟩))
    have hro := Nat.lt_of_not_le hfu
    by_cases hm : S.nextStreamId ≤ u32Max
    · by_cases hme : UInt32.ofNat S.nextStreamId ∈ S.streams
      · rw [eq_of_select hph him (run_open_collision priority hd hfu hm hme) h]
        exact .of_continueWith (.collision hn hro hm rfl rfl rfl)
      obtain ⟨pending, -, hru⟩ := run_open (S := S.takeCommand items) priority hd hfu hm hme he
      rw [eq_of_select hph him hru h]
      exact .of_continueWith (.opened hn hro hm rfl rfl rfl)
    · have hexhausted := Nat.lt_of_not_le hm
      rw [eq_of_select hph him (run_open_exhausted priority hd hfu hexhausted) h]
      exact .of_continueWith (.exhausted hn hro hexhausted rfl rfl rfl)

/-! ## The table -/

theorem length_insert_le (streams : AList fun _ : UInt32 => Ref) (id : UInt32) (r : Ref) :
    (streams.insert id r).entries.length ≤ streams.entries.length + 1 := by
  exact Nat.succ_le_succ (kerase_sublist id _).length_le

theorem length_erase_le (streams : AList fun _ : UInt32 => Ref) (id : UInt32) :
    (streams.erase id).entries.length ≤ streams.entries.length :=
  (kerase_sublist id _).length_le

theorem table_step (hs : S.Sane) (hl : S.streams.entries.length ≤ S.config.maxStreams)
    (h : S.step e = some S') : S'.streams.entries.length ≤ S.config.maxStreams := by
  have hsp := step_cases hs h
  cases hsp with
  | opened hph him =>
    cases answer_of_step hs hph him h with
    | opened _ hro =>
      exact Nat.le_trans (length_insert_le _ _ _) hro
    | refused _ hsr | exhausted _ _ _ _ hsr | collision _ _ _ _ hsr =>
      rw [hsr]
      exact hl
  | admitted _ _ _ _ hro => exact Nat.le_trans (length_insert_le _ _ _) hro
  | resetSent | closed => exact Nat.le_trans (length_erase_le _ _) hl
  | stopped | writeFailed | expired | readerEnded | reported | aborted | acceptAborted =>
    exact Nat.zero_le _
  | @written queuedStream => cases queuedStream <;> exact hl
  | _ => exact hl

/-! ## Draining -/

theorem draining_queue {pending : PendingFrames} (h : S.drainingSince.isSome = true) :
    (S.queue pending effect).drainingSince.isSome = true := by
  cases effect with
  | «continue» => exact h
  | startDrain => simp [queue, drainAfter]

theorem draining_step (hs : S.Sane) (hd : S.drainingSince.isSome = true)
    (h : S.step e = some S') : S'.drainingSince.isSome = true ∧
      ∀ id r, S'.streams.lookup id = some r → S.streams.lookup id = some r := by
  cases step_cases hs h with
  | opened _ _ hn | admitted _ _ _ hn =>
    rw [hn] at hd
    cases hd
  | resetSent => exact ⟨draining_queue hd, lookup_of_erase S _⟩
  | closed => exact ⟨hd, lookup_of_erase S _⟩
  | stopped | writeFailed | expired | readerEnded | reported | aborted | acceptAborted =>
    exact ⟨hd, fun _ _ h => by cases h⟩
  | @written queuedStream => cases queuedStream <;> exact ⟨hd, fun _ _ h => h⟩
  | openFailed | dataSent | dataDiscarded | controlSent | idled | refused | pinged | ponged
  | goneAway => exact ⟨draining_queue hd, fun _ _ h => h⟩
  | _ => exact ⟨hd, fun _ _ h => h⟩

/-! ## Ids -/

/-- The ids of the streams the application was given when it asked for one. -/
def opened (S : Session) : List UInt32 :=
  S.replies.filterMap fun reply => reply.toOption.bind S.idOf

/-- The ids of the OPEN frames that were sent or wait to be. -/
def opens (S : Session) : List UInt32 :=
  (S.outgoing.filter (·.kind = .open)).map (·.streamId)

theorem opens_eq (h : S'.outgoing = S.outgoing) : S'.opens = S.opens := by
  rw [opens, h, opens]

theorem opens_queue {pending : PendingFrames} {p : PendingFrame} (he : S.pending.toList = [])
    (hpe : pending.toList = [p]) (ht : T.transmitted = S.transmitted)
    (hki : p.frame.kind ≠ .open) : (T.queue pending effect).opens = S.opens := by
  simp [opens, outgoing_queue he hpe ht, hki]

theorem idOf_step {r : Ref} {id : UInt32} (h : Step S e S') (hid : S.idOf r = some id) :
    S'.idOf r = some id := by
  have hu : ∀ {g}, Updates S S' g → S'.idOf r = some id := fun hg => (hg.idOf r).trans hid
  have hnw : ∀ {st}, S'.handles = S.handles ++ [st] → S'.idOf r = some id := by
    intro st hha
    obtain ⟨old, hge, rfl⟩ := Option.map_eq_some_iff.mp hid
    have hlt := (List.getElem?_eq_some_iff.mp hge).1
    rw [idOf, hha, getElem?_append_left hlt, hge, Option.map_some]
  cases h with
  | accepted =>
    exact hu (.of_modify (f := fun st => { st with holder := .application }) (fun _ => rfl) rfl)
  | sessionDropped =>
    obtain ⟨g, hg⟩ := updates_dropHandles S (S.accepts.items.filterMap Except.toOption)
    exact hu ⟨hg.id_eq, hg.handles⟩
  | @acceptFailed r | @acceptAborted r =>
    obtain ⟨g, hg⟩ := updates_dropHandles S [r]
    exact hu ⟨hg.id_eq, hg.handles⟩
  | called _ hge _ hca => exact hu (.of_set hge hca.id_eq rfl)
  | stopped | writeFailed | expired | readerEnded | reported => exact hu (updates_leave rfl rfl)
  | @written queuedStream =>
    cases queuedStream with
    | none => exact hu (.of_eq rfl)
    | some id =>
      obtain ⟨g, hg⟩ := updates_modifyFlow rfl id .releaseSendSlot
      exact hu ⟨hg.id_eq, hg.handles⟩
  | @granted _ f =>
    obtain ⟨g, hg⟩ := updates_modifyFlow rfl f.streamId (·.addWindow (decodeBE f.payload))
    exact hu ⟨hg.id_eq, hg.handles⟩
  | @closed _ f =>
    obtain ⟨g, hg⟩ := updates_modifyFlow rfl f.streamId .close
    exact hu ⟨hg.id_eq, hg.handles⟩
  | opened | admitted => exact hnw rfl
  | @delivered _ payload st _ hge =>
    have hid : { st with rx := st.rx.push payload }.id = st.id := rfl
    exact hu (.of_set hge hid rfl)
  | _ => exact hu (.of_eq rfl)

/-- A step that gives no stream to the application and sends no OPEN. -/
structure OpensNone (S S' : Session) : Prop where
  opens : S'.opens = S.opens
  replies : ∃ errors : List Error, S'.replies = S.replies ++ errors.map .error
  next : S'.drainingSince = none → S.drainingSince = none ∧ S'.nextStreamId = S.nextStreamId

/-- A step that opens a stream: the application is given a handle with the next id, and an
OPEN with that id is queued. -/
structure OpensOne (S S' : Session) : Prop where
  running : S.drainingSince = none
  fits : S.nextStreamId ≤ u32Max
  next : S'.nextStreamId = S.nextStreamId + 2
  opens : S'.opens = S.opens ++ [UInt32.ofNat S.nextStreamId]
  replies : S'.replies = S.replies ++ [.ok S.handles.length]
  handle : S'.idOf S.handles.length = some (UInt32.ofNat S.nextStreamId)

theorem drainingSince_eq_none (effect : Effect) (h : S.drainAfter effect = none) :
    S.drainingSince = none := by
  cases effect with
  | «continue» => exact h
  | startDrain => simp [drainAfter] at h

theorem opens_step (hs : S.Sane) (h : Step S e S') : OpensNone S S' ∨ OpensOne S S' := by
  have hke (hos : S'.opens = S.opens) (hrp : S'.replies = S.replies)
      (hd : S'.drainingSince = none → S.drainingSince = none)
      (hne : S'.nextStreamId = S.nextStreamId) : OpensNone S S' ∨ OpensOne S S' :=
    .inl ⟨hos, ⟨[], by simp [hrp]⟩, fun h => ⟨hd h, hne⟩⟩
  have he (hph : S.phase ≠ .flushing) : S.pending.toList = [] := hs.pending_nil hph
  cases h with
  | popped hph hp hpe =>
    exact hke (opens_eq (by simp [outgoing, hp, hpe])) rfl id rfl
  | stopped hph hp hpe | entered hph hp hpe =>
    exact hke (opens_eq (by simp [outgoing, leave, stop, hp, hpe])) rfl id rfl
  | @written queuedStream => cases queuedStream <;> exact hke rfl rfl id rfl
  | openFailed _ _ hne =>
    refine .inl ⟨rfl, ⟨[_], rfl⟩, fun h => ⟨drainingSince_eq_none _ h, ?_⟩⟩
    rcases hne with rfl | ⟨-, rfl⟩
    · rfl
    · simp [queue, drainAfter] at h
  | @opened _ priority _ streamId pending hph _ hd hid _ hpe =>
    have hsm : UInt32.ofNat S.nextStreamId = streamId := by rw [← hid, UInt32.ofNat_toNat]
    refine .inr ⟨hd, ?_, rfl, ?_, rfl, ?_⟩
    · rw [← hid]
      exact Nat.le_of_lt_succ streamId.toNat_lt
    · rw [hsm]
      simp [opens, outgoing, queue, sendReply, insertStream, takeCommand, hpe,
        he (by simp [hph])]
    · rw [hsm]
      simp [idOf, queue, sendReply, insertStream, newStream, takeCommand]
  | dataSent hph _ _ hpe | resetSent hph _ hpe | refused hph _ _ hpe
  | pinged hph _ _ _ hpe =>
    exact hke (opens_queue (he (by simp [hph])) hpe rfl (by simp)) rfl id rfl
  | idled hph _ _ hpe =>
    exact hke (opens_queue (he (by simp [hph])) hpe rfl (by simp)) rfl
      (drainingSince_eq_none .startDrain) rfl
  | @controlSent _ c f _ _ _ _ hph _ hf hpe =>
    have hki : f.kind ≠ .open := by
      cases c <;> cases hf <;> simp
    exact hke (opens_queue (he (by simp [hph])) hpe rfl hki) rfl (drainingSince_eq_none _) rfl
  | goneAway => exact hke rfl rfl (drainingSince_eq_none .startDrain) rfl
  | _ => exact hke rfl rfl id rfl

/-- The ids so far are the first one and every second one after it. -/
structure Counting (first : UInt32) (S : Session) : Prop where
  given : ∀ r, .ok r ∈ S.replies → (S.idOf r).isSome
  frames : S.opens = S.opened
  ids : S.opened = (List.range S.opened.length).map fun k => UInt32.ofNat (first.toNat + 2 * k)
  fits : ∀ k < S.opened.length, first.toNat + 2 * k ≤ u32Max
  next : S.drainingSince = none → S.nextStreamId = first.toNat + 2 * S.opened.length

theorem opened_append (hS : Counting first S) (h : Step S e S')
    (hrp : S'.replies = S.replies ++ l) :
    S'.opened = S.opened ++ l.filterMap fun reply => reply.toOption.bind S'.idOf := by
  rw [opened, hrp, filterMap_append]
  refine congrArg (· ++ _) (filterMap_congr fun reply hre => ?_)
  cases reply with
  | error => rfl
  | ok r =>
    obtain ⟨id, hid⟩ := Option.isSome_iff_exists.mp (hS.given r hre)
    exact (idOf_step h hid).trans hid.symm

theorem Counting.step (hs : S.Sane) (hS : Counting first S) (h : Step S e S') :
    Counting first S' := by
  have hgi : ∀ r, .ok r ∈ S.replies → (S'.idOf r).isSome := by
    intro r hr
    obtain ⟨id, hid⟩ := Option.isSome_iff_exists.mp (hS.given r hr)
    exact Option.isSome_iff_exists.mpr ⟨id, idOf_step h hid⟩
  rcases opens_step hs h with hn | ho
  · obtain ⟨errors, hrp⟩ := hn.replies
    have hsa : S'.opened = S.opened := by
      rw [opened_append hS h hrp]
      simp [filterMap_map, Except.toOption]
    refine ⟨fun r hr => hgi r ?_, by rw [hn.opens, hS.frames, hsa], by rw [hsa]; exact hS.ids,
      by rw [hsa]; exact hS.fits, fun hd => ?_⟩
    · simpa [hrp] using hr
    · obtain ⟨hold, hne⟩ := hn.next hd
      rw [hsa, hne, hS.next hold]
  · have hne := hS.next ho.running
    have hmo : S'.opened = S.opened ++ [UInt32.ofNat S.nextStreamId] := by
      rw [opened_append hS h ho.replies]
      simp [Except.toOption, ho.handle]
    refine ⟨fun r hr => ?_, by rw [ho.opens, hS.frames, hmo], ?_, fun k hk => ?_, fun _ => ?_⟩
    · rw [ho.replies, mem_append, mem_singleton] at hr
      rcases hr with hr | hr
      · exact hgi r hr
      · cases hr
        simp [ho.handle]
    · rw [hmo, length_append, length_singleton, range_succ, map_append, ← hS.ids, hne]
      rfl
    · have := ho.fits
      rw [hmo, length_append, length_singleton] at hk
      omega
    · rw [ho.next, hmo, length_append, length_singleton]
      omega

structure Numbered (first : UInt32) (ids : List UInt32) : Prop where
  increasing : ids.Pairwise (· < ·)
  parity : ∀ id ∈ ids, id.toNat % 2 = first.toNat % 2
  gapless : ∀ last ∈ ids, ∀ id : UInt32, first ≤ id → id ≤ last →
    id.toNat % 2 = first.toNat % 2 → id ∈ ids

namespace Counting

variable {first : UInt32} {id : UInt32}

theorem toNat_id (hS : Counting first S) (hk : k < S.opened.length) :
    (UInt32.ofNat (first.toNat + 2 * k)).toNat = first.toNat + 2 * k := by
  have := hS.fits k hk
  exact UInt32.toNat_ofNat_of_lt' (Nat.lt_of_le_of_lt this (by decide))

theorem mem_iff (hS : Counting first S) :
    id ∈ S.opened ↔ ∃ k < S.opened.length, id.toNat = first.toNat + 2 * k := by
  constructor
  · intro hid
    rw [hS.ids, mem_map] at hid
    obtain ⟨k, hk, rfl⟩ := hid
    rw [mem_range] at hk
    exact ⟨k, hk, hS.toNat_id hk⟩
  · rintro ⟨k, hk, heq⟩
    rw [hS.ids, mem_map]
    refine ⟨k, mem_range.mpr hk, ?_⟩
    exact UInt32.toNat_inj.mp ((hS.toNat_id hk).trans heq.symm)

theorem increasing (hS : Counting first S) : S.opened.Pairwise (· < ·) := by
  rw [hS.ids, pairwise_map]
  refine pairwise_lt_range.imp_of_mem fun {j k} hj hk hlt => ?_
  rw [mem_range] at hj hk
  rw [UInt32.lt_iff_toNat_lt, hS.toNat_id hj, hS.toNat_id hk]
  omega

theorem numbered (hS : Counting first S) : Numbered first S.opened where
  increasing := hS.increasing
  parity id hid := by
    obtain ⟨k, -, hk⟩ := hS.mem_iff.mp hid
    omega
  gapless last hla id hfi hl hpa := by
    obtain ⟨k, hk, hla⟩ := hS.mem_iff.mp hla
    rw [UInt32.le_iff_toNat_le] at hfi hl
    exact hS.mem_iff.mpr ⟨(id.toNat - first.toNat) / 2, by omega, by omega⟩

theorem mem_of_exhausted (hS : Counting first S) (hd : S.drainingSince = none)
    (hm : u32Max < S.nextStreamId) (hfi : first ≤ id) (hpa : id.toNat % 2 = first.toNat % 2) : id ∈
      S.opened := by
  rw [hS.next hd] at hm
  rw [UInt32.le_iff_toNat_le] at hfi
  have hid : id.toNat ≤ u32Max := Nat.le_of_lt_succ id.toNat_lt
  exact hS.mem_iff.mpr ⟨(id.toNat - first.toNat) / 2, by omega, by omega⟩

end Counting

theorem exhausted_step (hs : S.Sane) (h : S.step .select = some S')
    (hre : S'.replies = S.replies ++ [.error (.msg "native mux stream id exhausted")]) :
    S.drainingSince = none ∧ u32Max < S.nextStreamId := by
  have hoh {replies : List (Except Error Ref)} {reply : Except Error Ref}
      (h : replies = replies ++ [reply]) : False := by
    have := congrArg List.length h
    simp at this
  cases step_cases hs h with
  | openFailed hph him | opened hph him =>
    cases answer_of_step hs hph him h with
    | exhausted hd _ hm => exact ⟨hd, hm⟩
    | refused _ _ hre' hwh =>
      rw [hre'] at hre
      obtain ⟨-, rfl⟩ | ⟨-, rfl⟩ := hwh <;> simp at hre
    | collision _ _ _ _ _ hre' | opened _ _ _ _ _ hre' =>
      rw [hre'] at hre
      simp at hre
  | asked hc => cases hc
  | called hca => cases hca
  | _ => exact (hoh hre).elim

/-! ## Every run -/

structure Limited (first : UInt32) (config : NativeMuxConfig) (S : Session) : Prop where
  sane : S.Sane
  config : S.config = sanitizeConfig config
  table : S.streams.entries.length ≤ S.config.maxStreams
  slots : S.SlotsWithin
  counting : Counting first S

variable {first : UInt32} {config : NativeMuxConfig}

theorem limited_start (first : UInt32) (config : NativeMuxConfig) :
    Limited first config (start first config) where
  sane := sane_start first config
  config := rfl
  table := Nat.zero_le _
  slots := by simp [SlotsWithin, start]
  counting := ⟨by simp [start], rfl, rfl, by simp [opened, start], fun _ => rfl⟩

theorem Limited.step (hS : Limited first config S) (h : S.step e = some S') :
    Limited first config S' := by
  have hcs := step_cases hS.sane h
  have hco := config_step hcs
  refine ⟨hS.sane.step h, hco.trans hS.config, ?_, hS.slots.step hcs, hS.counting.step hS.sane hcs⟩
  rw [hco]
  exact table_step hS.sane hS.table h

theorem lookup_of_draining (hs : S.Sane) (hd : S.drainingSince.isSome = true)
    (h : Reach Session.step Any S S') (id : UInt32) (r : Ref)
    (hlo : S'.streams.lookup id = some r) : S.streams.lookup id = some r := by
  have hru := h.invariant (I := fun T => T.Sane ∧ T.drainingSince.isSome = true ∧
    ∀ id r, T.streams.lookup id = some r → S.streams.lookup id = some r)
    ⟨hs, hd, fun _ _ h => h⟩ fun T e T' hT _ hsp => by
      obtain ⟨hsn, hdr, hsu⟩ := hT
      obtain ⟨hdr', hsu'⟩ := draining_step hsn hdr hsp
      exact ⟨hsn.step hsp, hdr', fun id r hr => hsu id r (hsu' id r hr)⟩
  exact hru.2.2 id r hlo

/-- **The limits of a session** hold in every state of every run; the ids of the streams
it opened are those of its OPEN frames, and they are numbered. -/
theorem session_limits (h : Reach Session.step Any (start first config) S) :
    S.streams.entries.length ≤ max config.maxStreams 1 ∧
    (∀ st ∈ S.handles, st.flow.queuedSendFrames ≤ st.flow.sendQueueLimit) ∧
    S.pending.len ≤ S.pending.limit ∧
    (∀ since, S.phase = .selecting since ∨ S.phase = .polled since → S.pending.toList = []) ∧
    (S.drainingSince.isSome = true → ∀ S', Reach Session.step Any S S' →
      ∀ id r, S'.streams.lookup id = some r → S.streams.lookup id = some r) ∧
    Numbered first S.opened ∧ S.opens = S.opened ∧
    ∀ S', S.step .select = some S' →
      S'.replies = S.replies ++ [.error (.msg "native mux stream id exhausted")] →
        ∀ id : UInt32, first ≤ id → id.toNat % 2 = first.toNat % 2 → id ∈ S.opened := by
  have hS : Limited first config S :=
    h.invariant (limited_start first config) fun _ _ _ hS _ hsp => hS.step hsp
  refine ⟨?_, ?_, ?_, ?_, ?_, hS.counting.numbered, hS.counting.frames, ?_⟩
  · have hta := hS.table
    rw [hS.config] at hta
    exact hta
  · intro st hst
    obtain ⟨r, hr⟩ := mem_iff_getElem?.mp hst
    exact hS.slots r st hr
  · exact Nat.le_trans hS.sane.pending_le S.pending.limit_pos
  · intro since hph
    apply hS.sane.pending_nil
    obtain hph | hph := hph <;> simp [hph]
  · exact fun hd S' hrc => lookup_of_draining hS.sane hd hrc
  · intro S' hsp hre id hfi hpa
    obtain ⟨hd, hm⟩ := exhausted_step hS.sane hsp hre
    exact hS.counting.mem_of_exhausted hd hm hfi hpa

def openingTwice : List Event :=
  [.openStream .bulk, .openStream .interactive, .flush, .select, .flush, .transmit 10, .flush,
    .flush, .select]

theorem session_limits_openingTwice :
    ∃ S : Session, S.opened = [1, 3] ∧ S.handles.map (·.id) = [1, 3] ∧ Numbered 1 S.opened ∧
      S.opens = S.opened := by
  obtain ⟨S, hrc, hod, hids⟩ := exists_of_run Session.step Any (clientSession {})
    (fun S => S.opened = [1, 3] ∧ S.handles.map (·.id) = [1, 3]) openingTwice (by decide +kernel)
  have hli := (session_limits hrc).2.2.2.2.2
  exact ⟨S, hod, hids, hli.1, hli.2.1⟩

end Session

end Espejismo.Mux
