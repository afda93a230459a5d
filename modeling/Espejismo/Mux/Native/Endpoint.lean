import Mathlib.Logic.Relation
import Espejismo.Data.Keyed
import Espejismo.Mux.Native.Sane

/-!
# Mux.Native.Endpoint

One stream at one side, without the others.  `Endpoint` is what a session holds
and has done for one id, `Move` what can happen to it, and `endpoint_step` shows
that every step of a session is, for each of its streams, a call on its handle or a
few moves.

This needs ids to name streams: no two share one as long as the session accepts no
OPEN for an id it knows (`AcceptsFresh`).
-/

namespace Espejismo.Mux

open Binary Relation List Option

/-! ## One stream at one side -/

inductive Status where
  | running
  | ended
  | aborted
  deriving DecidableEq

structure Endpoint where
  stream : Option NativeStream
  attached : Bool
  commands : List Command
  sent : List Frame
  handled : List Frame
  arriving : Option (List UInt8)
  status : Status

def commandsOf (s : UInt32) (items : List Command) : List Command :=
  items.filter fun c => c.streamId? = some s

def framesOf (s : UInt32) (frames : List Frame) : List Frame :=
  frames.filter fun f => f.streamId = s

namespace Session

def streamOf (S : Session) (s : UInt32) : Option NativeStream :=
  Keyed.get NativeStream.id S.handles s

def idOf (S : Session) (r : Ref) : Option UInt32 := S.handles[r]?.map NativeStream.id

def outgoing (S : Session) : List Frame := S.transmitted ++ S.pending.toList.map PendingFrame.frame

def arrivingOf (S : Session) (s : UInt32) : Option (List UInt8) :=
  match S.phase with
  | .delivering r payload => if S.idOf r = some s then some payload else none
  | _ => none

def status (S : Session) : Status :=
  match S.phase with
  | .ended => .ended
  | .aborted => .aborted
  | _ => .running

def endpoint (S : Session) (s : UInt32) : Endpoint where
  stream := S.streamOf s
  attached := decide (s ∈ S.streams)
  commands := commandsOf s S.commands.items
  sent := framesOf s S.outgoing
  handled := framesOf s S.handled
  arriving := S.arrivingOf s
  status := S.status

end Session

namespace Endpoint

def touch (v : Endpoint) (g : FlowState → FlowState) : Option NativeStream :=
  if v.attached then v.stream.map fun st => st.mapFlow g else v.stream

theorem map_touch (v : Endpoint)
    (hf : ∀ st, f (st.mapFlow g) = f st) : (v.touch g).map f = v.stream.map f := by
  unfold touch
  cases v.attached with
  | false => rfl
  | true =>
    rw [if_pos rfl, Option.map_map]
    exact congrArg (v.stream.map ·) (funext hf)

theorem any_touch (v : Endpoint)
    (hp : ∀ st, p (st.mapFlow g) = p st) : (v.touch g).any p = v.stream.any p := by
  have hmp := v.map_touch hp
  revert hmp
  cases v.touch g <;> cases v.stream <;> simp

/-- A call on the handle, with the command channel of the session. -/
inductive Called (s : UInt32) (tx : Channel Command) (op : NativeStream.Op) (v : Endpoint) :
    Endpoint → Prop
  | mk {st st' : NativeStream} {tx' : Channel Command} (hst : v.stream = some st) (hid : st.id = s)
      (htx : v.commands = commandsOf s tx.items) (hca : st.Call v.attached tx op st' tx') :
      Called s tx op v { v with stream := some st', commands := commandsOf s tx'.items }

/-- What happens to a stream other than by a call of the application; `may kind`
holds where an OPEN of the stream is sent and where an OPEN, FIN or RST of it is
handled. -/
inductive Move (may : FrameKind → Endpoint → Prop) (config : NativeMuxConfig) (s : UInt32)
    (v : Endpoint) :
    Endpoint → Prop
  /-- A handle that the session still had is dropped. -/
  | dropped {tx v'} (h : Called s tx .drop v v') :
      Move may config s v v'
  | given {st : NativeStream} (hst : v.stream = some st) :
      Move may config s v { v with stream := some { st with holder := .application } }
  | released : Move may config s v { v with stream := v.touch .releaseSendSlot }
  | opened (priority : StreamPriority) (hma : may .open v) (hnw : v.stream = none)
      (hru : v.status = .running) :
      Move may config s v
        { v with
          stream := some (Session.newStream config s priority .application), attached := true
          sent := v.sent ++ [⟨.open, s, [priority.toByte]⟩] }
  | dataSent {priority payload rest} (hc : v.commands = .data s priority payload :: rest)
      (hat : v.attached = true) :
      Move may config s v { v with commands := rest, sent := v.sent ++ [⟨.data, s, payload⟩] }
  | dataDiscarded {priority payload rest} (hc : v.commands = .data s priority payload :: rest)
      (hat : v.attached = false) :
      Move may config s v { v with commands := rest }
  | controlSent {c : Command} {f : Frame} {rest : List Command} (hc : v.commands = c :: rest)
      (hid : c.streamId? = some s) (hf : Session.controlFrame c = some f) (hru : v.status =
        .running) :
      Move may config s v { v with commands := rest, sent := v.sent ++ [f] }
  | announced {f : Frame} (hs : s = 0) (hk : f.kind = .ping ∨ f.kind = .goaway) :
      Move may config s v { v with sent := v.sent ++ [f] }
  | resetSent {rest} (hc : v.commands = .rst s :: rest) :
      Move may config s v
        { v with commands := rest, attached := false, sent := v.sent ++ [⟨.rst, s, []⟩] }
  | refused {f : Frame} (hid : f.streamId = s)
      (hk : (f.kind = .open ∧ may .open v) ∨ (f.kind = .data ∧ v.attached = false))
      (hru : v.status = .running) :
      Move may config s v
        { v with handled := v.handled ++ [f], sent := v.sent ++ [⟨.rst, s, []⟩] }
  | admitted {f : Frame} (priority : StreamPriority) (hid : f.streamId = s) (hk : f.kind = .open)
      (hma : may .open v) (hnw : v.stream = none) (hru : v.status = .running) :
      Move may config s v
        { v with
          handled := v.handled ++ [f]
          stream := some (Session.newStream config s priority .session), attached := true }
  | dataTaken {f : Frame} (hid : f.streamId = s) (hk : f.kind = .data) (hat : v.attached = true)
      (ha : v.arriving = none) :
      Move may config s v { v with handled := v.handled ++ [f], arriving := some f.payload }
  | granted {f : Frame} (hid : f.streamId = s) (hk : f.kind = .windowUpdate)
      (hle : f.payload.length = 4) :
      Move may config s v
        { v with
          handled := v.handled ++ [f], stream := v.touch (·.addWindow (decodeBE f.payload)) }
  | closed {f : Frame} (hid : f.streamId = s) (hk : f.kind = .fin ∨ f.kind = .rst)
      (hma : may f.kind v) (ha : v.arriving = none) (hru : v.status = .running) :
      Move may config s v
        { v with handled := v.handled ++ [f], stream := v.touch .close, attached := false }
  | noted {f : Frame} (hid : f.streamId = s) (hda : f.kind ≠ .data)
      (hcl : f.kind ≠ .fin ∧ f.kind ≠ .rst)
      (hwi : f.kind = .windowUpdate → f.payload.length ≠ 4)
      (ho : f.kind = .open → ∃ err, Session.openPriority f.payload = .error err) :
      Move may config s v { v with handled := v.handled ++ [f] }
  | delivered {st : NativeStream} {payload} (hst : v.stream = some st)
      (ha : v.arriving = some payload) (hro : st.rx.HasRoom) :
      Move may config s v
        { v with stream := some { st with rx := st.rx.push payload }, arriving := none }
  | deliveryFailed {st : NativeStream} {payload} (hst : v.stream = some st)
      (ha : v.arriving = some payload) (hgo : st.rx.live = false) :
      Move may config s v { v with arriving := none }
  | ended (hru : v.status = .running) :
      Move may config s v
        { v with
          stream := v.touch .close, attached := false, commands := [], arriving := none
          status := .ended }
  | aborted :
      Move may config s v
        { v with attached := false, commands := [], arriving := none, status := .aborted }

theorem Move.mono (him : ∀ kind, may kind v → may' kind v) (h : Move may config s v v') :
    Move may' config s v v' := by
  cases h with
  | dropped h => exact .dropped h
  | given hst => exact .given hst
  | released => exact .released
  | opened priority hma hnw hru => exact .opened priority (him _ hma) hnw hru
  | dataSent hc hat => exact .dataSent hc hat
  | dataDiscarded hc hat => exact .dataDiscarded hc hat
  | controlSent hc hid hf hru => exact .controlSent hc hid hf hru
  | announced hs hk => exact .announced hs hk
  | resetSent hc => exact .resetSent hc
  | refused hid hk hru =>
    exact .refused hid (hk.imp_left fun ho => ⟨ho.1, him _ ho.2⟩) hru
  | admitted priority hid hk hma hnw hru =>
    exact .admitted priority hid hk (him _ hma) hnw hru
  | dataTaken hid hk hat ha => exact .dataTaken hid hk hat ha
  | granted hid hk hle => exact .granted hid hk hle
  | closed hid hk hma ha hru => exact .closed hid hk (him _ hma) ha hru
  | noted hid hda hcl hwi ho => exact .noted hid hda hcl hwi ho
  | delivered hst ha hro => exact .delivered hst ha hro
  | deliveryFailed hst ha hgo => exact .deliveryFailed hst ha hgo
  | ended hru => exact .ended hru
  | aborted => exact .aborted

end Endpoint

/-! ## Ids name streams -/

namespace Session

variable {S S' : Session} {e : Session.Event} {s : UInt32}

structure Distinct (S : Session) : Prop where
  unique : Keyed.Unique NativeStream.id S.handles
  table : ∀ s r, S.streams.lookup s = some r → S.idOf r = some s
  delivering : ∀ r payload, S.phase = .delivering r payload →
    ∃ s, S.idOf r = some s ∧ S.streams.lookup s = some r
  allocated : ∀ (r : Ref) (st : NativeStream), S.handles[r]? = some st →
    st.id.toNat % 2 = S.nextStreamId % 2 → st.id.toNat < S.nextStreamId

/-- An OPEN the session is about to accept is for an id of the peer's parity that
no stream of the session has had. -/
def AcceptsFresh (S : Session) (e : Event) : Prop :=
  ∀ since f items, e = .select → S.phase = .polled since →
    S.frames.items = .ok (some f) :: items → f.kind = .open → S.drainingSince = none →
      S.streams.entries.length < S.config.maxStreams →
        f.streamId.toNat % 2 ≠ S.nextStreamId % 2 ∧ S.streamOf f.streamId = none

/-- The frame that the session takes from the channel of its reader when it selects. -/
def nextFrame (S : Session) : Option Frame :=
  match S.phase, S.frames.items with
  | .polled _, .ok (some f) :: _ => some f
  | _, _ => none

theorem forall_nextFrame {p : Frame → Prop} :
    (∀ f ∈ S.nextFrame, p f) ↔ ∀ since f items, S.phase = .polled since →
      S.frames.items = .ok (some f) :: items → p f := by
  constructor
  · intro h since f items hph hfr
    exact h f (by simp [nextFrame, hph, hfr])
  · intro h f hf
    simp only [nextFrame, Option.mem_def] at hf
    split at hf
    · next hph hfr =>
      obtain rfl := Option.some.inj hf
      exact h _ _ _ hph hfr
    · cases hf

instance : Decidable (S.AcceptsFresh e) :=
  decidable_of_iff (e = .select → ∀ f ∈ S.nextFrame, f.kind = .open → S.drainingSince = none →
    S.streams.entries.length < S.config.maxStreams →
      f.streamId.toNat % 2 ≠ S.nextStreamId % 2 ∧ S.streamOf f.streamId = none) <| by
    rw [forall_nextFrame]
    exact ⟨fun h since f items he => h he since f items, fun h he since f items =>
      h since f items he⟩

/-- The session is about to handle a frame of this kind of the stream, or to send
the OPEN of the stream. -/
def Handling (S : Session) (e : Event) (kind : FrameKind) (s : UInt32) : Prop :=
  e = .select ∧
    ((kind = .open ∧ ∃ since priority items, S.phase = .selecting since ∧
        S.commands.items = .open priority :: items ∧ s.toNat = S.nextStreamId) ∨
      ∃ since f items, S.phase = .polled since ∧ S.frames.items = .ok (some f) :: items ∧
        f.kind = kind ∧ f.streamId = s)

theorem distinct_start (id : UInt32) (config : NativeMuxConfig) : (start id config).Distinct where
  unique := by simp [Keyed.Unique, start]
  table := by simp [start]
  delivering := by simp [start]
  allocated := by simp [start]

/-! ## Updates of the store -/

/-- The streams of `S'` are those of `S` with `g` applied to some; ids are kept. -/
structure Updates (S S' : Session) (g : Ref → NativeStream → NativeStream) : Prop where
  id_eq : ∀ r st, (g r st).id = st.id
  handles : ∀ r : Ref, S'.handles[r]? = S.handles[r]?.map (g r)

namespace Updates

variable {g : Ref → NativeStream → NativeStream}

theorem unique (h : Updates S S' g) (hd : S.Distinct) : Keyed.Unique NativeStream.id S'.handles :=
  hd.unique.update h.id_eq h.handles

theorem idOf (h : Updates S S' g) (r : Ref) : S'.idOf r = S.idOf r := by
  simp only [Session.idOf, h.handles, Option.map_map]
  congr 1
  funext st
  exact h.id_eq r st

variable {r : Ref}

theorem streamOf_some (h : Updates S S' g) (hd : S.Distinct)
    (hge : S.handles[r]? = some st) : S'.streamOf st.id = some (g r st) :=
  Keyed.get_update h.id_eq h.handles hd.unique hge

theorem streamOf_none (h : Updates S S' g) (hs : S.streamOf s = none) : S'.streamOf s = none :=
  Keyed.get_update_none h.id_eq h.handles hs

theorem of_eq (h : S'.handles = S.handles) : Updates S S' fun _ st => st where
  id_eq := fun _ _ => rfl
  handles := by simp [h]

theorem of_set (hge : S.handles[r]? = some st) (hid : st'.id = st.id)
    (h : S'.handles = S.handles.set r st') :
    Updates S S' fun i x => if i = r ∧ x.id = st.id then st' else x where
  id_eq := by
    intro i x
    by_cases hi : i = r ∧ x.id = st.id
    · rw [if_pos hi, hid, hi.2]
    · rw [if_neg hi]
  handles := by
    intro i
    rw [h, List.getElem?_set]
    by_cases hi : r = i
    · subst hi
      have hlt := (List.getElem?_eq_some_iff.mp hge).1
      rw [if_pos rfl, if_pos hlt, hge, Option.map_some, if_pos ⟨rfl, rfl⟩]
    · have hi' : ¬ i = r := fun h => hi h.symm
      simp [hi, hi']

theorem of_modify (hid : ∀ st, (f st).id = st.id)
    (h : S'.handles = S.handles.modify r f) : Updates S S' fun i x => if i = r then f x else x where
  id_eq := by
    intro i x
    by_cases hi : i = r
    · simp [if_pos hi, hid]
    · simp [if_neg hi]
  handles := by
    intro i
    rw [h]
    by_cases hi : r = i
    · simp [hi]
    · have hi' : ¬ i = r := fun h => hi h.symm
      simp [hi, hi']

end Updates

theorem exists_ref (h : S.streamOf s = some st) :
    ∃ r : Ref, S.handles[r]? = some st ∧ st.id = s := by
  obtain ⟨hid, r, hr⟩ := Keyed.exists_of_get h
  exact ⟨r, hr, hid⟩

variable {r : Ref} {st : NativeStream} {T : Session}

theorem Distinct.streamOf_eq (hd : S.Distinct) (hge : S.handles[r]? = some st) :
    S.streamOf st.id = some st := hd.unique.get_eq hge

theorem Distinct.lookup_eq_iff (hd : S.Distinct) (hge : S.handles[r]? = some st) :
    S.streams.lookup st.id = some r ↔ st.id ∈ S.streams := by
  constructor
  · intro h
    exact AList.lookup_isSome.mp (by simp [h])
  · intro h
    obtain ⟨r', hr'⟩ := isSome_iff_exists.mp (AList.lookup_isSome.mpr h)
    have hid := hd.table _ _ hr'
    simp only [idOf, map_eq_some_iff] at hid
    obtain ⟨st', hge', hid⟩ := hid
    rw [hr', hd.unique r' r st' st hge' hge hid]

theorem streamOf_modifyFlow (hd : S.Distinct) {id : UInt32} (hT : T.handles = S.handles)
    (hTs : T.streams = S.streams) (h : S'.handles = (T.modifyFlow id g).handles) (s : UInt32) :
    S'.streamOf s = if id = s then (S.endpoint s).touch g else S.streamOf s := by
  unfold modifyFlow at h
  simp only [hTs, hT] at h
  cases hl : S.streams.lookup id with
  | none =>
    have hm : id ∉ S.streams := AList.lookup_eq_none.mp hl
    simp only [hl] at h
    have hsa : S'.streamOf s = S.streamOf s := by rw [streamOf, h, streamOf]
    by_cases hid : id = s
    · subst hid
      simp [hsa, Endpoint.touch, endpoint, hm]
    · simp [hid, hsa]
  | some r =>
    have hm : id ∈ S.streams := AList.lookup_isSome.mp (by simp [hl])
    simp only [hl] at h
    have hu := Updates.of_modify (f := fun st => st.mapFlow g) (fun _ => rfl) h
    have hid := hd.table _ _ hl
    simp only [idOf, map_eq_some_iff] at hid
    obtain ⟨st, hge, hst⟩ := hid
    by_cases hs : id = s
    · subst hs
      have hnw := hu.streamOf_some hd hge
      have hold := hd.streamOf_eq hge
      rw [hst] at hnw hold
      rw [hnw]
      simp [Endpoint.touch, endpoint, hm, hold]
    · simp only [if_neg hs]
      cases hold : S.streamOf s with
      | none => exact hu.streamOf_none hold
      | some =>
        obtain ⟨r', hge', hid'⟩ := exists_ref hold
        have hr : r' ≠ r := by
          rintro rfl
          rw [hge] at hge'
          cases hge'
          exact hs (hst.symm.trans hid')
        have hnw := hu.streamOf_some hd hge'
        rw [hid'] at hnw
        simpa [hr] using hnw

theorem mem_tableRefs_iff (hd : S.Distinct) (hge : S.handles[r]? = some st) :
    r ∈ S.tableRefs ↔ st.id ∈ S.streams := by
  rw [← hd.lookup_eq_iff hge]
  constructor
  · intro h
    obtain ⟨⟨s, r'⟩, hen, hr⟩ := mem_map.mp h
    subst hr
    have hl : S.streams.lookup s = some r' := AList.mem_lookup_iff.mpr hen
    have hid := hd.table _ _ hl
    simp only [idOf, hge, map_some, Option.some.injEq] at hid
    rw [hid, hl]
  · intro h
    exact mem_map.mpr ⟨⟨st.id, r⟩, AList.mem_lookup_iff.mp h, rfl⟩

theorem updates_leave (hT : T.handles = S.handles) (hTs : T.streams = S.streams) :
    Updates S T.leave fun r st => if r ∈ S.tableRefs then st.mapFlow .close else st where
  id_eq := by
    intro r st
    by_cases hr : r ∈ S.tableRefs
    · rw [if_pos hr]
      rfl
    · rw [if_neg hr]
  handles := by
    intro r
    have hre : T.tableRefs = S.tableRefs := by rw [tableRefs, hTs, tableRefs]
    simp [leave, stop, hre, hT]

theorem streamOf_leave (hd : S.Distinct) (hT : T.handles = S.handles) (hTs : T.streams = S.streams)
    (s : UInt32) : T.leave.streamOf s = (S.endpoint s).touch .close := by
  have hu := updates_leave hT hTs
  cases hold : S.streamOf s with
  | none =>
    rw [hu.streamOf_none hold]
    simp [Endpoint.touch, endpoint, hold]
  | some st =>
    obtain ⟨r, hge, rfl⟩ := exists_ref hold
    rw [hu.streamOf_some hd hge]
    simp only [mem_tableRefs_iff hd hge, Endpoint.touch, endpoint, hold, map_some,
      decide_eq_true_eq]
    by_cases hm : st.id ∈ S.streams
    · rw [if_pos hm, if_pos hm]
    · rw [if_neg hm, if_neg hm]

theorem streamOf_set (hd : S.Distinct) (hge : S.handles[r]? = some st)
    (hid : st'.id = st.id) (h : S'.handles = S.handles.set r st') (s : UInt32) :
    S'.streamOf s = if st.id = s then some st' else S.streamOf s := by
  have hu := Updates.of_set hge hid h
  by_cases hs : st.id = s
  · subst hs
    rw [hu.streamOf_some hd hge, if_pos ⟨rfl, rfl⟩, if_pos rfl]
  rw [if_neg hs]
  cases hold : S.streamOf s with
  | none => exact hu.streamOf_none hold
  | some st₁ =>
    obtain ⟨r₁, hge₁, hid₁⟩ := exists_ref hold
    have hne : ¬ (r₁ = r ∧ st₁.id = st.id) := fun h => hs (h.2.symm.trans hid₁)
    have hnw := hu.streamOf_some hd hge₁
    rwa [if_neg hne, hid₁] at hnw

/-! ## Distinct sessions stay distinct -/

theorem Distinct.update (hd : S.Distinct)
    (hu : Updates S S' g) (hn : S'.nextStreamId = S.nextStreamId ∨
      S'.nextStreamId = S.nextStreamId + 2)
    (hta : ∀ s r, S'.streams.lookup s = some r → S.streams.lookup s = some r)
    (hde : ∀ r payload, S'.phase = .delivering r payload →
      ∃ s, S.idOf r = some s ∧ S'.streams.lookup s = some r) : S'.Distinct where
  unique := hu.unique hd
  table := by
    intro s r hl
    rw [hu.idOf]
    exact hd.table s r (hta s r hl)
  delivering := by
    intro r payload hph
    obtain ⟨s, hid, hl⟩ := hde r payload hph
    exact ⟨s, by rw [hu.idOf, hid], hl⟩
  allocated := by
    intro r st' hge hpa
    rw [hu.handles, map_eq_some_iff] at hge
    obtain ⟨st, hge, rfl⟩ := hge
    rw [hu.id_eq] at hpa ⊢
    have hlt := hd.allocated r st hge
    rcases hn with hn | hn <;> rw [hn] at hpa ⊢
    · exact hlt hpa
    · omega

theorem Distinct.insert (hd : S.Distinct) (hnw : S.streamOf st.id = none)
    (hha : S'.handles = S.handles ++ [st])
    (hsr : S'.streams = S.streams.insert st.id S.handles.length)
    (hn : S'.nextStreamId = S.nextStreamId ∨ S'.nextStreamId = S.nextStreamId + 2)
    (hpa : st.id.toNat % 2 = S'.nextStreamId % 2 → st.id.toNat < S'.nextStreamId)
    (hde : ∀ r payload, S'.phase ≠ .delivering r payload) : S'.Distinct where
  unique := by
    rw [hha]
    exact hd.unique.concat hnw
  table := by
    intro s r hl
    rw [hsr] at hl
    by_cases hs : s = st.id
    · subst hs
      rw [AList.lookup_insert, Option.some.injEq] at hl
      subst hl
      simp [idOf, hha]
    · rw [AList.lookup_insert_ne hs] at hl
      have hid := hd.table s r hl
      simp only [idOf, Option.map_eq_some_iff] at hid ⊢
      obtain ⟨st', hge, hid⟩ := hid
      have hlt := (List.getElem?_eq_some_iff.mp hge).1
      exact ⟨st', by rw [hha, List.getElem?_append_left hlt, hge], hid⟩
  delivering := fun r payload hph => absurd hph (hde r payload)
  allocated := by
    intro r st' hge hpr
    rw [hha, List.getElem?_append] at hge
    by_cases hr : r < S.handles.length
    · rw [if_pos hr] at hge
      have hlt := hd.allocated r st' hge
      rcases hn with hn | hn <;> rw [hn] at hpr ⊢
      · exact hlt hpr
      · omega
    · rw [if_neg hr] at hge
      rw [List.mem_singleton.mp (List.mem_of_getElem? hge)] at hpr ⊢
      exact hpa hpr

theorem Distinct.streamOf_next (hd : S.Distinct) {id : UInt32} (hid : id.toNat = S.nextStreamId) :
    S.streamOf id = none := by
  cases h : S.streamOf id with
  | none => rfl
  | some st =>
    obtain ⟨r, hge, rfl⟩ := exists_ref h
    have := hd.allocated r st hge (by rw [hid])
    omega

theorem updates_dropHandles (S : Session) (refs : List Ref) :
    ∃ g, Updates S (S.dropHandles refs) g := by
  induction refs generalizing S with
  | nil => exact ⟨_, .of_eq rfl⟩
  | cons r refs ih =>
    have hhe : ∃ g, Updates S (S.dropHandles [r]) g := by
      cases hge : S.handles[r]? with
      | none => exact ⟨_, .of_eq (by simp [dropHandles, dropOne, hge])⟩
      | some st =>
        have hid := (NativeStream.call_drop false st S.commands).id_eq
        exact ⟨_, .of_set hge hid (by simp [dropHandles, dropOne, hge])⟩
    obtain ⟨g, hg⟩ := hhe
    obtain ⟨g', hg'⟩ := ih (S.dropHandles [r])
    refine ⟨fun i st => g' i (g i st), ⟨fun i st => (hg'.id_eq _ _).trans (hg.id_eq _ _), ?_⟩⟩
    intro i
    change ((S.dropHandles [r]).dropHandles refs).handles[i]? = _
    rw [hg'.handles, hg.handles, Option.map_map]
    rfl

theorem lookup_of_erase (S : Session) (id s : UInt32) (r : Ref)
    (h : (S.streams.erase id).lookup s = some r) : S.streams.lookup s = some r := by
  by_cases hs : s = id
  · subst hs
    rw [AList.lookup_erase] at h
    contradiction
  · rwa [AList.lookup_erase_ne hs] at h

theorem updates_modifyFlow (hT : T.handles = S.handles) (id : UInt32) (f : FlowState → FlowState) :
    ∃ g, Updates S (T.modifyFlow id f) g := by
  cases hl : T.streams.lookup id with
  | none => exact ⟨_, .of_eq (by simp only [modifyFlow, hl, hT])⟩
  | some r =>
    exact ⟨_, .of_modify (r := r) (f := fun st => st.mapFlow f) (fun _ => rfl)
      (by simp only [modifyFlow, hl, hT])⟩

theorem Distinct.step (hd : S.Distinct) (hfs : S.AcceptsFresh e)
    (h : Step S e S') : S'.Distinct := by
  have hke : ∀ {g}, Updates S S' g → S'.nextStreamId = S.nextStreamId →
      S'.streams = S.streams → (∀ r payload, S'.phase = .delivering r payload →
        S.phase = .delivering r payload) → S'.Distinct := by
    intro g hu hn hsr hph
    refine hd.update hu (.inl hn) (by rw [hsr]; exact fun _ _ h => h) ?_
    intro r payload hde
    rw [hsr]
    exact hd.delivering r payload (hph r payload hde)
  have hsp : ∀ {g}, Updates S S' g → S'.nextStreamId = S.nextStreamId → S'.streams = ∅ →
      (∀ r payload, S'.phase ≠ .delivering r payload) → S'.Distinct := by
    intro g hu hn hsr hph
    refine hd.update hu (.inl hn) ?_ fun r payload hde => absurd hde (hph r payload)
    rw [hsr]
    simp
  cases h with
  | tick | asked | errorAccepted | arrived => exact hke (.of_eq rfl) rfl rfl fun _ _ h => h
  | accepted =>
    exact hke (.of_modify (f := fun st => { st with holder := .application })
      (fun _ => rfl) rfl) rfl rfl fun _ _ h => h
  | sessionDropped =>
    obtain ⟨g, hg⟩ := updates_dropHandles S (S.accepts.items.filterMap Except.toOption)
    exact hke ⟨hg.id_eq, hg.handles⟩ rfl rfl fun _ _ h => h
  | called _ hge _ hca =>
    exact hke (.of_set hge hca.id_eq rfl) rfl rfl fun _ _ h => h
  | stopped | writeFailed | expired | readerEnded | reported =>
    exact hsp (updates_leave rfl rfl) rfl rfl (by simp [leave, stop])
  | aborted => exact hsp (.of_eq rfl) rfl rfl (by simp [stop])
  | acceptAborted =>
    rename_i r _ _
    obtain ⟨g, hg⟩ := updates_dropHandles S [r]
    exact hsp ⟨hg.id_eq, hg.handles⟩ rfl rfl (by simp [stop])
  | written =>
    rename_i queuedStream _
    cases queuedStream with
    | none => exact hke (.of_eq rfl) rfl rfl (by simp)
    | some id =>
      obtain ⟨g, hg⟩ := updates_modifyFlow rfl id .releaseSendSlot
      exact hke ⟨hg.id_eq, hg.handles⟩ rfl rfl (by simp [releaseSendSlot, modifyFlow])
  | granted =>
    rename_i f items _ _ _ _
    obtain ⟨g, hg⟩ := updates_modifyFlow rfl f.streamId (·.addWindow (decodeBE f.payload))
    exact hke ⟨hg.id_eq, hg.handles⟩ rfl rfl (by simp)
  | closed =>
    rename_i f items _ _ _
    obtain ⟨g, hg⟩ := updates_modifyFlow rfl f.streamId .close
    refine hd.update ⟨hg.id_eq, hg.handles⟩ (.inl rfl) (lookup_of_erase S _) (by simp)
  | resetSent =>
    exact hd.update (.of_eq rfl) (.inl rfl) (lookup_of_erase S _) (by simp [queue])
  | openFailed _ _ hn =>
    refine hd.update (.of_eq rfl) ?_ (fun _ _ h => h) (by simp [queue])
    exact hn.imp_right And.left
  | opened _ _ _ hid =>
    have hnw := hd.streamOf_next hid
    refine hd.insert hnw rfl rfl (.inr rfl) ?_ (by simp [queue])
    simp only [newStream, queue, sendReply, insertStream]
    omega
  | admitted hph hfr hk hdr hfu =>
    obtain ⟨hpa, hnw⟩ := hfs _ _ _ rfl hph hfr hk hdr hfu
    exact hd.insert hnw rfl rfl (.inl rfl) (fun h => absurd h hpa) (by simp)
  | dataTaken _ _ _ hm =>
    refine hd.update (.of_eq rfl) (.inl rfl) (fun _ _ h => h) ?_
    rintro r payload ⟨⟩
    exact ⟨_, hd.table _ _ hm, hm⟩
  | acceptFailed =>
    rename_i r _ _ _
    obtain ⟨g, hg⟩ := updates_dropHandles S [r]
    exact hke ⟨hg.id_eq, hg.handles⟩ rfl rfl (by simp)
  | delivered _ hge =>
    rename_i payload st _ _
    have hid : ({ st with rx := st.rx.push payload } : NativeStream).id = st.id := rfl
    exact hke (.of_set hge hid rfl) rfl rfl (by simp)
  | _ => exact hke (.of_eq rfl) rfl rfl (by simp [queue])

end Session

end Espejismo.Mux
