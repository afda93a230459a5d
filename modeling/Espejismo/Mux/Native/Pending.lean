import Espejismo.Binary.Word
import Espejismo.Mux.Native.Frame

/-!
# Mux.Native.Pending

The frames waiting to be written (`mux/native/pending.rs`): control frames
first, then data by priority, with a bound on how long interactive frames may
keep bulk frames waiting.
-/

namespace Espejismo.Mux

open Binary List

def maxInteractiveBurst : Nat := 8

structure PendingFrame where
  frame : Frame
  /-- The stream whose send slot is released once the frame is written. -/
  queuedStream : Option UInt32
  deriving DecidableEq, Repr

structure PendingFrames where
  control : List PendingFrame := []
  interactive : List PendingFrame := []
  bulk : List PendingFrame := []
  limit : Nat
  interactiveBurst : Nat := 0
  limit_pos : 0 < limit

namespace PendingFrames

variable {p p' : PendingFrames} {frame : PendingFrame}

def new (limit : Nat) : PendingFrames := { limit := max limit 1, limit_pos := by omega }

/-- Every waiting frame; their number is the counter `len` of the source. -/
def toList (p : PendingFrames) : List PendingFrame := p.control ++ p.interactive ++ p.bulk

def len (p : PendingFrames) : Nat := p.toList.length

def isCongested (p : PendingFrames) : Bool := satMul p.limit 3 ≤ satMul p.len 4

def reserveSlot (p : PendingFrames) : Except Error Unit :=
  if p.limit ≤ p.len then
    if p.isCongested then
      .error (.msg "native mux pending frame queue congested: limit reached")
    else .error (.msg "native mux pending frame queue limit reached")
  else .ok ()

def pushControl (p : PendingFrames) (frame : PendingFrame) : Except Error PendingFrames := do
  p.reserveSlot
  return { p with control := p.control ++ [frame] }

def pushData (p : PendingFrames) (priority : StreamPriority) (frame : PendingFrame) :
    Except Error PendingFrames := do
  p.reserveSlot
  match priority with
  | .interactive => return { p with interactive := p.interactive ++ [frame] }
  | .bulk => return { p with bulk := p.bulk ++ [frame] }

def popNext (p : PendingFrames) : Option PendingFrame × PendingFrames :=
  match p.control with
  | frame :: control => (some frame, { p with control })
  | [] =>
    if p.bulk ≠ [] ∧ (p.interactive = [] ∨ maxInteractiveBurst ≤ p.interactiveBurst) then
      (p.bulk.head?, { p with bulk := p.bulk.tail, interactiveBurst := 0 })
    else
      match p.interactive with
      | frame :: interactive =>
        (some frame,
          { p with
            interactive
            interactiveBurst :=
              if p.bulk ≠ [] then p.interactiveBurst + 1 else p.interactiveBurst })
      | [] => (p.bulk.head?, { p with bulk := p.bulk.tail, interactiveBurst := 0 })

/-! ## One frame at a time

The session queues a frame only after everything queued before has been
written, so these are the cases that arise. -/

@[simp] theorem toList_new (limit : Nat) : (new limit).toList = [] := rfl

theorem reserveSlot_of_empty (h : p.toList = []) : p.reserveSlot = .ok () := by
  have hpos := p.limit_pos
  have hl : p.len = 0 := by simp [len, h]
  rw [reserveSlot, if_neg (by omega)]

theorem pushControl_of_empty (h : p.toList = []) (frame : PendingFrame) :
    ∃ p', p.pushControl frame = .ok p' ∧ p'.toList = [frame] := by
  refine ⟨{ p with control := p.control ++ [frame] }, ?_, ?_⟩
  · rw [pushControl, reserveSlot_of_empty h]
    rfl
  · simp only [toList, append_eq_nil_iff] at h ⊢
    simp [h]

theorem pushData_of_empty (h : p.toList = []) (priority : StreamPriority) (frame : PendingFrame) :
    ∃ p', p.pushData priority frame = .ok p' ∧ p'.toList = [frame] := by
  have hpa : (p.control = [] ∧ p.interactive = []) ∧ p.bulk = [] := by
    simpa only [toList, append_eq_nil_iff] using h
  cases priority with
  | interactive =>
    refine ⟨{ p with interactive := p.interactive ++ [frame] }, ?_, by simp [toList, hpa]⟩
    rw [pushData, reserveSlot_of_empty h]
    rfl
  | bulk =>
    refine ⟨{ p with bulk := p.bulk ++ [frame] }, ?_, by simp [toList, hpa]⟩
    rw [pushData, reserveSlot_of_empty h]
    rfl

theorem popNext_of_empty (h : p.toList = []) : p.popNext.1 = none ∧ p.popNext.2.toList = [] := by
  have hpa : (p.control = [] ∧ p.interactive = []) ∧ p.bulk = [] := by
    simpa only [toList, append_eq_nil_iff] using h
  simp [popNext, toList, hpa]

theorem popNext_of_single (h : p.toList = [frame]) :
    p.popNext.1 = some frame ∧ p.popNext.2.toList = [] := by
  simp only [toList, append_eq_singleton_iff, append_eq_nil_iff] at h
  rcases h with ⟨⟨hc, hi⟩, hb⟩ | ⟨⟨hc, hi⟩ | ⟨hc, hi⟩, hb⟩ <;> simp [popNext, toList, hc, hi, hb]

/-! ## The counter

The source counts the waiting frames in a field `len` of its own; a history records what
went in and came out. -/

inductive Class where
  | control
  | interactive
  | bulk
  deriving DecidableEq

def Class.data : StreamPriority → Class
  | .interactive => .interactive
  | .bulk => .bulk

def queue (p : PendingFrames) : Class → List PendingFrame
  | .control => p.control
  | .interactive => p.interactive
  | .bulk => p.bulk

def enqueue (p : PendingFrames) (frame : PendingFrame) : Class → PendingFrames
  | .control => { p with control := p.control ++ [frame] }
  | .interactive => { p with interactive := p.interactive ++ [frame] }
  | .bulk => { p with bulk := p.bulk ++ [frame] }

/-- The queues with the field `len`. -/
structure Counted where
  frames : PendingFrames
  len : Nat := 0

namespace Counted

def isCongested (q : Counted) : Bool := satMul q.frames.limit 3 ≤ satMul q.len 4

def reserveSlot (q : Counted) : Except Error Counted :=
  if q.frames.limit ≤ q.len then
    if q.isCongested then
      .error (.msg "native mux pending frame queue congested: limit reached")
    else .error (.msg "native mux pending frame queue limit reached")
  else .ok { q with len := q.len + 1 }

def push (q : Counted) (frame : PendingFrame) (c : Class) : Except Error Counted := do
  let q ← q.reserveSlot
  return { q with frames := q.frames.enqueue frame c }

variable {q : Counted}

theorem reserveSlot_eq (h : q.len = q.frames.len) :
    q.reserveSlot = q.frames.reserveSlot.map fun _ => { q with len := q.len + 1 } := by
  simp only [reserveSlot, isCongested, PendingFrames.reserveSlot, PendingFrames.isCongested, ← h]
  by_cases hfu : q.frames.limit ≤ q.len
  · by_cases hmo : satMul q.frames.limit 3 ≤ satMul q.len 4 <;> simp [hfu, hmo, Except.map]
  · simp [hfu, Except.map]

theorem push_control (h : q.len = q.frames.len) (frame : PendingFrame) :
    q.push frame .control = (q.frames.pushControl frame).map
      ({ frames := ·, len := q.len + 1 }) := by
  rw [push, reserveSlot_eq h, pushControl]
  cases q.frames.reserveSlot <;> rfl

theorem push_data (h : q.len = q.frames.len) (priority : StreamPriority) (frame : PendingFrame) :
    q.push frame (.data priority) =
      (q.frames.pushData priority frame).map ({ frames := ·, len := q.len + 1 }) := by
  rw [push, reserveSlot_eq h]
  unfold pushData
  cases q.frames.reserveSlot <;> cases priority <;> rfl

def popNext (q : Counted) : Option PendingFrame × Counted :=
  (q.frames.popNext.1,
    { frames := q.frames.popNext.2
      len := if q.frames.popNext.1.isSome then q.len - 1 else q.len })

def popClass (q : Counted) : Option Class :=
  [Class.control, .interactive, .bulk].find? fun c =>
    (q.popNext.2.frames.queue c).length < (q.frames.queue c).length

end Counted

inductive Call where
  | push (frame : PendingFrame) (c : Class)
  | pop

structure History where
  queues : Counted
  accepted : List (Class × PendingFrame) := []
  popped : List (Class × PendingFrame) := []
  /-- Interactive frames popped while bulk frames waited, since the last bulk pop or since
  the first of them was queued. -/
  passed : Nat := 0

namespace History

def step (h : History) : Call → History
  | .push frame c =>
    match h.queues.push frame c with
    | .error _ => h
    | .ok queues =>
      { h with
        queues
        accepted := h.accepted ++ [(c, frame)]
        passed := if c = .bulk ∧ h.queues.frames.bulk = [] then 0 else h.passed }
  | .pop =>
    { h with
      queues := h.queues.popNext.2
      popped := h.popped ++ (h.queues.popClass.bind fun c => h.queues.popNext.1.map (c, ·)).toList
      passed := match h.queues.popClass with
        | some .bulk => 0
        | some .interactive => if h.queues.frames.bulk ≠ [] then h.passed + 1 else h.passed
        | _ => h.passed }

def run (limit : Nat) (calls : List Call) : History :=
  calls.foldl step { queues := { frames := new limit } }

def ofClass (c : Class) (frames : List (Class × PendingFrame)) : List PendingFrame :=
  frames.filterMap fun x => if x.1 = c then some x.2 else none

end History

@[simp] theorem History.ofClass_append (c : Class) (xs ys : List (Class × PendingFrame)) :
    ofClass c (xs ++ ys) = ofClass c xs ++ ofClass c ys := by
  simp [ofClass]

structure Pops (p : PendingFrames) (c : Class) (frame : PendingFrame) (p' : PendingFrames) :
    Prop where
  limit : p'.limit = p.limit
  burst : p'.interactiveBurst = match c with
    | .control => p.interactiveBurst
    | .interactive => if p.bulk ≠ [] then p.interactiveBurst + 1 else p.interactiveBurst
    | .bulk => 0
  queue (d : Class) : p.queue d = History.ofClass d [(c, frame)] ++ p'.queue d
  control : c ≠ .control → p.control = []
  waits : c = .interactive → p.bulk ≠ [] → p.interactiveBurst < maxInteractiveBurst

theorem popNext_cases (p : PendingFrames) :
    (∃ c frame p', p.popNext = (some frame, p') ∧ p.Pops c frame p') ∨
      p.toList = [] ∧ p.popNext = (none, { p with interactiveBurst := 0 }) := by
  obtain ⟨control, interactive, bulk, limit, burst, hli⟩ := p
  have hcl (c d : Class) (frame : PendingFrame) :
      History.ofClass d [(c, frame)] = if c = d then [frame] else [] := by
    by_cases h : c = d <;> simp [History.ofClass, h]
  cases control with
  | cons frame =>
    refine .inl ⟨.control, frame, _, rfl, ⟨rfl, rfl, fun d => ?_, by simp, by simp⟩⟩
    cases d <;> simp [queue, hcl]
  | nil =>
    by_cases hbu : bulk ≠ [] ∧ (interactive = [] ∨ maxInteractiveBurst ≤ burst)
    · obtain ⟨frame, bulk, rfl⟩ := exists_cons_of_ne_nil hbu.1
      refine .inl ⟨.bulk, frame, ⟨[], interactive, bulk, limit, 0, hli⟩,
        by simp only [popNext, if_pos hbu, head?_cons, tail_cons],
        ⟨rfl, rfl, fun d => ?_, by simp, by simp⟩⟩
      cases d <;> simp [queue, hcl]
    · cases interactive with
      | cons frame interactive =>
        refine .inl ⟨.interactive, frame, ⟨[], interactive, bulk, limit,
          if bulk ≠ [] then burst + 1 else burst, hli⟩, by simp only [popNext, if_neg hbu],
          ⟨rfl, rfl, fun d => ?_, by simp, ?_⟩⟩
        · cases d <;> simp [queue, hcl]
        · simpa using hbu
      | nil =>
        obtain rfl : bulk = [] := by simpa using hbu
        exact .inr ⟨rfl, by simp [popNext]⟩

structure History.Sound (limit : Nat) (h : History) : Prop where
  limit_eq : h.queues.frames.limit = max limit 1
  len_eq : h.queues.len = h.queues.frames.toList.length
  len_le : h.queues.len ≤ max limit 1
  order : ∀ c, ofClass c h.accepted = ofClass c h.popped ++ h.queues.frames.queue c
  passed_eq : h.passed = h.queues.frames.interactiveBurst
  passed_le : h.passed ≤ maxInteractiveBurst
  idle : h.queues.frames.bulk = [] → h.passed = 0

@[simp] theorem queue_enqueue (p : PendingFrames) (frame : PendingFrame) (c d : Class) :
    (p.enqueue frame c).queue d = p.queue d ++ History.ofClass d [(c, frame)] := by
  cases c <;> cases d <;> simp [enqueue, queue, History.ofClass]

theorem Counted.push_of_lt {q : Counted} (h : q.len < q.frames.limit) (frame : PendingFrame)
    (c : Class) :
    q.push frame c = .ok { frames := q.frames.enqueue frame c, len := q.len + 1 } := by
  rw [push, reserveSlot, if_neg (by omega)]
  rfl

theorem Counted.push_of_full {q : Counted} (h : q.frames.limit ≤ q.len) (frame : PendingFrame)
    (c : Class) : ∃ e, q.push frame c = .error e := by
  rw [push, reserveSlot, if_pos h]
  split <;> exact ⟨_, rfl⟩

theorem History.Sound.push {limit : Nat} {h : History} (hs : h.Sound limit) (frame : PendingFrame)
    (c : Class) : (h.step (.push frame c)).Sound limit := by
  have hid := hs.idle
  rcases Nat.lt_or_ge h.queues.len h.queues.frames.limit with hlt | hge
  · simp only [step, Counted.push_of_lt hlt]
    refine ⟨?_, ?_, ?_, fun d => ?_, ?_, ?_, ?_⟩
    · cases c <;> exact hs.limit_eq
    · have hl := hs.len_eq
      cases c <;> simp [enqueue, toList] at hl ⊢ <;> omega
    · have := hs.limit_eq
      show h.queues.len + 1 ≤ _
      omega
    · simp [hs.order d]
    · cases c <;> grind [enqueue, hs.passed_eq]
    · grind [hs.passed_le]
    · cases c <;> simp_all [enqueue]
  · obtain ⟨e, he⟩ := Counted.push_of_full hge frame c
    simpa only [step, he] using hs

theorem Counted.popClass_eq {q : Counted} (hpo : q.frames.popNext = (some frame, p))
    (h : q.frames.Pops c frame p) : q.popClass = some c := by
  have hlt (d : Class) : (p.queue d).length < (q.frames.queue d).length ↔ c = d := by
    rw [h.queue d]
    by_cases hcd : c = d <;> simp [History.ofClass]
  cases c <;> simp [popClass, popNext, hpo, hlt]

theorem Counted.popClass_none {q : Counted} (hemp : q.frames.toList = []) : q.popClass = none := by
  simp only [toList, append_eq_nil_iff] at hemp
  simp [popClass, queue, hemp]

theorem History.Sound.pop {limit : Nat} {h : History} (hs : h.Sound limit) :
    (h.step .pop).Sound limit := by
  have hma := hs.passed_le
  have hid := hs.idle
  rcases popNext_cases h.queues.frames with ⟨c, frame, p, hpo, hp⟩ | ⟨hemp, hpo⟩
  · have hcl := Counted.popClass_eq hpo hp
    have hbu := hp.queue .bulk
    have hl : p.toList.length + 1 = h.queues.frames.toList.length := by
      have hal (d : Class) := congrArg List.length (hp.queue d)
      have h₁ := hal .control
      have h₂ := hal .interactive
      have h₃ := hal .bulk
      cases c <;> simp [toList, queue, ofClass] at h₁ h₂ h₃ ⊢ <;> omega
    simp only [step, hcl, Counted.popNext, hpo]
    refine ⟨hp.limit.trans hs.limit_eq, ?_, ?_, fun d => ?_, ?_, ?_, ?_⟩
    · show h.queues.len - 1 = p.toList.length
      have := hs.len_eq
      omega
    · exact Nat.le_trans (Nat.sub_le ..) hs.len_le
    · simp [hs.order d, hp.queue d]
    · cases c <;> simp [hp.burst, hs.passed_eq]
    · have := hs.passed_eq ▸ hp.waits
      cases c <;> grind
    · cases c <;> simp_all [queue, ofClass]
  · have hcl := Counted.popClass_none hemp
    have hze := hid (by simp_all [toList])
    simp only [step, hcl, Counted.popNext, hpo]
    refine ⟨hs.limit_eq, hs.len_eq, hs.len_le, fun d => ?_, hze, hma, hid⟩
    have := hs.order d
    cases d <;> simpa [queue] using this

/-- **The scheduler of the pending frames.**  After any calls: the counter is right and
bounded; a push fails exactly at the limit, and then changes nothing; what came out of
each class is the front of what went in; a pop finds a frame whenever one waits, and a
control frame first; at most eight interactive frames pass a waiting bulk frame. -/
theorem pending_frames_scheduling (limit : Nat) (calls : List Call) :
    let h := History.run limit calls
    h.queues.len = h.queues.frames.toList.length ∧ h.queues.len ≤ max limit 1 ∧
    (∀ frame c, (∃ e, h.queues.push frame c = .error e) ↔
      h.queues.frames.toList.length = max limit 1) ∧
    (∀ frame c e, h.queues.push frame c = .error e → h.step (.push frame c) = h) ∧
    (∀ c, History.ofClass c h.accepted = History.ofClass c h.popped ++ h.queues.frames.queue c) ∧
    (h.queues.popNext.1 = none ↔ h.queues.frames.toList = []) ∧
    (∀ c, h.queues.popClass = some c → c ≠ .control → h.queues.frames.control = []) ∧
    h.passed ≤ maxInteractiveBurst := by
  intro h
  have hs : h.Sound limit := by
    refine List.foldlRecOn calls History.step ⟨rfl, rfl, Nat.zero_le _, ?_, rfl, ?_, ?_⟩
      fun h hs call _ => ?_
    · intro c
      cases c <;> rfl
    · exact Nat.zero_le _
    · simp
    · cases call with
      | push frame c => exact hs.push frame c
      | pop => exact hs.pop
  have hli := hs.limit_eq
  have hl := hs.len_eq
  have hle := hs.len_le
  refine ⟨hl, hle, fun frame c => ⟨?_, fun hfu => ?_⟩, ?_, hs.order, ?_, ?_, hs.passed_le⟩
  · rintro ⟨e, he⟩
    rcases Nat.lt_or_ge h.queues.len h.queues.frames.limit with hlt | hge
    · rw [Counted.push_of_lt hlt] at he
      contradiction
    · omega
  · exact Counted.push_of_full (by omega) frame c
  · intro frame c e he
    simp [History.step, he]
  · rcases popNext_cases h.queues.frames with ⟨c, frame, p, hpo, hp⟩ | ⟨hemp, hpo⟩
    · have hq := hp.queue c
      have hne : h.queues.frames.toList ≠ [] := by
        cases c <;> simp [toList, queue, History.ofClass] at hq ⊢ <;> simp [hq]
      simp [Counted.popNext, hpo, hne]
    · simp [Counted.popNext, hpo, hemp]
  · intro c hc hne
    rcases popNext_cases h.queues.frames with ⟨d, frame, p, hpo, hp⟩ | ⟨hemp, hpo⟩
    · rw [Counted.popClass_eq hpo hp] at hc
      exact hp.control (Option.some.inj hc ▸ hne)
    · rw [Counted.popClass_none hemp] at hc
      contradiction

end PendingFrames

end Espejismo.Mux
