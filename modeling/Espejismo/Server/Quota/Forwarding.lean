import Espejismo.Server.Quota

/-!
# Server.Quota.Forwarding

A stream handler forwards only bytes that it has accounted.  While it goes on,
all that it accounted was forwarded, waits to be written, or is in the account
call that is about to return (`Task.Backed`).
-/

namespace Espejismo.Quota

open Copy Windows List

/-! ## One handler -/

namespace Work

def finished : Work → Bool
  | .tcp copy =>
    match copy.phase with
    | .finished _ => true
    | _ => false
  | .udp d =>
    match d.phase with
    | .finished _ => true
    | _ => false

/-- The bytes of a side that are accounted and not forwarded yet. -/
def held : Work → Side → List UInt8
  | .tcp copy, side => if copy.phase = .writing side then copy.pending.of side else []
  | .udp d, side =>
    match side, d.phase with
    | .b, .writing rest => rest
    | _, _ => []

/-- The handler goes on with `more` to forward, or ends without forwarding more. -/
def Moves (work work' : Work) (more : Side → List UInt8) : Prop :=
  work.finished = false ∧
    ((∀ side, work'.forwarded side ++ work'.held side =
        work.forwarded side ++ work.held side ++ more side) ∨
      work'.finished = true ∧ ∀ side, work'.forwarded side = work.forwarded side)

variable {work work' : Work}

def chargeOf (work : Work) (side : Side) : List UInt8 :=
  match work.charge with
  | some (x, bytes) => if side = x then bytes else []
  | none => []

theorem moves_of_metered (h : work.metered none = some work') : Moves work work' work.chargeOf := by
  cases work with
  | tcp =>
    obtain ⟨copy', hst, rfl⟩ := Option.map_eq_some_iff.mp h
    cases Copy.transition_of_step hst with
    | @metered x hp =>
      refine ⟨by simp [finished, hp], .inl fun side => ?_⟩
      rcases x.eq_or_eq_other side with rfl | rfl
      · simp [forwarded, held, chargeOf, charge, hp]
      · cases x <;> simp [forwarded, held, chargeOf, charge, hp, Side.other]
  | udp d =>
    obtain ⟨phase, sent⟩ := d
    cases phase with
    | request =>
      cases h
      refine ⟨rfl, .inl fun side => ?_⟩
      cases side <;> simp [forwarded, held, chargeOf, charge, Both.of, Both.set]
    | response answer =>
      by_cases hle : 65535 < answer.length
      · simp only [metered, Datagram.metered, if_pos hle] at h
        cases h
        exact ⟨rfl, .inr ⟨rfl, fun side => rfl⟩⟩
      · simp only [metered, Datagram.metered, if_neg hle] at h
        cases h
        refine ⟨rfl, .inl fun side => ?_⟩
        cases side <;> simp [forwarded, held, chargeOf, charge]
    | relaying | writing | finished => cases h

theorem finished_of_metered (h : work.metered (some e) = some work') :
    work'.finished = true ∧ ∀ side, work'.forwarded side = work.forwarded side := by
  cases work with
  | tcp =>
    obtain ⟨copy', hst, rfl⟩ := Option.map_eq_some_iff.mp h
    cases Copy.transition_of_step hst with
    | refused => exact ⟨rfl, fun side => rfl⟩
  | udp d =>
    obtain ⟨phase, sent⟩ := d
    cases phase <;> cases h <;> exact ⟨rfl, fun side => rfl⟩

theorem finished_of_charge (h : work.charge = some (side, bytes)) : work.finished = false := by
  cases work with
  | tcp =>
    simp only [charge] at h
    split at h
    · next hp => simp [finished, hp]
    · cases h
  | udp =>
    simp only [charge] at h
    split at h
    · next hp => simp [finished, hp]
    · next hp => simp [finished, hp]
    · cases h

theorem moves_of_endSide (hp : copy.phase = .waiting) (x : Side) :
    Moves (.tcp copy) (.tcp (endSide copy x)) fun _ => [] := by
  refine ⟨by simp [finished, hp], .inl fun side => ?_⟩
  have hwr : (endSide copy x).phase ≠ .writing side := by
    unfold endSide
    split <;> simp
  simp [forwarded, held, hp, hwr]

theorem moves_of_copy (h : Copy.step copy e = some copy') (hmt : ∀ error, e ≠ .metered error) :
    Moves (.tcp copy) (.tcp copy') fun _ => [] := by
  cases Copy.transition_of_step h with
  | read hp | shutdownReturned hp =>
    exact ⟨by simp [finished, hp], .inl fun side => by simp [forwarded, held, hp]⟩
  | ended hp | idle hp => exact moves_of_endSide hp _
  | readFailed hp =>
    exact ⟨by simp [finished, hp], .inr ⟨rfl, fun side => rfl⟩⟩
  | metered | refused => exact absurd rfl (hmt _)
  | @wrote x n hp =>
    refine ⟨by simp [finished, hp], .inl fun side => ?_⟩
    rcases x.eq_or_eq_other side with rfl | rfl
    · by_cases hn : n = (copy.pending.of side).length
      · simp [forwarded, held, hp, hn]
      · simp [forwarded, held, hp, hn]
    · have hx : x ≠ x.other := by cases x <;> simp [Side.other]
      by_cases hn : n = (copy.pending.of x).length
      · simp [forwarded, held, hp, hn, hx]
      · simp [forwarded, held, hp, hn]
  | writeFailed hp => exact ⟨by simp [finished, hp], .inr ⟨rfl, fun side => rfl⟩⟩

theorem moves_of_step (h : work.step e = some work') : Moves work work' fun _ => [] := by
  cases work with
  | tcp copy =>
    cases e with
    | copy e =>
      have hmt (error : Option Error) : e ≠ .metered error := by
        rintro rfl
        cases h
      have hst : (Copy.step copy e).map .tcp = some work' := by
        cases e with
        | metered error => exact absurd rfl (hmt error)
        | _ => exact h
      obtain ⟨copy', hco, rfl⟩ := Option.map_eq_some_iff.mp hst
      exact moves_of_copy hco hmt
    | datagram => cases h
  | udp d =>
    cases e with
    | copy => cases h
    | datagram e =>
      obtain ⟨phase, sent⟩ := d
      obtain ⟨d', hst, rfl⟩ := Option.map_eq_some_iff.mp h
      cases e with
      | relayed =>
        cases phase <;> cases hst
        exact ⟨rfl, .inl fun side => by simp [forwarded, held]⟩
      | relayFailed | writeFailed =>
        cases phase <;> cases hst
        exact ⟨rfl, .inr ⟨rfl, fun side => rfl⟩⟩
      | wrote =>
        cases phase <;> cases hst
        refine ⟨rfl, .inl fun side => ?_⟩
        cases side <;> simp [forwarded, held, Both.of, Both.set]
      | closed =>
        cases phase with
        | writing rest =>
          cases rest <;> cases hst
          exact ⟨rfl, .inr ⟨rfl, fun side => rfl⟩⟩
        | _ => cases hst

end Work

namespace Task

def due (task : Task) (side : Side) : List UInt8 :=
  match task.wake with
  | some _ => task.work.chargeOf side
  | none => []

/-- All that was accounted was forwarded or waits to be, unless the task has
ended; then what was forwarded was accounted. -/
def Backed (task : Task) : Prop :=
  (∀ side, task.accounted.of side =
      task.work.forwarded side ++ task.work.held side ++ task.due side) ∨
    task.work.finished = true ∧ ∀ side, task.work.forwarded side <+: task.accounted.of side

namespace Backed

variable {task : Task} {work : Work} {side : Side} {bytes : List UInt8}

theorem forwarded_isPrefix (h : task.Backed) (side : Side) :
    task.work.forwarded side <+: task.accounted.of side := by
  rcases h with h | ⟨-, h⟩
  · rw [h side, append_assoc]
    exact prefix_append _ _
  · exact h side

theorem eq_of_not_finished (h : task.Backed) (hli : task.work.finished = false) (side : Side) :
    task.accounted.of side = task.work.forwarded side ++ task.work.held side ++ task.due side := by
  rcases h with h | ⟨hf, -⟩
  · exact h side
  · rw [hli] at hf
    cases hf

theorem opened (user : String) (datagram : Option (List UInt8)) :
    (Task.opened user datagram).Backed := by
  refine .inl fun side => ?_
  cases datagram <;> cases side <;> rfl

theorem moves (h : task.Backed) (hmo : Work.Moves task.work work task.due) :
    Backed { task with work, wake := none } := by
  obtain ⟨hli, hgo | ⟨hf, hsa⟩⟩ := hmo
  · refine .inl fun side => ?_
    rw [h.eq_of_not_finished hli side]
    simp [due, hgo side]
  · refine .inr ⟨hf, fun side => ?_⟩
    rw [hsa side]
    exact h.forwarded_isPrefix side

theorem stops (h : task.Backed) (hf : work.finished = true)
    (hsa : ∀ side, work.forwarded side = task.work.forwarded side) :
    Backed { task with work } := by
  refine .inr ⟨hf, fun side => ?_⟩
  rw [hsa side]
  exact h.forwarded_isPrefix side

theorem charge (h : task.Backed) (hw : task.wake = none)
    (hc : task.work.charge = some (side, bytes)) (wake : Nat) :
    Backed { task.charge side bytes with wake := some wake } := by
  refine .inl fun x => ?_
  have hx := h.eq_of_not_finished (Work.finished_of_charge hc) x
  rw [show task.due x = [] by simp [due, hw]] at hx
  rcases side.eq_or_eq_other x with rfl | rfl
  · simp [Task.charge, due, Work.chargeOf, hc, hx]
  · have hne : side.other ≠ side := by cases side <;> simp [Side.other]
    simp [Task.charge, due, Work.chargeOf, hc, hx, hne]

theorem charge_stops (h : task.Backed) (hf : work.finished = true)
    (hsa : ∀ side, work.forwarded side = task.work.forwarded side) :
    Backed { task.charge side bytes with work } := by
  refine .inr ⟨hf, fun x => ?_⟩
  have hx : work.forwarded x <+: task.accounted.of x := hsa x ▸ h.forwarded_isPrefix x
  rcases side.eq_or_eq_other x with rfl | rfl
  · simpa [Task.charge] using hx.trans (prefix_append _ _)
  · simpa [Task.charge] using hx

end Backed

end Task

section Forwarding

variable {after : (wake bytes rate : Nat) → Option Nat} {s s' : System} {e : Event}

theorem backed_step (hs : ∀ task ∈ s.tasks, task.Backed) (h : s.step after e = some s') :
    ∀ task ∈ s'.tasks, task.Backed := by
  have hse {i : Nat} {task : Task} (hta : task.Backed) :
      ∀ t ∈ s.tasks.set i task, t.Backed := by
    intro t ht
    rcases mem_or_eq_of_mem_set ht with ht | rfl
    · exact hs t ht
    · exact hta
  cases transition_of_step h with
  | tick | notOpened => exact hs
  | opened =>
    intro t ht
    rcases mem_append.mp ht with ht | ht
    · exact hs t ht
    · rw [mem_singleton.mp ht]
      exact .opened _ _
  | free hta hw hc =>
    exact hse ((hs _ (mem_of_getElem? hta)).charge hw hc _)
  | charged hta hw hc hcon huse hta' =>
    have hb := hs _ (mem_of_getElem? hta)
    rcases hta' with ⟨wake, rfl⟩ | ⟨work, hm, rfl⟩
    · exact hse (hb.charge hw hc wake)
    · obtain ⟨hf, hsa⟩ := Work.finished_of_metered hm
      exact hse (hb.charge_stops hf hsa)
  | refused hta hw hm =>
    obtain ⟨hf, hsa⟩ := Work.finished_of_metered hm
    exact hse ((hs _ (mem_of_getElem? hta)).stops hf hsa)
  | @resumed i wake task work hta hw hm =>
    have hdu : task.due = task.work.chargeOf := by
      funext side
      simp [Task.due, hw]
    refine hse ((hs _ (mem_of_getElem? hta)).moves ?_)
    rw [hdu]
    exact Work.moves_of_metered hm
  | @worked i task work e hta hw hst =>
    have hdu : task.due = fun _ => [] := by
      funext side
      simp [Task.due, hw]
    have hmo : Work.Moves task.work work task.due := by
      rw [hdu]
      exact Work.moves_of_step hst
    have hb := (hs _ (mem_of_getElem? hta)).moves hmo
    rw [← hw] at hb
    exact hse hb

end Forwarding

end Espejismo.Quota
