
/-!
# Data.Machine

A machine given by a step function that refuses the events its state does not
allow.  `Reach step ok s₀ s` are the states of the runs whose steps all meet `ok`:
with `fun _ _ => True` these are all runs.
-/

namespace Machine

variable {σ ε : Type} {step : σ → ε → Option σ} {ok : σ → ε → Prop} {s₀ s s' : σ}

/-- The states of the runs from `s₀` whose steps all meet `ok`. -/
inductive Reach (step : σ → ε → Option σ) (ok : σ → ε → Prop) (s₀ : σ) : σ → Prop
  | refl : Reach step ok s₀ s₀
  | next {s s' : σ} {e : ε} (h : Reach step ok s₀ s) (ho : ok s e) (hs : step s e = some s') :
      Reach step ok s₀ s'

abbrev Any (_ : σ) (_ : ε) : Prop := True

namespace Reach

/-- **Run rule**: what the steps keep holds throughout. -/
theorem invariant {I : σ → Prop} (h : Reach step ok s₀ s) (hin : I s₀)
    (hst : ∀ s e s', I s → ok s e → step s e = some s' → I s') : I s := by
  induction h with
  | refl => exact hin
  | next _ ho hs ih => exact hst _ _ _ ih ho hs

theorem invariant_of {I J : σ → Prop} (h : Reach step ok s₀ s) (hJ : ∀ s, Reach step ok s₀ s → J s)
    (hin : I s₀) (hst : ∀ s e s', J s → I s → ok s e → step s e = some s' → I s') : I s := by
  induction h with
  | refl => exact hin
  | next hr ho hs ih => exact hst _ _ _ (hJ _ hr) ih ho hs

theorem mono (h : Reach step ok s₀ s) (him : ∀ s e, ok s e → ok' s e) : Reach step ok' s₀ s := by
  induction h with
  | refl => exact .refl
  | next _ ho hs ih => exact .next ih (him _ _ ho) hs

theorem trans (h : Reach step ok s₀ s) (h' : Reach step ok s s') : Reach step ok s₀ s' := by
  induction h' with
  | refl => exact h
  | next _ ho hs ih => exact .next ih ho hs

end Reach

def run (step : σ → ε → Option σ) (ok : σ → ε → Prop) [∀ s e, Decidable (ok s e)] :
    σ → List ε → Option σ
  | s, [] => some s
  | s, e :: es => if ok s e then (step s e).bind fun s' => run step ok s' es else none

section Run

variable [∀ s e, Decidable (ok s e)]

theorem Reach.of_run (h : run step ok s es = some s') : Reach step ok s s' := by
  induction es generalizing s with
  | nil =>
    cases h
    exact .refl
  | cons e es ih =>
    unfold run at h
    by_cases ho : ok s e
    · rw [if_pos ho, Option.bind_eq_some_iff] at h
      obtain ⟨t, hs, hre⟩ := h
      exact (Reach.next .refl ho hs).trans (ih hre)
    · rw [if_neg ho] at h
      contradiction

end Run

/-! ## Logs -/

section Log

variable {ω : Type} {observe : σ → ε → List ω}

/-- The machine with a log, to which each step adds what is observed of it. -/
def logged (step : σ → ε → Option σ) (observe : σ → ε → List ω) (t : σ × List ω) (e : ε) :
    Option (σ × List ω) :=
  (step t.1 e).map fun s => (s, t.2 ++ observe t.1 e)

theorem logged_eq_some :
    logged step observe t e = some t' ↔ step t.1 e = some t'.1 ∧ t'.2 = t.2 ++ observe t.1 e := by
  rw [logged, Option.map_eq_some_iff]
  constructor
  · rintro ⟨s, hs, rfl⟩
    exact ⟨hs, rfl⟩
  · rintro ⟨hs, hlo⟩
    exact ⟨t'.1, hs, by rw [← hlo]⟩

end Log

theorem exists_of_run (step : σ → ε → Option σ) (ok : σ → ε → Prop) [∀ s e, Decidable (ok s e)]
    (s : σ) (p : σ → Prop) [DecidablePred p] (es : List ε)
    (h : (run step ok s es).any (fun t => decide (p t)) = true) : ∃ t, Reach step ok s t ∧ p t := by
  rw [Option.any_eq_true] at h
  obtain ⟨t, hru, hp⟩ := h
  exact ⟨t, .of_run hru, of_decide_eq_true hp⟩

end Machine
