import Mathlib.Order.Basic

/-!
# Data.Fairness

Progress of a system whose tasks are scheduled again and again.  A measure
never grows; as long as it is positive some task can lower it, stays able to
until it does, and is scheduled infinitely often.  Then the measure reaches
zero (`exists_zero`).
-/

namespace Fairness

/-- `hit` happens again and again. -/
def Recurs (hit : Nat → Prop) : Prop := ∀ n, ∃ m, n ≤ m ∧ hit m

/-- Along a run, `measure` is lowered by tasks that stay enabled until they are
scheduled. -/
structure Descent {ι : Type} (measure : Nat → Nat) (enabled hit : ι → Nat → Prop) (start : Nat) :
    Prop where
  mono : ∀ n, start ≤ n → measure (n + 1) ≤ measure n
  some_enabled : ∀ n, start ≤ n → 0 < measure n → ∃ i, enabled i n
  persists : ∀ n, start ≤ n → ∀ i, enabled i n → measure (n + 1) = measure n → enabled i (n + 1)
  lowers : ∀ n, start ≤ n → ∀ i, enabled i n → hit i n → measure (n + 1) < measure n

namespace Descent

variable {ι : Type} {measure : Nat → Nat} {enabled hit : ι → Nat → Prop} {start : Nat}

theorem drops_or_stays (h : Descent measure enabled hit start) (hn : start ≤ n) (hen : enabled i n)
    (d : Nat) :
    (∃ m, n ≤ m ∧ measure m < measure n) ∨ measure (n + d) = measure n ∧ enabled i (n + d) := by
  induction d with
  | zero => exact .inr ⟨rfl, hen⟩
  | succ d ih =>
    rcases ih with hdr | ⟨hsa, hst⟩
    · exact .inl hdr
    have hle := h.mono (n + d) (by omega)
    by_cases heq : measure (n + d + 1) = measure (n + d)
    · exact .inr ⟨heq.trans hsa, h.persists (n + d) (by omega) i hst heq⟩
    · exact .inl ⟨n + d + 1, by omega, by omega⟩

theorem exists_lower (h : Descent measure enabled hit start) (hfa : ∀ i, Recurs (hit i))
    (hn : start ≤ n) (hpo : 0 < measure n) : ∃ m, n ≤ m ∧ measure m < measure n := by
  obtain ⟨i, hen⟩ := h.some_enabled n hn hpo
  obtain ⟨m, hm, hhi⟩ := hfa i n
  obtain ⟨d, rfl⟩ : ∃ d, m = n + d := ⟨m - n, by omega⟩
  rcases h.drops_or_stays hn hen d with hdr | ⟨hsa, hst⟩
  · exact hdr
  · have := h.lowers (n + d) (by omega) i hst hhi
    exact ⟨n + d + 1, by omega, by omega⟩

/-- **Fair descent**: the measure reaches zero. -/
theorem exists_zero (h : Descent measure enabled hit start) (hfa : ∀ i, Recurs (hit i)) :
    ∃ n, start ≤ n ∧ measure n = 0 := by
  suffices hal : ∀ k n, start ≤ n → measure n = k → ∃ m, start ≤ m ∧ measure m = 0 from
    hal _ start (Nat.le_refl _) rfl
  intro k
  induction k using Nat.strongRecOn with
  | ind k ih =>
    intro n hn hk
    by_cases hze : measure n = 0
    · exact ⟨n, hn, hze⟩
    · obtain ⟨m, hm, hlt⟩ := h.exists_lower hfa hn (by omega)
      exact ih (measure m) (by omega) m (by omega) rfl

end Descent

end Fairness
