
/-!
# History

What held each time an entry was added to a log.  `Each P log` says that every
entry of the log met `P` together with the entries before it; a log that grows
at its end keeps this entry by entry (`Each.concat`).
-/

namespace History

open List

variable {α : Type} {P : List α → α → Prop} {log : List α} {c : α}

/-- Every entry of the log meets `P` with what stood before it. -/
def Each (P : List α → α → Prop) (log : List α) : Prop :=
  ∀ before c after, log = before ++ c :: after → P before c

theorem each_nil : Each P [] := by
  intro before c after h
  simp at h

theorem Each.concat (h : Each P log) (hc : P log c) : Each P (log ++ [c]) := by
  intro before d after heq
  rcases eq_nil_or_concat after with rfl | ⟨after, x, rfl⟩
  · obtain ⟨rfl, hd⟩ := append_inj' heq rfl
    cases hd
    exact hc
  · rw [concat_eq_append, ← cons_append, ← append_assoc] at heq
    exact h before d after (append_inj' heq rfl).1

theorem Each.concat_pair (h : Each P log) (hc : P log c) (hd : P (log ++ [c]) d) :
    Each P (log ++ [c, d]) := by
  have := (h.concat hc).concat hd
  rwa [append_assoc] at this

end History
