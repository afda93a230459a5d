
/-!
# Locks

Locks that live in the tasks that hold them: `holds task` is the lock that a task has
at the point where it stands.  A lock is `Free` when no task has it, and the tasks
are `Exclusive` when no two have the same one.  A task that takes a lock only when it
is free keeps them so (`Exclusive.set`).
-/

namespace Locks

variable {α κ : Type} {holds : α → Option κ} {tasks : List α} {i j : Nat} {a b : α} {k : κ}

theorem getElem?_set_cases (h : (tasks.set i a)[j]? = some b) :
    j = i ∧ b = a ∨ j ≠ i ∧ tasks[j]? = some b := by
  rw [List.getElem?_set] at h
  split at h
  · split at h <;> cases h
    exact .inl ⟨Eq.symm ‹_›, rfl⟩
  · exact .inr ⟨Ne.symm ‹_›, h⟩

theorem getElem?_concat_cases (h : (tasks ++ [a])[j]? = some b) :
    tasks[j]? = some b ∨ j = tasks.length ∧ b = a := by
  rw [List.getElem?_append] at h
  split at h
  · exact .inl h
  · obtain ⟨hlt, rfl⟩ := List.getElem?_eq_some_iff.mp h
    simp only [List.length_singleton] at hlt
    exact .inr ⟨by omega, by simp⟩

def Free (holds : α → Option κ) (tasks : List α) (k : κ) : Prop := ∀ a ∈ tasks, holds a ≠ some k

def Exclusive (holds : α → Option κ) (tasks : List α) : Prop :=
  ∀ (i j : Nat) (a b : α) (k : κ), tasks[i]? = some a → tasks[j]? = some b →
    holds a = some k → holds b = some k → i = j

theorem exclusive_nil : Exclusive holds [] := by
  intro i j a b k ha
  simp at ha

/-- **One task goes on**: what it holds then, it held before or found free. -/
theorem Exclusive.set (h : Exclusive holds tasks) (ha : tasks[i]? = some a)
    (hb : ∀ k, holds b = some k → holds a = some k ∨ Free holds tasks k) :
    Exclusive holds (tasks.set i b) := by
  have hoh {j : Nat} {c : α} {k : κ} (hc : tasks[j]? = some c) (hck : holds c = some k)
      (hbk : holds b = some k) : i = j := by
    obtain hhe | hfr := hb k hbk
    · exact h i j a c k ha hc hhe hck
    · exact absurd hck (hfr c (List.mem_of_getElem? hc))
  intro j j' c c' k hc hc' hck hck'
  obtain ⟨rfl, rfl⟩ | ⟨-, hold⟩ := getElem?_set_cases hc
  · obtain ⟨rfl, rfl⟩ | ⟨-, hold'⟩ := getElem?_set_cases hc'
    · rfl
    · exact hoh hold' hck' hck
  · obtain ⟨rfl, rfl⟩ | ⟨-, hold'⟩ := getElem?_set_cases hc'
    · exact (hoh hold hck hck').symm
    · exact h j j' c c' k hold hold' hck hck'

theorem Exclusive.concat (h : Exclusive holds tasks) (hb : holds b = none) :
    Exclusive holds (tasks ++ [b]) := by
  intro j j' c c' k hc hc' hck hck'
  obtain hc | ⟨-, rfl⟩ := getElem?_concat_cases hc
  · obtain hc' | ⟨-, rfl⟩ := getElem?_concat_cases hc'
    · exact h j j' c c' k hc hc' hck hck'
    · rw [hb] at hck'
      cases hck'
  · rw [hb] at hck
    cases hck

end Locks
