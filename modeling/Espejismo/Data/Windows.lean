import Mathlib.Algebra.GroupWithZero.Nat

/-!
# Data.Windows

A log of amounts charged to keys and of resets, and the sums of each key between
its resets: one for the window that is still open and one for each closed one.
-/

namespace Windows

open List

inductive Entry (κ : Type) where
  | reset (key : κ)
  | charge (key : κ) (amount : Nat)
  deriving DecidableEq

structure Sums where
  current : Nat := 0
  closed : List Nat := []
  deriving DecidableEq

variable {κ : Type} [DecidableEq κ]

def record (key : κ) (sums : Sums) : Entry κ → Sums
  | .reset k => if k = key then ⟨0, sums.current :: sums.closed⟩ else sums
  | .charge k amount => if k = key then { sums with current := sums.current + amount } else sums

def sums (key : κ) (log : List (Entry κ)) : Sums := log.foldl (record key) {}

def Sums.total (s : Sums) : Nat := s.current + s.closed.sum

def Sums.Bounded (s : Sums) (bound : Nat) : Prop := s.current ≤ bound ∧ ∀ w ∈ s.closed, w ≤ bound

instance (s : Sums) (bound : Nat) : Decidable (s.Bounded bound) :=
  inferInstanceAs (Decidable (_ ∧ _))

section Append

variable (key : κ) (log : List (Entry κ)) (amount : Nat)

@[simp] theorem sums_nil : sums key [] = {} := rfl

@[simp] theorem sums_append_singleton (entry : Entry κ) :
    sums key (log ++ [entry]) = record key (sums key log) entry := by
  simp [sums]

@[simp] theorem record_reset (s : Sums) :
    record key s (.reset key) = ⟨0, s.current :: s.closed⟩ := by
  simp [record]

@[simp] theorem record_charge (s : Sums) :
    record key s (.charge key amount) = { s with current := s.current + amount } := by
  simp [record]

variable {key}

theorem record_reset_of_ne (s : Sums) (h : key ≠ other) : record other s (.reset key) = s := by
  simp [record, h]

theorem record_charge_of_ne (s : Sums) (h : key ≠ other) :
    record other s (.charge key amount) = s := by
  simp [record, h]

end Append

theorem total_record_reset (key k : κ) (s : Sums) : (record key s (.reset k)).total = s.total := by
  by_cases h : k = key
  · subst h
    simp [Sums.total]
  · rw [record_reset_of_ne s h]

theorem total_record_charge (key k : κ) (s : Sums) (amount : Nat) :
    (record key s (.charge k amount)).total = s.total + if k = key then amount else 0 := by
  by_cases h : k = key
  · subst h
    simp only [record_charge, Sums.total, if_true]
    omega
  · rw [record_charge_of_ne amount s h, if_neg h, Nat.add_zero]

theorem record_cases (key : κ) (s : Sums) (entry : Entry κ) :
    (record key s entry).closed = s.current :: s.closed ∨
      (record key s entry).closed = s.closed ∧ s.current ≤ (record key s entry).current := by
  cases entry with
  | reset k =>
    by_cases hk : k = key
    · subst hk
      exact .inl (by simp)
    · rw [record_reset_of_ne s hk]
      exact .inr ⟨rfl, Nat.le_refl _⟩
  | charge k amount =>
    by_cases hk : k = key
    · subst hk
      exact .inr ⟨by simp, by simp⟩
    · rw [record_charge_of_ne amount s hk]
      exact .inr ⟨rfl, Nat.le_refl _⟩

variable {key : κ} {bound : Nat} {log : List (Entry κ)}

theorem Sums.Bounded.of_record (h : (record key s entry).Bounded bound) : s.Bounded bound := by
  obtain ⟨hcu, hcl⟩ := h
  rcases record_cases key s entry with hr | ⟨hs, hle⟩
  · rw [hr] at hcl
    exact forall_mem_cons.mp hcl
  · rw [hs] at hcl
    exact ⟨Nat.le_trans hle hcu, hcl⟩

theorem Sums.Bounded.of_append (h : (sums key (log ++ more)).Bounded bound) :
    (sums key log).Bounded bound := by
  induction more generalizing log with
  | nil => simpa using h
  | cons entry more ih =>
    rw [append_cons] at h
    have hen := ih h
    rw [sums_append_singleton] at hen
    exact hen.of_record

theorem closed_length_le_append (key : κ) (log more : List (Entry κ)) :
    (sums key log).closed.length ≤ (sums key (log ++ more)).closed.length := by
  induction more generalizing log with
  | nil => simp
  | cons entry more ih =>
    have hm := ih (log ++ [entry])
    rw [← append_cons, sums_append_singleton] at hm
    rcases record_cases key (sums key log) entry with hr | ⟨hs, -⟩
    · rw [hr, length_cons] at hm
      omega
    · rwa [hs] at hm

theorem current_le_append (h : (sums key (log ++ more)).closed = (sums key log).closed) :
    (sums key log).current ≤ (sums key (log ++ more)).current := by
  induction more generalizing log with
  | nil => simp
  | cons entry more ih =>
    rw [append_cons] at h ⊢
    have hln := closed_length_le_append key (log ++ [entry]) more
    rw [h, sums_append_singleton] at hln
    rcases record_cases key (sums key log) entry with hr | ⟨hs, hle⟩
    · rw [hr, length_cons] at hln
      omega
    have hm : (sums key (log ++ [entry])).current ≤ _ := ih (by rw [h, sums_append_singleton, hs])
    rw [sums_append_singleton] at hm
    exact Nat.le_trans hle hm

end Windows
