
/-!
# Data.Channel

A bounded queue between tasks.  Sending never overtakes: what is sent stands
behind everything sent before it.  A channel whose receiver is gone takes
nothing more and holds nothing.
-/

structure Channel (α : Type) where
  capacity : Nat
  items : List α := []
  live : Bool := true

namespace Channel

variable {α : Type} {c c' : Channel α} {a : α}

def HasRoom (c : Channel α) : Prop := c.live = true ∧ c.items.length < c.capacity

instance (c : Channel α) : Decidable c.HasRoom := inferInstanceAs (Decidable (_ ∧ _))

def push (c : Channel α) (a : α) : Channel α := { c with items := c.items ++ [a] }

@[simp] theorem items_push (c : Channel α) (a : α) : (c.push a).items = c.items ++ [a] := rfl

@[simp] theorem live_push (c : Channel α) (a : α) : (c.push a).live = c.live := rfl

@[simp] theorem capacity_push (c : Channel α) (a : α) : (c.push a).capacity = c.capacity := rfl

def trySend (c : Channel α) (a : α) : Option (Channel α) :=
  if c.HasRoom then some (c.push a) else none

theorem getD_trySend (c : Channel α) (a : α) :
    ∃ sent : List α, (c.trySend a).getD c = { c with items := c.items ++ sent } ∧
      (sent = [a] ∧ c.HasRoom ∨ sent = [] ∧ ¬ c.HasRoom) := by
  by_cases h : c.HasRoom
  · refine ⟨[a], ?_, .inl ⟨rfl, h⟩⟩
    rw [trySend, if_pos h]
    rfl
  · refine ⟨[], ?_, .inr ⟨rfl, h⟩⟩
    rw [trySend, if_neg h, List.append_nil]
    rfl

def close (c : Channel α) : Channel α := { c with items := [], live := false }

theorem trySend_eq_some (h : c.trySend a = some c') : c.HasRoom ∧ c' = c.push a := by
  unfold trySend at h
  by_cases hr : c.HasRoom
  · rw [if_pos hr] at h
    exact ⟨hr, (Option.some.inj h).symm⟩
  · rw [if_neg hr] at h
    contradiction

theorem trySend_of_hasRoom (h : c.HasRoom) (a : α) : c.trySend a = some (c.push a) := if_pos h

@[simp] theorem items_close (c : Channel α) : c.close.items = [] := rfl

@[simp] theorem live_close (c : Channel α) : c.close.live = false := rfl

end Channel
