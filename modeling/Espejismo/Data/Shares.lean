import Mathlib.Algebra.Order.BigOperators.Group.List
import Mathlib.Algebra.Order.Ring.Nat

/-!
# Shares

What the members of a system hold together: `total held members` sums the shares
of a list of members.  A step that changes one member moves the total by what that
member gained or gave up (`total_set`), so a resource that is conserved by every
step of a member is conserved by the system.
-/

namespace Shares

open List

variable {α : Type} {held : α → Nat} {members : List α} {i : Nat} {a : α}

def total (held : α → Nat) (members : List α) : Nat := (members.map held).sum

@[simp] theorem total_nil : total held [] = 0 := rfl

@[simp] theorem total_concat : total held (members ++ [a]) = total held members + held a := by
  simp [total]

theorem total_append (members' : List α) :
    total held (members ++ members') = total held members + total held members' := by
  simp [total]

theorem total_eq_zero (h : ∀ a ∈ members, held a = 0) : total held members = 0 :=
  sum_eq_zero (by simpa using h)

/-- **One member changes**: the rest of the total stays. -/
theorem total_set (held : α → Nat) (h : members[i]? = some a) (b : α) :
    total held (members.set i b) + held a = total held members + held b := by
  induction members generalizing i with
  | nil => simp at h
  | cons c members ih =>
    cases i with
    | zero =>
      cases h
      simp only [total, set_cons_zero, map_cons, sum_cons]
      omega
    | succ =>
      have := ih h
      simp only [total, set_cons_succ, map_cons, sum_cons] at this ⊢
      omega

theorem held_le_total (held : α → Nat) (h : members[i]? = some a) : held a ≤ total held members :=
  single_le_sum (by simp) _ (mem_map_of_mem (mem_of_getElem? h))

theorem total_add : total (fun a => held a + held' a) members =
    total held members + total held' members :=
  sum_map_add

theorem total_mono (h : ∀ a ∈ members, held a ≤ held' a) :
    total held members ≤ total held' members :=
  sum_le_sum h

end Shares
