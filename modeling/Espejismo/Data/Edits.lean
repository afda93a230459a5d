import Mathlib.Order.Bounds.Basic

/-!
# Data.Edits

Scripts that turn one list into another by insertions, deletions and
substitutions, from the front to the back, and the recurrence of the shortest one.
-/

/-- `n` insertions, deletions and substitutions turn one list into the other. -/
inductive Edits {α : Type} : Nat → List α → List α → Prop
  | nil : Edits 0 [] []
  | keep (a : α) : Edits n l r → Edits n (a :: l) (a :: r)
  | insert (b : α) : Edits n l r → Edits (n + 1) l (b :: r)
  | delete (a : α) : Edits n l r → Edits (n + 1) (a :: l) r
  | substitute (a b : α) : Edits n l r → Edits (n + 1) (a :: l) (b :: r)

namespace Edits

variable {α : Type} {l r t l' r' : List α} {m n : Nat}

theorem zero_iff : Edits 0 l r ↔ l = r := by
  constructor
  · intro h
    generalize hn : 0 = n at h
    induction h with grind
  · rintro rfl
    induction l with
    | nil => exact .nil
    | cons a l ih => exact .keep a ih

theorem symm (h : Edits n l r) : Edits n r l := by
  induction h with grind [Edits]

theorem append (h : Edits m l r) (h' : Edits n l' r') : Edits (m + n) (l ++ l') (r ++ r') := by
  induction h with grind [Edits]

theorem reverse (h : Edits n l r) : Edits n l.reverse r.reverse := by
  induction h with
  | nil => exact .nil
  | keep a _ ih => simpa using ih.append (.keep a .nil)
  | insert b _ ih => simpa using ih.append (.insert b .nil)
  | delete a _ ih => simpa using ih.append (.delete a .nil)
  | substitute a b _ ih => simpa using ih.append (.substitute a b .nil)

theorem trans (h : Edits m l r) (h' : Edits n r t) : ∃ k ≤ m + n, Edits k l t := by
  induction h generalizing n t with
  | nil => exact ⟨n, by omega, h'⟩
  | delete a _ ih =>
    obtain ⟨k, hk, he⟩ := ih h'
    exact ⟨k + 1, by omega, .delete a he⟩
  | keep a _ ih | insert a _ ih | substitute _ a _ ih =>
    generalize hr : a :: _ = r at h'
    induction h' with
    | nil => contradiction
    | insert b _ ih' =>
      obtain ⟨k, hk, he⟩ := ih' hr
      exact ⟨k + 1, by omega, .insert b he⟩
    | keep _ h' | delete _ h' | substitute _ _ h' =>
      -- what the second script does with `a`, the two scripts do together
      cases hr
      obtain ⟨k, hk, he⟩ := ih h'
      first
        | exact ⟨k, by omega, .keep a he⟩
        | exact ⟨k, by omega, he⟩
        | exact ⟨k + 1, by omega, .delete _ he⟩
        | exact ⟨k + 1, by omega, .insert _ he⟩
        | exact ⟨k + 1, by omega, .substitute _ _ he⟩

def Shortest (l r : List α) (n : Nat) : Prop := IsLeast {n | Edits n l r} n

theorem shortest_nil_left (r : List α) : Shortest [] r r.length := by
  induction r with
  | nil => exact ⟨.nil, fun _ _ => Nat.zero_le _⟩
  | cons b r ih =>
    refine ⟨.insert b ih.1, fun n h => ?_⟩
    cases h with
    | insert _ h => exact Nat.succ_le_succ (ih.2 h)

theorem Shortest.symm (h : Shortest l r n) : Shortest r l n := ⟨h.1.symm, fun _ h' => h.2 h'.symm⟩

theorem Shortest.reverse (h : Shortest l.reverse r.reverse n) : Shortest l r n :=
  ⟨by simpa using h.1.reverse, fun _ h' => h.2 h'.reverse⟩

/-- **Recurrence**: the last edit of a shortest script is the best of the three. -/
theorem shortest_cons [DecidableEq α] (hx : Shortest l (b :: r) x) (hy : Shortest (a :: l) r y)
    (hz : Shortest l r z) :
    Shortest (a :: l) (b :: r) (min (min (x + 1) (y + 1)) (z + if a = b then 0 else 1)) := by
  constructor
  · have hlas : Edits (z + if a = b then 0 else 1) (a :: l) (b :: r) := by
      split
      · next hab => exact hab ▸ .keep a hz.1
      · exact .substitute a b hz.1
    have hdel := Edits.delete a hx.1
    have hins := Edits.insert b hy.1
    grind
  · intro n h
    cases h with
    | keep _ h => grind [hz.2 h]
    | insert _ h => grind [hy.2 h]
    | delete _ h => grind [hx.2 h]
    | substitute _ _ h => grind [hz.2 h]

end Edits
