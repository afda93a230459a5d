import Espejismo.Data.Edits

/-!
# Config.Suggestion

The distance that the message on an unknown field finds its suggestion by
(`edit_distance`).  One row of the table is kept and overwritten in place, from
the left; the cell above and to the left of the next one is saved in `diagonal`.
-/

namespace Espejismo

open Edits

def updateRow (a : UInt8) : List UInt8 → (j : Nat) → (row : List Nat) → (diagonal : Nat) → List Nat
  | [], _, row, _ => row
  | b :: right, j, row, diagonal =>
    let above := row.getD (j + 1) 0
    let cell := min (min (row.getD (j + 1) 0 + 1) (row.getD j 0 + 1)) (diagonal + (a != b).toNat)
    updateRow a right (j + 1) (row.set (j + 1) cell) above

def updateRows (right : List UInt8) : List UInt8 → (i : Nat) → (row : List Nat) → List Nat
  | [], _, row => row
  | a :: left, i, row =>
    updateRows right left (i + 1) (updateRow a right 0 (row.set 0 (i + 1)) (row.getD 0 0))

def editDistance (left right : List UInt8) : Nat :=
  (updateRows right left 0 (List.range (right.length + 1))).getD right.length 0

/-- The row holds the distances from one string, read so far, to the beginnings
of another. -/
def IsRow (l right : List UInt8) (row : List Nat) : Prop :=
  row.length = right.length + 1 ∧
    ∀ j ≤ right.length, Edits.Shortest l (right.take j).reverse (row.getD j 0)

variable {a : UInt8} {l right : List UInt8} {row : List Nat} {i j diagonal : Nat}

theorem isRow_updateRow (hre : right.drop j = rest) (hln : row.length = right.length + 1)
    (hdo : ∀ k ≤ j, k ≤ right.length → Shortest (a :: l) (right.take k).reverse (row.getD k 0))
    (hab : ∀ k, j < k → k ≤ right.length → Shortest l (right.take k).reverse (row.getD k 0))
    (hdi : Shortest l (right.take j).reverse diagonal) :
    IsRow (a :: l) right (updateRow a rest j row diagonal) := by
  induction rest generalizing j row diagonal with
  | nil =>
    have hend := List.drop_eq_nil_iff.mp hre
    exact ⟨hln, fun k hk => hdo k (by omega) hk⟩
  | cons b rest ih =>
    have hj : j < right.length := by
      rw [← List.drop_eq_nil_iff.not.trans Nat.not_le, hre]
      exact List.cons_ne_nil _ _
    obtain ⟨rfl, hta⟩ := List.cons.inj ((List.drop_eq_getElem_cons hj).symm.trans hre)
    have hne : (right.take (j + 1)).reverse = right[j] :: (right.take j).reverse := by
      rw [List.take_add_one, List.getElem?_eq_getElem hj]
      simp
    have hce : Shortest (a :: l) (right.take (j + 1)).reverse
        (min (min (row.getD (j + 1) 0 + 1) (row.getD j 0 + 1))
          (diagonal + (a != right[j]).toNat)) := by
      have hbi : (a != right[j]).toNat = if a = right[j] then 0 else 1 := by grind
      have hco := hab (j + 1) (by omega) hj
      rw [hne] at hco
      rw [hne, hbi]
      exact shortest_cons hco (hdo j (Nat.le_refl _) hj.le) hdi
    have hold := hab (j + 1) (by omega) hj
    have hse : ∀ k, k ≠ j + 1 → ∀ cell, (row.set (j + 1) cell).getD k 0 = row.getD k 0 := by
      grind
    refine ih hta (by simpa using hln) (fun k hk hle => ?_) (fun k hk hle => ?_) hold
    · by_cases hkj : k = j + 1
      · subst hkj
        simpa [List.getD_eq_getElem?_getD, List.getElem?_set, hln, hj] using hce
      · rw [hse k hkj]
        exact hdo k (by omega) hle
    · rw [hse k (by omega)]
      exact hab k (by omega) hle

theorem isRow_updateRows (left : List UInt8) (h : IsRow l right row) (hi : i = l.length) :
    IsRow (left.reverse ++ l) right (updateRows right left i row) := by
  induction left generalizing l i row with
  | nil => exact h
  | cons a left ih =>
    rw [List.reverse_cons, List.append_assoc]
    refine ih (isRow_updateRow rfl (by simpa using h.1) (fun k hk hle => ?_) (fun k hk hle => ?_)
      (h.2 0 (Nat.zero_le _))) (by simp [hi])
    · obtain rfl : k = 0 := by omega
      have hni := (shortest_nil_left (a :: l)).symm
      simpa [List.getD_eq_getElem?_getD, h.1, hi] using hni
    · have hsa : (row.set 0 (i + 1)).getD k 0 = row.getD k 0 := by grind
      rw [hsa]
      exact h.2 k hle

theorem shortest_editDistance (left right : List UInt8) :
    Shortest left right (editDistance left right) := by
  have hfi : IsRow [] right (List.range (right.length + 1)) := by
    refine ⟨List.length_range, fun j hj => ?_⟩
    have hni := shortest_nil_left (right.take j).reverse
    rw [List.length_reverse, List.length_take, Nat.min_eq_left hj] at hni
    simpa [List.getD_eq_getElem?_getD, Nat.lt_succ_of_le hj] using hni
  have hla := (isRow_updateRows left hfi rfl).2 right.length (Nat.le_refl _)
  rw [List.append_nil, List.take_length] at hla
  exact hla.reverse

/-- **`edit_distance` is the Levenshtein distance**: the least number of edits that
turn one string into the other, a metric. -/
theorem edit_distance_levenshtein :
    (∀ left right, IsLeast {n | Edits n left right} (editDistance left right)) ∧
    (∀ left right, editDistance left right = 0 ↔ left = right) ∧
    (∀ left right, editDistance left right = editDistance right left) ∧
    ∀ left middle right,
      editDistance left right ≤ editDistance left middle + editDistance middle right := by
  have hl := shortest_editDistance
  refine ⟨hl, fun left right => ?_, fun left right => ?_, fun left middle right => ?_⟩
  · constructor
    · intro h
      exact zero_iff.mp (h ▸ (hl left right).1)
    · intro h
      exact Nat.le_zero.mp ((hl left right).2 (zero_iff.mpr h))
  · exact (hl left right).unique (hl right left).symm
  · obtain ⟨k, hk, hed⟩ := (hl left middle).1.trans (hl middle right).1
    exact ((hl left right).2 hed).trans hk

end Espejismo
