
/-!
# Data.Keyed

A list addressed by position whose elements carry a key of their own.  While no
two elements share a key, an element can be found by its key (`get`), and
updates that keep the keys change exactly the element at their position.
-/

namespace Keyed

open List

variable {α κ : Type} {key : α → κ} {l l' : List α} {i : Nat} {a : α} {k : κ}

def Unique (key : α → κ) (l : List α) : Prop :=
  ∀ (i j : Nat) (a b : α), l[i]? = some a → l[j]? = some b → key a = key b → i = j

section Update

variable {f : Nat → α → α} (hf : ∀ i a, key (f i a) = key a)
  (hl : ∀ i : Nat, l'[i]? = l[i]?.map (f i))

include hf hl

theorem Unique.update (hu : Unique key l) : Unique key l' := by
  intro i j a b hi hj hab
  rw [hl, Option.map_eq_some_iff] at hi hj
  obtain ⟨a, hi, rfl⟩ := hi
  obtain ⟨b, hj, rfl⟩ := hj
  rw [hf, hf] at hab
  exact hu i j a b hi hj hab

end Update

variable [DecidableEq κ]

def get (key : α → κ) (l : List α) (k : κ) : Option α := l.find? fun a => key a = k

theorem get_eq_none_iff : get key l k = none ↔ ∀ a ∈ l, key a ≠ k := by
  simp [get]

theorem exists_of_get (h : get key l k = some a) : key a = k ∧ ∃ i : Nat, l[i]? = some a := by
  refine ⟨by simpa using find?_some h, ?_⟩
  exact mem_iff_getElem?.mp (mem_of_find?_eq_some h)

theorem Unique.get_eq (hu : Unique key l) (h : l[i]? = some a) : get key l (key a) = some a := by
  cases hg : get key l (key a) with
  | none => exact absurd rfl (get_eq_none_iff.mp hg a (mem_of_getElem? h))
  | some b =>
    obtain ⟨hke, j, hj⟩ := exists_of_get hg
    have hij := hu j i b a hj h hke
    rw [hij, h] at hj
    exact hj.symm

/-! ## Updates that keep the keys -/

section Update

variable {f : Nat → α → α} (hf : ∀ i a, key (f i a) = key a)
  (hl : ∀ i : Nat, l'[i]? = l[i]?.map (f i))

include hf hl

theorem get_update (hu : Unique key l) (h : l[i]? = some a) :
    get key l' (key a) = some (f i a) := by
  have hi : l'[i]? = some (f i a) := by rw [hl, h, Option.map_some]
  rw [← hf i a]
  exact (hu.update hf hl).get_eq hi

theorem get_update_none (h : get key l k = none) : get key l' k = none := by
  rw [get_eq_none_iff] at h ⊢
  intro b hb
  obtain ⟨i, hi⟩ := mem_iff_getElem?.mp hb
  rw [hl, Option.map_eq_some_iff] at hi
  obtain ⟨a, hi, rfl⟩ := hi
  rw [hf]
  exact h a (mem_of_getElem? hi)

end Update

/-! ## A new element -/

theorem Unique.concat (hu : Unique key l) (h : get key l (key a) = none) :
    Unique key (l ++ [a]) := by
  have hne : ∀ (i : Nat) (b : α), (l ++ [a])[i]? = some b →
      (i < l.length ∧ l[i]? = some b) ∨ (i = l.length ∧ b = a) := by
    intro i b hi
    rw [List.getElem?_append] at hi
    by_cases hlt : i < l.length
    · rw [if_pos hlt] at hi
      exact .inl ⟨hlt, hi⟩
    rw [if_neg hlt] at hi
    have hle := (List.getElem?_eq_some_iff.mp hi).1
    simp only [List.length_singleton] at hle
    exact .inr ⟨by omega, List.mem_singleton.mp (List.mem_of_getElem? hi)⟩
  have hfr := get_eq_none_iff.mp h
  intro i j b c hi hj hbc
  rcases hne i b hi with ⟨-, hi'⟩ | ⟨hi', hb⟩ <;> rcases hne j c hj with ⟨-, hj'⟩ | ⟨hj', hc⟩
  · exact hu i j b c hi' hj' hbc
  · exact absurd (hbc.trans (congrArg key hc)) (hfr b (List.mem_of_getElem? hi'))
  · exact absurd (hbc.symm.trans (congrArg key hb)) (hfr c (List.mem_of_getElem? hj'))
  · exact hi'.trans hj'.symm

theorem get_concat (h : get key l (key a) = none) :
    get key (l ++ [a]) k = if key a = k then some a else get key l k := by
  by_cases hk : key a = k
  · subst hk
    rw [get]
    rw [get] at h
    simp [h]
  · simp [hk, get]

end Keyed
