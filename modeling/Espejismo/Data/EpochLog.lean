import Mathlib.Data.List.Perm.Subperm
import Mathlib.Data.List.Nodup

/-!
# Data.EpochLog

Stamps of a counter that restarts at every epoch.  A machine holds an epoch and
a counter; emitting records the pair and advances the counter, rotating moves
to a later epoch and restarts it.  `Inv` is what any such machine keeps, and
from it no stamp is recorded twice, however often the counter restarts.
-/

namespace EpochLog

open List

def Before (a b : Nat × Nat) : Prop := a.1 < b.1 ∨ a.1 = b.1 ∧ a.2 < b.2

/-- A log of stamps of a machine that stands at `epoch` and `next`. -/
structure Inv (log : List (Nat × Nat)) (epoch next : Nat) : Prop where
  sorted : log.Pairwise Before
  below : ∀ e ∈ log, Before e (epoch, next)
  count : log.countP (fun e => e.1 = epoch) = next

namespace Inv

variable {log : List (Nat × Nat)} {epoch next : Nat}

theorem nil (epoch : Nat) : Inv [] epoch 0 := ⟨.nil, by simp, rfl⟩

theorem emit (h : Inv log epoch next) : Inv (log ++ [(epoch, next)]) epoch (next + 1) where
  sorted := by
    rw [pairwise_append]
    exact ⟨h.sorted, pairwise_singleton _ _, by simpa using h.below⟩
  below := by
    intro e he
    rcases mem_append.mp he with hold | hne
    · have := h.below e hold
      unfold Before at this ⊢
      omega
    · rw [mem_singleton.mp hne]
      exact .inr ⟨rfl, Nat.lt_succ_self next⟩
  count := by simp [h.count]

theorem rotate (h : Inv log epoch next) (hlt : epoch < epoch') :
    Inv log epoch' 0 where
  sorted := h.sorted
  below := by
    intro e he
    have := h.below e he
    unfold Before at this ⊢
    omega
  count := by
    rw [countP_eq_zero]
    intro e he
    have := h.below e he
    unfold Before at this
    simp only [decide_eq_true_eq]
    omega

theorem nodup (h : Inv log epoch next) : log.Nodup := by
  refine h.sorted.imp ?_
  rintro a b hab rfl
  unfold Before at hab
  omega

end Inv

/-- Entries with distinct stamps, all of one epoch and with counters in a window
of width `k`, are at most `k`. -/
theorem countP_le_of_window {l : List α} {stamp : α → Nat × Nat}
    (hnd : (l.map stamp).Nodup) (p : α → Bool) (g lo k : Nat)
    (h : ∀ e ∈ l, p e = true → (stamp e).1 = g ∧ lo ≤ (stamp e).2 ∧ (stamp e).2 < lo + k) :
    l.countP p ≤ k := by
  have hco : ((l.filter p).map fun e => (stamp e).2).Nodup := by
    refine List.Nodup.of_map (fun n => (g, n)) ?_
    have hst : ((l.filter p).map stamp).Nodup := hnd.sublist (filter_sublist.map stamp)
    have heq : ((l.filter p).map fun e => (stamp e).2).map (fun n => (g, n)) =
        (l.filter p).map stamp := by
      rw [map_map]
      refine map_congr_left fun e he => ?_
      obtain ⟨hme, hp⟩ := mem_filter.mp he
      rw [← (h e hme hp).1]
      rfl
    rw [heq]
    exact hst
  have hsu : ((l.filter p).map fun e => (stamp e).2) ⊆ List.range' lo k := by
    intro n hn
    obtain ⟨e, he, rfl⟩ := mem_map.mp hn
    obtain ⟨hme, hp⟩ := mem_filter.mp he
    have := (h e hme hp).2
    rw [mem_range'_1]
    omega
  have hle := (hco.subperm hsu).length_le
  rwa [length_map, length_range', ← countP_eq_length_filter] at hle

end EpochLog
