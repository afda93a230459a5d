
/-!
# Data.ExpiryQueue

A queue that is pruned from the front: items are dropped while they have
expired, and the first live item stops the pruning.  Reading the queue as a
set of live items is right only when expiry is downward closed along the
queue — an item is expired whenever a later one is — and then stopping early
loses nothing (`dropWhile_eq_filter`).
-/

namespace ExpiryQueue

open List

variable {α : Type}

/-- **Pruning is exact**: on a queue ordered by `before`, dropping the expired
front drops every expired item. -/
theorem dropWhile_eq_filter (hdo : ∀ a b, before a b → expired b = true → expired a = true)
    {q : List α} (hor : q.Pairwise before) :
    q.dropWhile expired = q.filter fun a => !expired a := by
  induction q with
  | nil => rfl
  | cons a q ih =>
    obtain ⟨ha, hq⟩ := pairwise_cons.mp hor
    cases hexp : expired a with
    | true => simp [hexp, ih hq]
    | false =>
      -- the front item is live, so by `hdown` nothing behind it has expired
      have hli : ∀ b ∈ q, (!expired b) = true := by
        intro b hb
        cases hb' : expired b with
        | false => rfl
        | true => rw [hdo a b (ha b hb) hb'] at hexp; contradiction
      simp [hexp, filter_eq_self.mpr hli]

theorem before_getLast (hre : ∀ a, before a a) {q : List α} (hor : q.Pairwise before)
    (hl : q.getLast? = some l) : ∀ a ∈ q, before a l := by
  obtain ⟨init, rfl⟩ := getLast?_eq_some_iff.mp hl
  intro a ha
  rcases mem_append.mp ha with hin | hla
  · exact (pairwise_append.mp hor).2.2 a hin l (mem_singleton_self l)
  · rw [mem_singleton.mp hla]
    exact hre l

end ExpiryQueue
