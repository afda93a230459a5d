
/-!
# Upkeep

What a computation with a state and errors upholds.  `Upholds P x` says that `P` holds of
the state after `x` if it held before, whether `x` succeeds or fails.  There is one
rule for each way in which a computation is built; a state that is read is one of
which `P` holds (`upholds_get_bind`).
-/

namespace Upkeep

variable {ε σ α β : Type} {P : σ → Prop}

def Upholds (P : σ → Prop) (x : EStateM ε σ α) : Prop :=
  ∀ s, P s → match x.run s with
    | .ok _ s' => P s'
    | .error _ s' => P s'

variable {x : EStateM ε σ α} {s : σ}

theorem Upholds.of_ok (hx : Upholds P x) (h : x.run s = .ok a s') (hs : P s) : P s' := by
  have := hx s hs
  rwa [h] at this

theorem Upholds.of_error (hx : Upholds P x) (h : x.run s = .error e s') (hs : P s) : P s' := by
  have := hx s hs
  rwa [h] at this

theorem upholds_pure (a : α) : Upholds P (pure a : EStateM ε σ α) := fun _ h => h

theorem upholds_throw (e : ε) : Upholds P (throw e : EStateM ε σ α) := fun _ h => h

theorem upholds_set (h : P s) : Upholds P (set s : EStateM ε σ PUnit) := fun _ _ => h

theorem upholds_modify (h : ∀ s, P s → P (f s)) : Upholds P (modify f : EStateM ε σ PUnit) := h

theorem upholds_ofExcept (r : Except ε α) : Upholds P (MonadExcept.ofExcept r : EStateM ε σ α) := by
  cases r with
  | ok a => exact upholds_pure a
  | error e => exact upholds_throw e

theorem upholds_bind (hx : Upholds P x) (hf : ∀ a, Upholds P (f a)) : Upholds P (x >>= f) := by
  intro s hs
  rw [EStateM.run_bind]
  cases hr : x.run s with
  | ok a s' => exact hf a s' (hx.of_ok hr hs)
  | error => exact hx.of_error hr hs

theorem upholds_get_bind (hf : ∀ s, P s → Upholds P (f s)) :
    Upholds P (get >>= f) := fun s hs => hf s hs s hs

theorem upholds_ite [Decidable c] (hx : Upholds P x)
    (hy : Upholds P y) : Upholds P (if c then x else y) := by
  split
  · exact hx
  · exact hy

theorem upholds_tryCatch (hx : Upholds P x) (hh : ∀ e, Upholds P (h e)) :
    Upholds P (tryCatch x h) := by
  intro s hs
  have hca : (tryCatch x h).run s = match x.run s with
      | .ok a s' => .ok a s'
      | .error e s' => (h e).run s' := by
    change EStateM.tryCatch x h s = match x s with
      | .ok a s' => .ok a s'
      | .error e s' => (h e) s'
    unfold EStateM.tryCatch
    cases x s <;> rfl
  rw [hca]
  cases hr : x.run s with
  | ok => exact hx.of_ok hr hs
  | error e s' => exact hh e s' (hx.of_error hr hs)

end Upkeep
