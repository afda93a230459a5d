
/-!
# Error

How a fallible operation of the program ends when it does not return a value.
The program reports errors as texts (`anyhow`).  The other outcomes are kept
apart from the texts because the protocol code tells them apart or because they
are not errors the program raises itself.
-/

namespace Espejismo

inductive Error where
  /-- An `anyhow` error, as the text it displays. -/
  | msg (text : String)
  /-- `read_exact` met the end of the stream. -/
  | eof
  | io
  /-- The task panicked; the profile decides which overflows do. -/
  | panic
  /-- The call does not return: its search has no end. -/
  | hang
  deriving DecidableEq, Repr

def orPanic : Option α → Except Error α
  | some a => .ok a
  | none => .error .panic

def finalState : EStateM.Result Error σ α → σ
  | .ok _ s => s
  | .error _ s => s

@[simp] theorem finalState_ok (a : α) (s : σ) :
    finalState (.ok a s : EStateM.Result Error σ α) = s := rfl

@[simp] theorem finalState_error (e : Error) (s : σ) :
    finalState (.error e s : EStateM.Result Error σ α) = s := rfl

/-! ## Taking a computation apart -/

section Inversion

variable {x : EStateM Error σ α} {f : α → EStateM Error σ β} {s s' : σ}

theorem run_bind_eq_ok :
    (x >>= f).run s = .ok b s' ↔ ∃ a s₁, x.run s = .ok a s₁ ∧ (f a).run s₁ = .ok b s' := by
  rw [EStateM.run_bind]
  cases x.run s with
  | ok a s₁ =>
    refine ⟨fun h => ⟨a, s₁, rfl, h⟩, ?_⟩
    rintro ⟨_, _, heq, h⟩
    cases heq
    exact h
  | error => simp

theorem run_bind_eq_error :
    (x >>= f).run s = .error e s' ↔
      x.run s = .error e s' ∨ ∃ a s₁, x.run s = .ok a s₁ ∧ (f a).run s₁ = .error e s' := by
  rw [EStateM.run_bind]
  cases x.run s with
  | ok a s₁ =>
    refine ⟨fun h => .inr ⟨a, s₁, rfl, h⟩, ?_⟩
    rintro (heq | ⟨_, _, heq, h⟩)
    · contradiction
    · cases heq
      exact h
  | error => simp

theorem run_map_ok (h : x.run s = .ok a s') : (g <$> x).run s = .ok (g a) s' := by
  change EStateM.map g x s = _
  unfold EStateM.map
  rw [show x s = .ok a s' from h]

theorem bind_eq_ok {x : Except Error α} {f : α → Except Error β} :
    (x >>= f) = .ok b ↔ ∃ a, x = .ok a ∧ f a = .ok b := by
  cases x <;> simp [bind, Except.bind]

theorem map_eq_ok {g : α → β} {x : Except Error α} :
    (do return g (← x)) = (.ok b : Except Error β) ↔ ∃ a, x = .ok a ∧ g a = b := by
  cases x <;> simp [bind, Except.bind, pure, Except.pure]

end Inversion

/-! ## What a computation leaves alone -/

/-- The computation does not change `f` of the state, whether it succeeds or
fails. -/
def Keeps (f : σ → γ) (m : EStateM Error σ α) : Prop := ∀ s, f (finalState (m.run s)) = f s

namespace Keeps

variable {f : σ → γ} {m : EStateM Error σ α} {s s' : σ}

theorem bind (hm : Keeps f m) (hg : ∀ a, Keeps f (g a)) : Keeps f (m >>= g) := by
  intro s
  have hs := hm s
  rw [EStateM.run_bind]
  cases hru : m.run s with
  | ok a s₁ =>
    rw [hru] at hs
    exact (hg a s₁).trans hs
  | error =>
    rw [hru] at hs
    exact hs

theorem throw (e : Error) : Keeps f (throw e : EStateM Error σ α) := fun _ => rfl

theorem pure (a : α) : Keeps f (pure a : EStateM Error σ α) := fun _ => rfl

theorem ok (hm : Keeps f m) (h : m.run s = .ok a s') : f s' = f s := by
  have hs := hm s
  rwa [h] at hs

theorem error (hm : Keeps f m) (h : m.run s = .error e s') : f s' = f s := by
  have hs := hm s
  rwa [h] at hs

end Keeps

end Espejismo
