import Mathlib.Data.List.Forall2

/-!
# Data.StreamCodec

A writer and a reader with state of their own that exchange items over a stream.
The writer is a relation (`step s a bs s'`: in state `s` item `a` is written as
`bs`), the reader a program over a state that holds its input.

`Lockstep` is the one obligation of a codec: reading back one item moves the reader
as writing it moved the writer.
-/

namespace StreamCodec

open List

variable {σ ρ α β ε : Type}

/-! ## What a writer leaves on the stream -/

/-- `Emitted step s items bs s'`: from `s` to `s'` the writer put `items` on
the stream as `bs`; each item stands with the writer's state after it. -/
inductive Emitted (step : σ → α → List β → σ → Prop) : σ → List (α × σ) → List β → σ → Prop
  | nil (s : σ) : Emitted step s [] [] s
  | cons {s s' s'' : σ} {a : α} {bs rest : List β} {items : List (α × σ)}
      (head : step s a bs s') (tail : Emitted step s' items rest s'') :
      Emitted step s ((a, s') :: items) (bs ++ rest) s''

namespace Emitted

variable {step : σ → α → List β → σ → Prop}

variable {s s' : σ} {bs : List β} {items : List (α × σ)}

theorem single (h : step s a bs s') : Emitted step s [(a, s')] bs s' := by
  simpa using cons h (nil s')

theorem append (h : Emitted step s items bs s')
    (h' : Emitted step s' items' bs' s'') : Emitted step s (items ++ items') (bs ++ bs') s'' := by
  induction h with
  | nil => exact h'
  | cons head _ ih =>
    rw [append_assoc]
    exact cons head (ih h')

theorem length_le (hpo : ∀ s a bs s', step s a bs s' → 0 < bs.length)
    (h : Emitted step s items bs s') : items.length ≤ bs.length := by
  induction h with
  | nil => simp
  | cons head _ ih =>
    have := hpo _ _ _ _ head
    simp only [length_cons, length_append]
    omega

end Emitted

/-! ## Readers -/

/-- Reading back an item moves the reader as writing it moved the writer.
`sync s bs r`: the reader in `r` is where the writer in `s` was, with `bs`
left to read. -/
def Lockstep (step : σ → α → List β → σ → Prop) (read : EStateM ε ρ α)
    (sync : σ → List β → ρ → Prop) : Prop :=
  ∀ s a bs s' rest r, step s a bs s' → sync s (bs ++ rest) r →
    ∃ r', read.run r = .ok a r' ∧ sync s' rest r'

/-- Read until an item is to be kept; `fuel` bounds the reads and `dry` is the
error when it runs out. -/
def readUntil (dry : ε) (read : EStateM ε ρ α) (keep : α → Bool) : Nat → EStateM ε ρ α
  | 0 => throw dry
  | fuel + 1 => do
    let a ← read
    if keep a then return a else readUntil dry read keep fuel

/-- Read `n` times or until an error, keeping the state after each item. -/
def readAll (read : EStateM ε ρ α) : Nat → ρ → List (α × ρ) × Option ε
  | 0, _ => ([], none)
  | n + 1, r =>
    match read.run r with
    | .ok a r' => ((a, r') :: (readAll read n r').1, (readAll read n r').2)
    | .error e _ => ([], some e)

theorem run_readUntil_succ (dry : ε) (read : EStateM ε ρ α) (keep : α → Bool) (fuel : Nat) (r : ρ) :
    (readUntil dry read keep (fuel + 1)).run r =
      match read.run r with
      | .ok a r' => if keep a then .ok a r' else (readUntil dry read keep fuel).run r'
      | .error e r' => .error e r' := by
  simp only [readUntil, EStateM.run_bind]
  cases read.run r with
  | ok a => by_cases hk : keep a <;> simp [hk]
  | error => rfl

namespace Lockstep

variable {step : σ → α → List β → σ → Prop} {read : EStateM ε ρ α}
  {sync : σ → List β → ρ → Prop} {s s' : σ} {items : List (α × σ)} {bs : List β} {r : ρ}

theorem readUntil_emitted (h : Lockstep step read sync) (dry : ε) (keep : α → Bool)
    (hem : Emitted step s items bs s') (hsy : sync s bs r) (hfu : items.length < fuel) :
    (∃ hidden a t more rest r', items = hidden ++ (a, t) :: more ∧
        (∀ x ∈ hidden, keep x.1 = false) ∧ keep a = true ∧
        Emitted step t more rest s' ∧ sync t rest r' ∧
        (readUntil dry read keep fuel).run r = .ok a r') ∨
      ((∀ x ∈ items, keep x.1 = false) ∧
        ∃ r' fuel', sync s' [] r' ∧ 0 < fuel' ∧
          (readUntil dry read keep fuel).run r = (readUntil dry read keep fuel').run r') := by
  induction hem generalizing r fuel with
  | nil => exact .inr ⟨by simp, r, fuel, hsy, by simpa using hfu, rfl⟩
  | @cons s t s'' a bs rest items head tail ih =>
    obtain ⟨fuel, rfl⟩ : ∃ k, fuel = k + 1 := ⟨fuel - 1, by simp at hfu; omega⟩
    obtain ⟨r', hre, hsy'⟩ := h _ _ _ _ _ _ head hsy
    have hru := run_readUntil_succ dry read keep fuel r
    rw [hre] at hru
    cases hk : keep a with
    | true =>
      refine .inl ⟨[], a, t, items, rest, r', rfl, by simp, hk, tail, hsy', ?_⟩
      rw [hru]
      simp [hk]
    | false =>
      simp only [hk, Bool.false_eq_true, if_false] at hru
      rcases ih hsy' (by simp at hfu; omega) with
        ⟨hidden, b, u, more, rest', r'', rfl, hhi, hb, hmo, hs, hr⟩ | ⟨hal, r'', f, hs, hf, hr⟩
      · refine .inl ⟨(a, t) :: hidden, b, u, more, rest', r'', rfl, ?_, hb, hmo, hs, ?_⟩
        · simpa [hk] using hhi
        · rw [hru, hr]
      · exact .inr ⟨by simpa [hk] using hal, r'', f, hs, hf, by rw [hru, hr]⟩

/-- **Lossless run**: a reader that hides some items returns exactly the others,
each at a state in step with the writer's state after that item, and then the
error of an exhausted stream. -/
theorem readAll_readUntil (h : Lockstep step read sync) (dry e : ε) (keep : α → Bool)
    (fuelOf : ρ → Nat) (hfu : ∀ s bs r, sync s bs r → bs.length < fuelOf r)
    (hpo : ∀ s a bs s', step s a bs s' → 0 < bs.length)
    (hen : ∀ s r, sync s [] r → ∃ r', read.run r = .error e r') (recv : EStateM ε ρ α)
    (hrc : ∀ r, recv.run r = (readUntil dry read keep (fuelOf r)).run r)
    (hem : Emitted step s items bs s') (hsy : sync s bs r) (hn : items.length < n) :
    ∃ got, readAll recv n r = (got, some e) ∧
      List.Forall₂ (fun x y => y.1 = x.1 ∧ ∃ rest, sync x.2 rest y.2)
        (items.filter fun x => keep x.1) got := by
  induction n generalizing s items bs r with
  | zero => omega
  | succ n ih =>
    have hle := hem.length_le hpo
    have hro : items.length < fuelOf r := Nat.lt_of_le_of_lt hle (hfu _ _ _ hsy)
    rcases h.readUntil_emitted dry keep hem hsy hro with
      ⟨hidden, a, t, more, rest, r', rfl, hhi, ha, hmo, hs, hr⟩ | ⟨hal, r', f, hs, hf, hr⟩
    · obtain ⟨got, hgo, hal⟩ := ih hmo hs (by simp at hn; omega)
      refine ⟨(a, r') :: got, ?_, ?_⟩
      · simp [readAll, hrc, hr, hgo]
      · have hno : hidden.filter (fun x => keep x.1) = [] := by
          simpa using hhi
        rw [filter_append, hno, filter_cons, if_pos ha]
        exact .cons ⟨rfl, rest, hs⟩ hal
    · obtain ⟨f, rfl⟩ : ∃ k, f = k + 1 := ⟨f - 1, by omega⟩
      obtain ⟨r'', hre⟩ := hen _ _ hs
      refine ⟨[], ?_, ?_⟩
      · simp [readAll, hrc, hr, run_readUntil_succ, hre]
      · have hno : items.filter (fun x => keep x.1) = [] := by
          simpa using hal
        rw [hno]
        exact .nil

end Lockstep

end StreamCodec
