import Mathlib.Data.List.Infix

/-!
# Data.Incoming

What is still to come on a connection, in the pieces in which it arrives.  A read
returns what is there of the first piece, at most as much as fits its buffer; an
exact read goes on over as many pieces as it takes.
-/

abbrev Piece (α : Type) : Type := { piece : List α // piece ≠ [] }

def Piece.rest {α : Type} (piece : Piece α) (n : Nat) (h : n < piece.val.length) : Piece α :=
  ⟨piece.val.drop n, by rw [ne_eq, List.drop_eq_nil_iff]; omega⟩

inductive Ending where
  | closed
  /-- Nothing more comes, and a read waits until its time is over. -/
  | silent
  | broken
  deriving DecidableEq

structure Incoming (α : Type) where
  pieces : List (Piece α)
  ending : Ending := .closed

namespace Incoming

open List

variable {α : Type} {inc : Incoming α} {chunk : List α} {cap n : Nat}

def bytes (inc : Incoming α) : List α := inc.pieces.flatMap (·.val)

/-! ## Reads -/

def read (cap : Nat) (inc : Incoming α) : Option (List α × Incoming α) :=
  match inc.pieces with
  | [] => none
  | piece :: rest =>
    if h : cap < piece.val.length then
      some (piece.val.take cap, { inc with pieces := piece.rest cap h :: rest })
    else some (piece.val, { inc with pieces := rest })

theorem read_cases (h : inc.read cap = some (chunk, inc')) :
    ∃ piece rest, inc.pieces = piece :: rest ∧ inc'.ending = inc.ending ∧
      ((∃ hl : cap < piece.val.length, chunk = piece.val.take cap ∧
          inc'.pieces = piece.rest cap hl :: rest) ∨
        piece.val.length ≤ cap ∧ chunk = piece.val ∧ inc'.pieces = rest) := by
  unfold read at h
  split at h
  · contradiction
  · next piece rest hp =>
    split at h <;> next hca =>
      grind

theorem read_eq_some (h : inc.read cap = some (chunk, inc')) (hca : 0 < cap) :
    inc.bytes = chunk ++ inc'.bytes ∧ chunk ≠ [] ∧ chunk.length ≤ cap := by
  obtain ⟨piece, rest, hp, -, ⟨hl, rfl, hr⟩ | ⟨hle, rfl, hr⟩⟩ := read_cases h
  · refine ⟨?_, ?_, length_take_le ..⟩
    · simp [bytes, hp, hr, Piece.rest, ← append_assoc]
    · rw [ne_eq, take_eq_nil_iff]
      rintro (rfl | hni)
      · contradiction
      · exact piece.property hni
  · exact ⟨by simp [bytes, hp, hr], piece.property, hle⟩

theorem read_eq_none (h : inc.read cap = none) : inc.bytes = [] := by
  unfold read at h
  split at h
  · next hp => simp [bytes, hp]
  · split at h <;> contradiction

/-! ## Exact reads -/

/-- `n` symbols, over as many pieces as it takes; `none` if the stream ends
before. -/
def takeExact : (n : Nat) → List (Piece α) → Option (List α × List (Piece α))
  | n, [] => if n = 0 then some ([], []) else none
  | n, piece :: rest =>
    if h : n < piece.val.length then some (piece.val.take n, piece.rest n h :: rest)
    else (takeExact (n - piece.val.length) rest).map fun (chunk, left) => (piece.val ++ chunk, left)

theorem takeExact_eq_some {pieces : List (Piece α)} (h : takeExact n pieces = some (chunk, left)) :
    pieces.flatMap (·.val) = chunk ++ left.flatMap (·.val) ∧ chunk.length = n := by
  induction pieces generalizing n chunk left with
  | nil =>
    simp only [takeExact, Option.ite_none_right_eq_some] at h
    obtain ⟨rfl, rfl, rfl⟩ := h
    exact ⟨rfl, rfl⟩
  | cons piece rest ih =>
    unfold takeExact at h
    split at h
    · next hl =>
      obtain ⟨rfl, rfl⟩ := Prod.mk.inj (Option.some.inj h)
      refine ⟨by simp [Piece.rest, ← append_assoc], ?_⟩
      rw [length_take]
      omega
    · next hle =>
      obtain ⟨⟨tail, _⟩, hta, heq⟩ := Option.map_eq_some_iff.mp h
      obtain ⟨rfl, rfl⟩ := Prod.mk.inj heq
      obtain ⟨hby, hlen⟩ := ih hta
      refine ⟨by simp [hby], ?_⟩
      rw [length_append]
      omega

/-! ## Where reads end -/

/-- Reads into a buffer of `cap` symbols end after the first `n`: at the end of
a piece, or a whole number of buffers into one. -/
def Aligned (cap : Nat) : (n : Nat) → List (Piece α) → Prop
  | n, [] => n = 0
  | n, piece :: rest =>
    n < piece.val.length ∧ cap ∣ n ∨ piece.val.length ≤ n ∧ Aligned cap (n - piece.val.length) rest

instance decidableAligned (cap : Nat) :
    (n : Nat) → (pieces : List (Piece α)) → Decidable (Aligned cap n pieces)
  | n, [] => inferInstanceAs (Decidable (n = 0))
  | n, piece :: rest =>
    have := decidableAligned cap (n - piece.val.length) rest
    inferInstanceAs (Decidable (n < piece.val.length ∧ cap ∣ n ∨
      piece.val.length ≤ n ∧ Aligned cap (n - piece.val.length) rest))

theorem aligned_zero (cap : Nat) (pieces : List (Piece α)) : Aligned cap 0 pieces := by
  cases pieces with
  | nil => rfl
  | cons piece => exact .inl ⟨length_pos_iff.mpr piece.property, Nat.dvd_zero cap⟩

theorem aligned_read (h : inc.read cap = some (chunk, inc')) (hn : chunk.length ≤ n) :
    Aligned cap n inc.pieces ↔ Aligned cap (n - chunk.length) inc'.pieces := by
  obtain ⟨piece, rest, hp, -, ⟨hl, rfl, hr⟩ | ⟨hle, rfl, hr⟩⟩ := read_cases h
  · rw [length_take, Nat.min_eq_left (Nat.le_of_lt hl)] at hn ⊢
    rw [hp, hr]
    have hdv : cap ∣ n - cap ↔ cap ∣ n := by
      rw [Nat.dvd_sub_iff_left hn (Nat.dvd_refl cap)]
    have hbe : n - cap < piece.val.length - cap ↔ n < piece.val.length := by omega
    have haf : piece.val.length - cap ≤ n - cap ↔ piece.val.length ≤ n := by omega
    have hr : n - cap - (piece.val.length - cap) = n - piece.val.length := by omega
    simp [Aligned, Piece.rest, hbe, haf, hdv, hr]
  · rw [hp, hr, Aligned]
    simp [hn, Nat.not_lt.mpr hn]

theorem not_aligned_of_read (h : inc.read cap = some (chunk, inc')) (hpo : 0 < n)
    (hn : n < chunk.length) : ¬Aligned cap n inc.pieces := by
  obtain ⟨piece, rest, hp, -, hch⟩ := read_cases h
  have hpie : n < piece.val.length ∧ n < cap := by
    rcases hch with ⟨hl, rfl, -⟩ | ⟨hle, rfl, -⟩
    · rw [length_take] at hn
      omega
    · omega
  rw [hp]
  rintro (⟨-, hdv⟩ | ⟨hle, -⟩)
  · have := Nat.le_of_dvd hpo hdv
    omega
  · omega

end Incoming
