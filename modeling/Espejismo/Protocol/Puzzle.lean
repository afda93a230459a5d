import Espejismo.Error
import Espejismo.Platform

/-!
# Protocol.Puzzle

The client puzzle (`protocol/puzzle.rs`): a nonce field of the hello is searched
until the hash of the whole body starts with enough zero bits.  A body that
passes a difficulty passes every lower one (`verify_mono`), and what the search
returns passes and differs from its input in the nonce field only
(`solve_eq_ok`).
-/

namespace Espejismo

open Binary

namespace Puzzle

def leadingZeros (byte : UInt8) : Nat := 7 - byte.toNat.log2

/-- The zero bits at the front of `bytes`, added to a `u8`: 32 zero bytes
overflow it. -/
def leadingZeroBits (b : Build) : List UInt8 → Nat → Option Nat
  | [], total => some total
  | byte :: bytes, total =>
    if byte = 0 then
      match addU8 b total 8 with
      | some total => leadingZeroBits b bytes total
      | none => none
    else addU8 b total (leadingZeros byte)

def verify (P : Platform) (body : List UInt8) (difficultyBits : Nat) : Except Error Bool :=
  let difficultyBits := min difficultyBits 24
  if difficultyBits = 0 then .ok true
  else
    match leadingZeroBits P.build (P.sha256 body).val 0 with
    | some zeros => .ok (decide (difficultyBits ≤ zeros))
    | none => .error .panic

def nonceStart : Nat := 74
def nonceEnd : Nat := 82

def withNonce (body : List UInt8) (nonce : Nat) : List UInt8 :=
  body.take nonceStart ++ (encodeBE 8 nonce ++ body.drop nonceEnd)

/-- The loop of `solve` from `nonce` on, for the nonces that are left before
the counter wraps. -/
def solveFrom (P : Platform) (body : List UInt8) (difficultyBits : Nat) :
    Nat → Nat → Except Error (List UInt8)
  | 0, _ => .error .hang
  | left + 1, nonce =>
    match verify P (withNonce body nonce) difficultyBits with
    | .ok true => .ok (withNonce body nonce)
    | .ok false => solveFrom P body difficultyBits left (nonce + 1)
    | .error e => .error e

/-- `solve`.  After `2 ^ 64` failures the counter is back at its start and the
search repeats itself forever. -/
def solve (P : Platform) (body : List UInt8) (difficultyBits : Nat) :
    Except Error (List UInt8) :=
  let difficultyBits := min difficultyBits 24
  if difficultyBits = 0 then .ok body else solveFrom P body difficultyBits (2 ^ 64) 0

variable {P : Platform} {body : List UInt8}

theorem verify_mono (hle : low ≤ high) (h : verify P body high = .ok true) :
    verify P body low = .ok true := by
  unfold verify at h ⊢
  grind

theorem verify_min (P : Platform) (body : List UInt8) (bits : Nat) :
    verify P body (min bits 24) = verify P body bits := by
  simp [verify]

theorem solveFrom_eq_ok (h : solveFrom P body bits left nonce = .ok solved) :
    ∃ n, solved = withNonce body n ∧ verify P solved bits = .ok true := by
  induction left generalizing nonce with
  | zero => contradiction
  | succ left ih =>
    unfold solveFrom at h
    split at h
    · next hv =>
      obtain rfl := Except.ok.inj h
      exact ⟨nonce, rfl, hv⟩
    · exact ih h
    · contradiction

/-- **What the search returns** passes the puzzle; only the nonce changed. -/
theorem solve_eq_ok (h : solve P body bits = .ok solved) :
    (solved = body ∨ ∃ n, solved = withNonce body n) ∧ verify P solved bits = .ok true := by
  unfold solve at h
  dsimp only at h
  split at h
  · next hze =>
    obtain rfl := Except.ok.inj h
    exact ⟨.inl rfl, by simp [verify, hze]⟩
  · obtain ⟨n, hn, hv⟩ := solveFrom_eq_ok h
    exact ⟨.inr ⟨n, hn⟩, by rwa [verify_min] at hv⟩

end Puzzle

end Espejismo
