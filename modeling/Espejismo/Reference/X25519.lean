import Espejismo.Reference.ChaChaPoly

/-!
# Reference.X25519

X25519 as an executable function: the Montgomery ladder over the field of
`2 ^ 255 - 19` elements, on natural numbers.
-/

namespace Reference

open Binary

def fieldPrime : Nat := 2 ^ 255 - 19

def fieldSub (a b : Nat) : Nat := (a + (fieldPrime - b)) % fieldPrime

/-- Ladder state: the two points as projective `(x : z)`. -/
structure Ladder where
  x2 : Nat
  z2 : Nat
  x3 : Nat
  z3 : Nat

def Ladder.swap (s : Ladder) : Ladder := { x2 := s.x3, z2 := s.z3, x3 := s.x2, z3 := s.z2 }

def ladderStep (u : Nat) (s : Ladder) : Ladder :=
  let a := (s.x2 + s.z2) % fieldPrime
  let aa := a * a % fieldPrime
  let b := fieldSub s.x2 s.z2
  let bb := b * b % fieldPrime
  let e := fieldSub aa bb
  let da := fieldSub s.x3 s.z3 * a % fieldPrime
  let cb := (s.x3 + s.z3) % fieldPrime * b % fieldPrime
  let sum := (da + cb) % fieldPrime
  let dif := fieldSub da cb
  { x2 := aa * bb % fieldPrime
    z2 := e * ((aa + 121665 * e) % fieldPrime) % fieldPrime
    x3 := sum * sum % fieldPrime
    z3 := u * (dif * dif % fieldPrime) % fieldPrime }

def ladder (u k : Nat) : Nat → Ladder → Ladder
  | 0, s => s
  | n + 1, s =>
    if k.testBit n then ladder u k n (ladderStep u s.swap).swap
    else ladder u k n (ladderStep u s)

/-- `base ^ e` by squaring, for exponents below `2 ^ n`. -/
def fieldPow (base e : Nat) : Nat → Nat
  | 0 => 1
  | n + 1 =>
    let half := fieldPow base (e / 2) n
    if e % 2 = 0 then half * half % fieldPrime else half * half % fieldPrime * base % fieldPrime

def clampScalar (secret : Bytes 32) : Nat := decodeLE secret.val % 2 ^ 254 / 8 * 8 + 2 ^ 254

def scalarMul (k u : Nat) : Nat :=
  let s := ladder u k 255 { x2 := 1, z2 := 0, x3 := u, z3 := 1 }
  s.x2 * fieldPow s.z2 (fieldPrime - 2) 255 % fieldPrime

def x25519 (secret point : Bytes 32) : Bytes 32 :=
  ⟨encodeLE 32 (scalarMul (clampScalar secret) (decodeLE point.val % 2 ^ 255 % fieldPrime)),
    length_encodeLE 32 _⟩

def basePoint : Bytes 32 := ⟨9 :: List.replicate 31 0, by simp⟩

end Reference
