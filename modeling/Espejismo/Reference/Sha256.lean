import Espejismo.Binary.Bytes

/-!
# Reference.Sha256

SHA-256, HMAC-SHA256 and HKDF-SHA256 as executable functions on byte lists.
Words are natural numbers below `2 ^ 32`.
-/

namespace Reference

open Binary

/-! ## SHA-256 -/

def add32 (a b : Nat) : Nat := (a + b) % 2 ^ 32

def rotr32 (n x : Nat) : Nat := (x >>> n) ||| (x <<< (32 - n)) % 2 ^ 32

structure Sha256State where
  a : Nat
  b : Nat
  c : Nat
  d : Nat
  e : Nat
  f : Nat
  g : Nat
  h : Nat

def sha256Init : Sha256State :=
  { a := 0x6a09e667, b := 0xbb67ae85, c := 0x3c6ef372, d := 0xa54ff53a
    e := 0x510e527f, f := 0x9b05688c, g := 0x1f83d9ab, h := 0x5be0cd19 }

def sha256Constants : List Nat :=
  [0x428a2f98, 0x71374491, 0xb5c0fbcf, 0xe9b5dba5, 0x3956c25b, 0x59f111f1, 0x923f82a4, 0xab1c5ed5,
   0xd807aa98, 0x12835b01, 0x243185be, 0x550c7dc3, 0x72be5d74, 0x80deb1fe, 0x9bdc06a7, 0xc19bf174,
   0xe49b69c1, 0xefbe4786, 0x0fc19dc6, 0x240ca1cc, 0x2de92c6f, 0x4a7484aa, 0x5cb0a9dc, 0x76f988da,
   0x983e5152, 0xa831c66d, 0xb00327c8, 0xbf597fc7, 0xc6e00bf3, 0xd5a79147, 0x06ca6351, 0x14292967,
   0x27b70a85, 0x2e1b2138, 0x4d2c6dfc, 0x53380d13, 0x650a7354, 0x766a0abb, 0x81c2c92e, 0x92722c85,
   0xa2bfe8a1, 0xa81a664b, 0xc24b8b70, 0xc76c51a3, 0xd192e819, 0xd6990624, 0xf40e3585, 0x106aa070,
   0x19a4c116, 0x1e376c08, 0x2748774c, 0x34b0bcb5, 0x391c0cb3, 0x4ed8aa4a, 0x5b9cca4f, 0x682e6ff3,
   0x748f82ee, 0x78a5636f, 0x84c87814, 0x8cc70208, 0x90befffa, 0xa4506ceb, 0xbef9a3f7, 0xc67178f2]

def sha256Round (s : Sha256State) (k w : Nat) : Sha256State :=
  let sum1 := rotr32 6 s.e ^^^ rotr32 11 s.e ^^^ rotr32 25 s.e
  let choice := (s.e &&& s.f) ^^^ ((2 ^ 32 - 1 - s.e) &&& s.g)
  let t1 := add32 s.h (add32 sum1 (add32 choice (add32 k w)))
  let sum0 := rotr32 2 s.a ^^^ rotr32 13 s.a ^^^ rotr32 22 s.a
  let majority := (s.a &&& s.b) ^^^ (s.a &&& s.c) ^^^ (s.b &&& s.c)
  { a := add32 t1 (add32 sum0 majority), b := s.a, c := s.b, d := s.c
    e := add32 s.d t1, f := s.e, g := s.f, h := s.g }

def sha256Advance (window : List Nat) : List Nat :=
  let w15 := window.getD 1 0
  let w2 := window.getD 14 0
  let small0 := rotr32 7 w15 ^^^ rotr32 18 w15 ^^^ (w15 >>> 3)
  let small1 := rotr32 17 w2 ^^^ rotr32 19 w2 ^^^ (w2 >>> 10)
  window.tail ++ [add32 (window.headD 0) (add32 small0 (add32 (window.getD 9 0) small1))]

def sha256Rounds : List Nat → List Nat → Sha256State → Sha256State
  | [], _, s => s
  | k :: ks, window, s =>
    sha256Rounds ks (sha256Advance window) (sha256Round s k (window.headD 0))

def groups (n : Nat) : Nat → List α → List (List α)
  | 0, _ => []
  | fuel + 1, l => if l.isEmpty then [] else l.take n :: groups n fuel (l.drop n)

def sha256Compress (s : Sha256State) (block : List UInt8) : Sha256State :=
  let t := sha256Rounds sha256Constants ((groups 4 16 block).map decodeBE) s
  { a := add32 s.a t.a, b := add32 s.b t.b, c := add32 s.c t.c, d := add32 s.d t.d
    e := add32 s.e t.e, f := add32 s.f t.f, g := add32 s.g t.g, h := add32 s.h t.h }

def sha256Pad (msg : List UInt8) : List UInt8 :=
  msg ++ 0x80 :: List.replicate ((119 - msg.length % 64) % 64) 0 ++ encodeBE 8 (8 * msg.length)

def sha256 (msg : List UInt8) : Bytes 32 :=
  let padded := sha256Pad msg
  let s := (groups 64 (padded.length / 64) padded).foldl sha256Compress sha256Init
  ⟨encodeBE 4 s.a ++ encodeBE 4 s.b ++ encodeBE 4 s.c ++ encodeBE 4 s.d ++
    encodeBE 4 s.e ++ encodeBE 4 s.f ++ encodeBE 4 s.g ++ encodeBE 4 s.h, by simp⟩

/-! ## HMAC and HKDF -/

def hmacBlock (key : List UInt8) (pad : UInt8) : List UInt8 :=
  let key := if 64 < key.length then (sha256 key).val else key
  (key ++ List.replicate (64 - key.length) 0).map (· ^^^ pad)

def hmacSha256 (key msg : List UInt8) : Bytes 32 :=
  sha256 (hmacBlock key 0x5c ++ (sha256 (hmacBlock key 0x36 ++ msg)).val)

def hkdfBlocks (prk info : List UInt8) : Nat → Nat → List UInt8 → List UInt8
  | 0, _, _ => []
  | n + 1, i, last =>
    let block := (hmacSha256 prk (last ++ info ++ [UInt8.ofNat i])).val
    block ++ hkdfBlocks prk info n (i + 1) block

theorem length_hkdfBlocks (prk info : List UInt8) (n i : Nat) (last : List UInt8) :
    (hkdfBlocks prk info n i last).length = 32 * n := by
  induction n generalizing i last with
  | zero => rfl
  | succ n ih =>
    simp only [hkdfBlocks, List.length_append, ih, Bytes.length_val]
    omega

def hkdfSha256 (salt : Option (List UInt8)) (ikm info : List UInt8) (len : Nat) : Bytes len :=
  let prk := (hmacSha256 (salt.getD []) ikm).val
  ⟨(hkdfBlocks prk info (len / 32 + 1) 1 []).take len, by
    rw [List.length_take, length_hkdfBlocks]
    omega⟩

end Reference
