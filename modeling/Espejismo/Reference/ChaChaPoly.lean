import Espejismo.Reference.Sha256

/-!
# Reference.ChaChaPoly

XChaCha20-Poly1305 as an executable function on byte lists, with the laws of an
authenticated cipher: what was sealed opens to itself, and a sealed message is
16 bytes longer than its plaintext.
-/

namespace Reference

open Binary List

def encodeLE (n v : Nat) : List UInt8 := (encodeBE n v).reverse

def decodeLE (bs : List UInt8) : Nat := decodeBE bs.reverse

@[simp] theorem length_encodeLE (n v : Nat) : (encodeLE n v).length = n := by simp [encodeLE]

/-! ## ChaCha20 -/

def rotl32 (n x : Nat) : Nat := rotr32 (32 - n) x

def quarterRound (s : List Nat) (i j k l : Nat) : List Nat :=
  let a := add32 (s.getD i 0) (s.getD j 0)
  let d := rotl32 16 (s.getD l 0 ^^^ a)
  let c := add32 (s.getD k 0) d
  let b := rotl32 12 (s.getD j 0 ^^^ c)
  let a := add32 a b
  let d := rotl32 8 (d ^^^ a)
  let c := add32 c d
  let b := rotl32 7 (b ^^^ c)
  (((s.set i a).set j b).set k c).set l d

def doubleRound (s : List Nat) : List Nat :=
  let s := quarterRound s 0 4 8 12
  let s := quarterRound s 1 5 9 13
  let s := quarterRound s 2 6 10 14
  let s := quarterRound s 3 7 11 15
  let s := quarterRound s 0 5 10 15
  let s := quarterRound s 1 6 11 12
  let s := quarterRound s 2 7 8 13
  quarterRound s 3 4 9 14

def chachaRounds (s : List Nat) : List Nat := Nat.repeat doubleRound 10 s

def wordsLE (bs : List UInt8) : List Nat := (groups 4 (bs.length / 4) bs).map decodeLE

/-- Constants, key words, then the four words of counter and nonce. -/
def chachaState (key : List UInt8) (last : List UInt8) : List Nat :=
  [0x61707865, 0x3320646e, 0x79622d32, 0x6b206574] ++ wordsLE key ++ wordsLE last

def chachaBlock (key nonce : List UInt8) (counter : Nat) : Bytes 64 :=
  let s := chachaState key (encodeLE 4 counter ++ nonce)
  let t := chachaRounds s
  ⟨(List.range 16).flatMap fun i => encodeLE 4 (add32 (s.getD i 0) (t.getD i 0)), by
    simp only [List.length_flatMap, length_encodeLE]
    rfl⟩

def hchacha (key nonce : List UInt8) : List UInt8 :=
  let t := chachaRounds (chachaState key nonce)
  (t.take 4 ++ t.drop 12).flatMap (encodeLE 4)

def keystream (key nonce : List UInt8) (counter n : Nat) : List UInt8 :=
  (List.range n).flatMap fun i => (chachaBlock key nonce (counter + i)).val

theorem length_keystream (key nonce : List UInt8) (counter n : Nat) :
    (keystream key nonce counter n).length = 64 * n := by
  simp [keystream, map_const', Nat.mul_comm]

/-! ## Poly1305 -/

def poly1305 (key msg : List UInt8) : Bytes 16 :=
  let r := decodeLE (key.take 16) &&& 0x0ffffffc0ffffffc0ffffffc0fffffff
  let acc := (groups 16 (msg.length / 16 + 1) msg).foldl
    (fun acc block => (acc + decodeLE (block ++ [1])) * r % (2 ^ 130 - 5)) 0
  ⟨encodeLE 16 (acc + decodeLE (key.drop 16)), by simp⟩

/-! ## The sealed message -/

def innerNonce (nonce : Bytes 24) : List UInt8 := [0, 0, 0, 0] ++ nonce.val.drop 16

def sealTag (key : Bytes 32) (nonce : Bytes 24) (cipher : List UInt8) : Bytes 16 :=
  let subkey := hchacha key.val (nonce.val.take 16)
  let polyKey := (chachaBlock subkey (innerNonce nonce) 0).val.take 32
  poly1305 polyKey (cipher ++ List.replicate ((16 - cipher.length % 16) % 16) 0 ++
    encodeLE 8 0 ++ encodeLE 8 cipher.length)

def sealMask (key : Bytes 32) (nonce : Bytes 24) (len : Nat) : List UInt8 :=
  keystream (hchacha key.val (nonce.val.take 16)) (innerNonce nonce) 1 (len / 64 + 1)

theorem le_length_sealMask (key : Bytes 32) (nonce : Bytes 24) (len : Nat) :
    len ≤ (sealMask key nonce len).length := by
  rw [sealMask, length_keystream]
  omega

def chachaPolySeal (key : Bytes 32) (nonce : Bytes 24) (plain : List UInt8) :
    Option (List UInt8) :=
  if plain.length / 64 < 2 ^ 32 - 1 then
    let cipher := xorBytes plain (sealMask key nonce plain.length)
    some (cipher ++ (sealTag key nonce cipher).val)
  else none

def chachaPolyOpen (key : Bytes 32) (nonce : Bytes 24) (sealed : List UInt8) :
    Option (List UInt8) :=
  let cipher := sealed.take (sealed.length - 16)
  if sealed.length < 16 ∨ 2 ^ 32 - 1 ≤ cipher.length / 64 then none
  else if sealed.drop (sealed.length - 16) = (sealTag key nonce cipher).val then
    some (xorBytes cipher (sealMask key nonce cipher.length))
  else none

variable {key : Bytes 32} {nonce : Bytes 24} {plain sealed : List UInt8}

theorem length_chachaPolySeal (h : chachaPolySeal key nonce plain = some sealed) :
    sealed.length = plain.length + 16 := by
  unfold chachaPolySeal at h
  by_cases hle : plain.length / 64 < 2 ^ 32 - 1
  · rw [if_pos hle] at h
    have hx := length_xorBytes (le_length_sealMask key nonce plain.length)
    rw [← Option.some.inj h, length_append, Bytes.length_val, hx]
  · rw [if_neg hle] at h; contradiction

theorem chachaPolyOpen_seal (h : chachaPolySeal key nonce plain = some sealed) :
    chachaPolyOpen key nonce sealed = some plain := by
  have hle := length_chachaPolySeal h
  unfold chachaPolySeal at h
  by_cases hsi : plain.length / 64 < 2 ^ 32 - 1
  · rw [if_pos hsi] at h
    have hma := le_length_sealMask key nonce plain.length
    have hx := length_xorBytes hma
    have hcu : sealed.length - 16 = plain.length := by omega
    have hse := (Option.some.inj h).symm
    have hta : sealed.take plain.length =
        xorBytes plain (sealMask key nonce plain.length) := by
      rw [hse, take_left' hx]
    have hdr : sealed.drop plain.length = (sealTag key nonce
        (xorBytes plain (sealMask key nonce plain.length))).val := by
      rw [hse, drop_left' hx]
    unfold chachaPolyOpen
    rw [hcu, hta, hdr]
    dsimp only
    rw [hx, if_neg (by omega), if_pos rfl, xorBytes_xorBytes hma]
  · rw [if_neg hsi] at h; contradiction

end Reference
