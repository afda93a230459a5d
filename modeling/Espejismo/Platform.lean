import Espejismo.Binary.Word

/-!
# Platform

What the program uses and does not define: the cryptographic crates and the
overflow behaviour of the build.  A theorem over every `Platform` holds for every
implementation that behaves as the crates document.

The only behaviour built in is that of the authenticated cipher (`Aead`): what
was encrypted decrypts to itself under the same key and nonce, and a ciphertext is
16 bytes longer than its plaintext.  Hashes, HMAC and HKDF are functions with a
fixed output length; that two X25519 parties agree, or that derived keys differ,
is stated where it is used.
-/

namespace Espejismo

open Binary

/-- `XChaCha20Poly1305`, keyed by 32 bytes.  Encryption refuses only
plaintexts of `2 ^ 32 - 1` blocks of 64 bytes or more. -/
structure Aead where
  encrypt : Bytes 32 → Bytes 24 → List UInt8 → Option (List UInt8)
  decrypt : Bytes 32 → Bytes 24 → List UInt8 → Option (List UInt8)
  encrypt_isSome : ∀ key nonce plain, plain.length / 64 < 2 ^ 32 - 1 →
    (encrypt key nonce plain).isSome
  length_encrypt : ∀ key nonce plain cipher, encrypt key nonce plain = some cipher →
    cipher.length = plain.length + 16
  decrypt_encrypt : ∀ key nonce plain cipher, encrypt key nonce plain = some cipher →
    decrypt key nonce cipher = some plain

/-- The crates and the build profile the program runs with. -/
structure Platform where
  build : Build
  /-- `Sha256::digest`. -/
  sha256 : List UInt8 → Bytes 32
  /-- `HmacSha256` of a message under a key. -/
  hmacSha256 : List UInt8 → List UInt8 → Bytes 32
  /-- `Hkdf::<Sha256>::new(salt, ikm)` followed by `expand(info, _)` into a
  buffer of `len` bytes.  Expansion fails only above 8160 bytes, and the
  program never asks for more than 32. -/
  hkdfSha256 : (salt : Option (List UInt8)) → (ikm info : List UInt8) → (len : Nat) → Bytes len
  aead : Aead
  /-- `PublicKey::from(&secret)`. -/
  x25519Public : Bytes 32 → Bytes 32
  /-- `secret.diffie_hellman(&public)`. -/
  x25519 : Bytes 32 → Bytes 32 → Bytes 32

def fillBytes (rng : Nat → UInt8) (n : Nat) : List UInt8 := (List.range n).map rng

@[simp] theorem length_fillBytes (rng : Nat → UInt8) (n : Nat) : (fillBytes rng n).length = n := by
  simp [fillBytes]

end Espejismo
