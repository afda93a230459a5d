import Espejismo.Platform
import Espejismo.Reference.X25519

/-!
# Reference.Platform

The `Platform` made of the reference functions.  It computes what the crates of
the program compute, so that a theorem about every platform can be evaluated.
-/

namespace Espejismo

open Binary

def Aead.reference : Aead where
  encrypt := Reference.chachaPolySeal
  decrypt := Reference.chachaPolyOpen
  encrypt_isSome := by
    intro key nonce plain h
    rw [Reference.chachaPolySeal, if_pos h]
    rfl
  length_encrypt := fun _ _ _ _ h => Reference.length_chachaPolySeal h
  decrypt_encrypt := fun _ _ _ _ h => Reference.chachaPolyOpen_seal h

def Platform.reference (build : Build) : Platform where
  build := build
  sha256 := Reference.sha256
  hmacSha256 := Reference.hmacSha256
  hkdfSha256 := Reference.hkdfSha256
  aead := .reference
  x25519Public := fun secret => Reference.x25519 secret Reference.basePoint
  x25519 := Reference.x25519

end Espejismo
