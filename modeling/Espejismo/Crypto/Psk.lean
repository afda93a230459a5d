import Espejismo.Egress

/-!
# Crypto.Psk

How a pre-shared key is written in a configuration (`parse_psk` of
`crypto/mod.rs`): hexadecimal after `hex:`, base64 after `base64:`, or as it
stands.
-/

namespace Espejismo

open Net

/-- The decoders and the encoder of the `hex` and `base64` crates.  Base64 is strict: a text
that decodes is the encoding of its bytes. -/
class Codecs where
  hexDecode : List Char → Option (List UInt8)
  base64Decode : List Char → Option (List UInt8)
  base64Encode : List UInt8 → List Char
  base64Encode_of_decode : base64Decode text = some bytes → text = base64Encode bytes
  cr_notMem_base64Encode : '\r' ∉ base64Encode bytes

export Codecs (hexDecode base64Decode base64Encode)

def utf8Bytes (text : List Char) : List UInt8 := text.flatMap String.utf8EncodeChar

def parsePsk [Codecs] (input : String) : Except Error (List UInt8) := do
  let text := input.toList
  let key ←
    match stripStart "hex:".toList text, stripStart "base64:".toList text with
    | some rest, _ =>
      match hexDecode rest with
      | some key => pure key
      | none => throw (.msg "invalid hex PSK")
    | none, some rest =>
      match base64Decode rest with
      | some key => pure key
      | none => throw (.msg "invalid base64 PSK")
    | none, none => pure (utf8Bytes text)
  ensure (16 ≤ key.length) "PSK must be at least 16 bytes"
  return key

end Espejismo
