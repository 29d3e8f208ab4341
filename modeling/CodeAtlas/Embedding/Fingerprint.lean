/-!
# Fingerprints of texts

A fingerprint is a 64-bit number computed from the bytes of a text: each byte is mixed in by an
exclusive or, and the result is multiplied by a prime. Texts with different fingerprints differ; the
converse is only likely.

* `fnv1a` — the fingerprint.
* `contentHash` — its sixteen hexadecimal digits.
-/

namespace CodeAtlas.Fingerprint

/-- The fingerprint of no bytes. -/
def basis : UInt64 := 0xcbf29ce484222325

/-- The factor after each byte. -/
def prime : UInt64 := 0x00000100000001b3

/-- The fingerprint with one more byte. -/
def mix (hash : UInt64) (byte : UInt8) : UInt64 :=
  (hash ^^^ byte.toUInt64) * prime

/-- The fingerprint of some bytes. -/
def fnv1a (bytes : ByteArray) : UInt64 :=
  bytes.data.foldl mix basis

/-- Sixteen hexadecimal digits. -/
def hex16 (n : UInt64) : String :=
  let digits := Nat.toDigits 16 n.toNat
  String.ofList (List.replicate (16 - digits.length) '0' ++ digits)

/-- The digits of a text's fingerprint. -/
def contentHash (text : String) : String :=
  hex16 (fnv1a text.toUTF8)

end CodeAtlas.Fingerprint
