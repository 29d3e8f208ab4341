/-!
# Reading bytes as text

UTF-8 gives each character one to four bytes. A text that must be well formed is read by
`String.fromUTF8?`; a text that is only shown may hold anything, and `decodeLossy` shows one
replacement character for each maximal part that is not the start of a well-formed character.

The classes of bytes follow the table of well-formed sequences: the first byte fixes the length and
the range of the second byte (which excludes overlong forms, surrogates and numbers past the last
code point), and every later byte is a continuation byte.
-/

namespace CodeAtlas.Text.Utf8

/-- Bytes are compared one by one. -/
instance decidableEqBytes : DecidableEq ByteArray := ByteArray.instDecidableEq

/-- The character shown in place of an ill-formed part. -/
def replacement : Char := Char.ofNat 0xFFFD

/-- How many bytes follow a first byte, and between which bounds the second one lies. -/
def followers (b : UInt8) : Option (Nat × UInt8 × UInt8) :=
  if 0xC2 ≤ b && b ≤ 0xDF then some (1, 0x80, 0xBF)
  else if b == 0xE0 then some (2, 0xA0, 0xBF)
  else if b == 0xED then some (2, 0x80, 0x9F)
  else if 0xE1 ≤ b && b ≤ 0xEF then some (2, 0x80, 0xBF)
  else if b == 0xF0 then some (3, 0x90, 0xBF)
  else if 0xF1 ≤ b && b ≤ 0xF3 then some (3, 0x80, 0xBF)
  else if b == 0xF4 then some (3, 0x80, 0x8F)
  else none

/-- The payload of a first byte with `n` followers. -/
def leadBits (n : Nat) (b : UInt8) : Nat :=
  b.toNat % Nat.pow 2 (6 - n)

/-- A character being read: its bits so far, how many bytes are missing, and the bounds of the next.
-/
structure Pending where
  /-- the bits read so far -/
  bits : Nat
  /-- the number of bytes still missing -/
  missing : Nat
  /-- the least byte that may come next -/
  low : UInt8
  /-- the greatest byte that may come next -/
  high : UInt8

/-- What the first byte of a character leads to: a finished character, one to be continued, or
nothing. -/
def start (b : UInt8) : Except Pending Char :=
  if b < 0x80 then .ok (Char.ofNat b.toNat)
  else match followers b with
    | some (n, low, high) => .error ⟨leadBits n b, n, low, high⟩
    | none => .ok replacement

/-- Reads bytes with an unfinished character, if there is one. A byte that cannot continue it closes
an ill-formed part and starts afresh. -/
def decodeFrom : Option Pending → List UInt8 → List Char
  | none, [] => []
  | some _, [] => [replacement]
  | none, b :: bs =>
    match start b with
    | .ok c => c :: decodeFrom none bs
    | .error p => decodeFrom (some p) bs
  | some p, b :: bs =>
    if p.low ≤ b && b ≤ p.high then
      let bits := p.bits * 64 + b.toNat % 64
      if p.missing ≤ 1 then Char.ofNat bits :: decodeFrom none bs
      else decodeFrom (some ⟨bits, p.missing - 1, 0x80, 0xBF⟩) bs
    else
      match start b with
      | .ok c => replacement :: c :: decodeFrom none bs
      | .error q => replacement :: decodeFrom (some q) bs

/-- The text of any bytes, with one replacement character for each ill-formed part. -/
def decodeLossy (bytes : ByteArray) : String :=
  String.ofList (decodeFrom none bytes.data.toList)

end CodeAtlas.Text.Utf8
