import CodeAtlas.Decimal.Literal
import CodeAtlas.Decimal.Shortest

/-!
# Numbers of a JSON text

A number is kept as it is written: a sign, the digits before the point, the digits after it, and an
exponent. What it stands for is decided when it is asked for.

* `Literal.integer?` — the whole number, when neither a point nor an exponent is written.
* `Literal.float?` — the double it is read as. Up to 64 bits of digits count; digits beyond them are
  dropped, and the rest is scaled by one power of ten. A number out of range has no reading.
* `Literal.ofInt`, `Literal.ofFloat32` — how numbers are written.
-/

namespace CodeAtlas.Json

open CodeAtlas.Decimal

/-- The exponent part of a number. -/
structure Exponent where
  /-- the character that introduces it, `e` or `E` -/
  mark : Char
  /-- the sign, if one is written -/
  sign : Option Char
  /-- the digits -/
  digits : List Char
  deriving DecidableEq, Inhabited

/-- A number as it is written. -/
structure Literal where
  /-- whether a minus sign stands in front -/
  negative : Bool
  /-- the digits before the point -/
  whole : List Char
  /-- the digits after the point, if there is one -/
  fraction : Option (List Char)
  /-- the exponent part, if there is one -/
  exponent : Option Exponent
  deriving DecidableEq, Inhabited

namespace Literal

/-- The characters of a number. -/
def chars (l : Literal) : List Char :=
  (if l.negative then ['-'] else []) ++ l.whole ++
    (match l.fraction with
      | none => []
      | some ds => '.' :: ds) ++
    (match l.exponent with
      | none => []
      | some e => e.mark :: e.sign.toList ++ e.digits)

/-- The whole number that is written. -/
def ofNat (n : Nat) : Literal :=
  ⟨false, Nat.toDigits 10 n, none, none⟩

/-- The integer that is written. -/
def ofInt (n : Int) : Literal :=
  ⟨n < 0, Nat.toDigits 10 n.natAbs, none, none⟩

/-- The value of a number without point and exponent, if it fits in 64 bits: unsigned for a positive
number, signed for a negative one. Minus zero is no integer. -/
def integer? (l : Literal) : Option Int :=
  match l.fraction, l.exponent with
  | none, none =>
    let n := digitsValue l.whole
    if l.negative then
      if 0 < n && n ≤ UInt64.size / 2 then some (-(n : Int)) else none
    else if n < UInt64.size then some n else none
  | _, _ => none

/-! ## Reading as a double -/

/-- The digits that count, from `n` on: those that keep the number below 2 ^ 64, and how many were
taken. -/
def takeDigits : Nat → Nat → List Char → Nat × Nat
  | n, taken, [] => (n, taken)
  | n, taken, c :: cs =>
    let m := n * 10 + (c.toNat - '0'.toNat)
    if m < UInt64.size then takeDigits m (taken + 1) cs else (n, taken)

/-- The digits that count and the power of ten to scale them by. Once a digit before the point is
dropped, every later one is; a digit after the point may still count after a dropped one before it.
-/
def significand (l : Literal) : Nat × Int :=
  let (n, taken) := takeDigits 0 0 l.whole
  let dropped : Int := (l.whole.length - taken : Nat)
  let (m, after) := takeDigits n 0 (l.fraction.getD [])
  (m, dropped - after)

/-- A power of ten as a double. -/
def powerOfTen (n : Nat) : Float :=
  floatOfDecimal false 1 n

/-- Scales a double by a power of ten, in steps of at most 308 places. `fuel` bounds the steps. -/
def scale : Nat → Float → Int → Option Float
  | 0, x, _ => some x
  | fuel + 1, x, power =>
    if power.natAbs ≤ 308 then
      if 0 ≤ power then
        let y := x * powerOfTen power.toNat
        if y.isInf then none else some y
      else some (x / powerOfTen power.natAbs)
    else if x == 0 then some x
    else if 0 ≤ power then none
    else scale fuel (x / powerOfTen 308) (power + 308)

/-- The double that a number without its sign is read as. -/
def magnitude? (l : Literal) : Option Float :=
  let (m, power) := l.significand
  let x := Float.ofNat m
  match l.exponent with
  | none => scale 8 x power
  | some e =>
    let n := digitsValue e.digits
    let down := e.sign = some '-'
    if n < UInt32.size / 2 then scale 8 x (if down then power - n else power + n)
    else if m ≠ 0 && !down then none
    else some 0

/-- The double that a number is read as; `none` when it is out of range. An integer that fits in 64
bits is rounded to the nearest double. -/
def float? (l : Literal) : Option Float :=
  match l.integer? with
  | some n => some (if n < 0 then -Float.ofNat n.natAbs else Float.ofNat n.natAbs)
  | none => l.magnitude?.map fun x => if l.negative then -x else x

/-- The single that a number is read as: an integer is rounded once, any other number by way of a
double. -/
def float32? (l : Literal) : Option Float32 :=
  match l.integer? with
  | some n => some (if n < 0 then -Float32.ofNat n.natAbs else Float32.ofNat n.natAbs)
  | none => l.float?.map singleOfDouble

/-! ## Writing singles -/

/-- The text of the positive single `digits * 10 ^ power` with its shortest digits: positional while
the point lies within thirteen places of the first digit to the right or five zeros to the left, and
otherwise with an exponent. -/
def ofShortest (negative : Bool) (digits : Nat) (power : Int) : Literal :=
  let ds := Nat.toDigits 10 digits
  let point : Int := ds.length + power
  if 0 ≤ power && point ≤ 13 then
    ⟨negative, ds ++ List.replicate power.toNat '0', some ['0'], none⟩
  else if 0 < point && point ≤ 13 then
    ⟨negative, ds.take point.toNat, some (ds.drop point.toNat), none⟩
  else if -6 < point && point ≤ 0 then
    ⟨negative, ['0'], some (List.replicate (-point).toNat '0' ++ ds), none⟩
  else
    let exponent : Exponent :=
      ⟨'e', if point - 1 < 0 then some '-' else none, Nat.toDigits 10 (point - 1).natAbs⟩
    ⟨negative, ds.take 1, if ds.length = 1 then none else some (ds.drop 1), some exponent⟩

/-- How a single is written; an infinity and what is not a number are not. -/
def ofFloat32? (x : Float32) : Option Literal :=
  match Reading.ofFloat32 x with
  | .nan => none
  | .infinite _ => none
  | .finite negative mantissa exponent closeBelow =>
    if mantissa = 0 then some ⟨negative, ['0'], some ['0'], none⟩
    else
      let (digits, power) := shortest mantissa exponent closeBelow
      some (ofShortest negative digits power)

end Literal

end CodeAtlas.Json
