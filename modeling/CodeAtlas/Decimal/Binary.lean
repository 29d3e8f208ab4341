/-!
# Binary fractions

A finite float is a whole number times a power of two, so every question about its decimal text or
about the float nearest to a decimal is a question about natural numbers. This module takes floats
apart and puts them together; the arithmetic in between is exact.

* `Reading.ofFloat`, `Reading.ofFloat32` — a float as sign, whole number and power of two.
* `BinaryFormat.nearest` — the float nearest to a quotient of natural numbers, a tie going to the
  even neighbour.
* `singleOfDouble` — the single nearest to a double.
* `roundDiv` — a quotient rounded to the nearest whole number, a tie going to the even one.
-/

namespace CodeAtlas.Decimal

/-- What a float stands for. -/
inductive Reading where
  /-- no number -/
  | nan
  /-- an infinity -/
  | infinite (negative : Bool)
  /-- the number `mantissa * 2 ^ exponent`, or its negative; `closeBelow` when the next smaller
  float is nearer than the next greater one, which happens at the powers of two -/
  | finite (negative : Bool) (mantissa : Nat) (exponent : Int) (closeBelow : Bool)

/-- The layout of a binary interchange format. -/
structure BinaryFormat where
  /-- the number of stored bits of the fraction -/
  fractionBits : Nat
  /-- the number of bits of the exponent field -/
  exponentBits : Nat

namespace BinaryFormat

/-- Single precision. -/
def single : BinaryFormat := ⟨23, 8⟩

/-- Double precision. -/
def double : BinaryFormat := ⟨52, 11⟩

/-- The exponent field of the infinities and of what is not a number. -/
def topField (f : BinaryFormat) : Nat :=
  Nat.pow 2 f.exponentBits - 1

/-- The power of two that the last bit of the smallest numbers stands for. -/
def leastExponent (f : BinaryFormat) : Int :=
  2 - Nat.pow 2 (f.exponentBits - 1) - f.fractionBits

/-- The reading of a bit pattern. -/
def read (f : BinaryFormat) (bits : Nat) : Reading :=
  let fraction := bits % Nat.pow 2 f.fractionBits
  let field := bits / Nat.pow 2 f.fractionBits % Nat.pow 2 f.exponentBits
  let negative := bits / Nat.pow 2 (f.fractionBits + f.exponentBits) % 2 == 1
  if field = f.topField then
    if fraction = 0 then .infinite negative else .nan
  else if field = 0 then .finite negative fraction f.leastExponent false
  else
    .finite negative (Nat.pow 2 f.fractionBits + fraction) (f.leastExponent + (field - 1 : Nat))
      (fraction == 0 && 1 < field)

end BinaryFormat

/-- The reading of a double. -/
def Reading.ofFloat (x : Float) : Reading :=
  BinaryFormat.double.read x.toBits.toNat

/-- The reading of a single. -/
def Reading.ofFloat32 (x : Float32) : Reading :=
  BinaryFormat.single.read x.toBits.toNat

/-- The whole number nearest to `num / den`; halfway between two, the even one. -/
def roundDiv (num den : Nat) : Nat :=
  let q := num / den
  let r := num % den
  if 2 * r < den then q
  else if den < 2 * r then q + 1
  else if q % 2 = 0 then q else q + 1

/-- The greatest power of two not above the positive quotient `num / den`. -/
def floorLog2 (num den : Nat) : Int :=
  let guess : Int := (Nat.log2 num : Int) - Nat.log2 den
  let reached :=
    if 0 ≤ guess then den * Nat.pow 2 guess.toNat ≤ num else den ≤ num * Nat.pow 2 (-guess).toNat
  if reached then guess else guess - 1

namespace BinaryFormat

/-- The bit pattern, without sign, of the float nearest to `num / den`. What lies beyond the
greatest float by half a unit or more is infinite. -/
def nearest (f : BinaryFormat) (num den : Nat) : Nat :=
  if num = 0 then 0
  else
    let exponent := max (floorLog2 num den - f.fractionBits) f.leastExponent
    let whole :=
      if 0 ≤ exponent then roundDiv num (den * Nat.pow 2 exponent.toNat)
      else roundDiv (num * Nat.pow 2 (-exponent).toNat) den
    let bits :=
      if whole < Nat.pow 2 f.fractionBits then whole
      else (exponent - f.leastExponent).toNat * Nat.pow 2 f.fractionBits + whole
    min bits (f.topField * Nat.pow 2 f.fractionBits)

/-- The bit pattern, without sign, of the float nearest to `digits * 10 ^ exponent`. An exponent
that is out of every reach is cut short, so that no number larger than needed is ever built. -/
def nearestDecimal (f : BinaryFormat) (digits : Nat) (exponent : Int) : Nat :=
  if digits = 0 then 0
  else
    let size : Int := exponent + (Nat.log2 digits : Int)
    if 5000 < exponent then f.topField * Nat.pow 2 f.fractionBits
    else if size < -5000 then 0
    else if 0 ≤ exponent then f.nearest (digits * Nat.pow 10 exponent.toNat) 1
    else f.nearest digits (Nat.pow 10 (-exponent).toNat)

end BinaryFormat

/-- The double nearest to `digits * 10 ^ exponent`. -/
def floatOfDecimal (negative : Bool) (digits : Nat) (exponent : Int) : Float :=
  let x := Float.ofBits (BinaryFormat.double.nearestDecimal digits exponent).toUInt64
  if negative then -x else x

/-- The single nearest to `digits * 10 ^ exponent`. -/
def float32OfDecimal (negative : Bool) (digits : Nat) (exponent : Int) : Float32 :=
  let x := Float32.ofBits (BinaryFormat.single.nearestDecimal digits exponent).toUInt32
  if negative then -x else x

/-- The single of a reading: the nearest one, if it is finite. -/
def Reading.toFloat32 : Reading → Float32
  | .nan => Float32.ofBits 0x7FC00000
  | .infinite negative => Float32.ofBits (if negative then 0xFF800000 else 0x7F800000)
  | .finite negative mantissa exponent _ =>
    let bits :=
      if 0 ≤ exponent then BinaryFormat.single.nearest (mantissa * Nat.pow 2 exponent.toNat) 1
      else BinaryFormat.single.nearest mantissa (Nat.pow 2 (-exponent).toNat)
    let x := Float32.ofBits bits.toUInt32
    if negative then -x else x

/-- The single nearest to a double. -/
def singleOfDouble (x : Float) : Float32 :=
  (Reading.ofFloat x).toFloat32

end CodeAtlas.Decimal
