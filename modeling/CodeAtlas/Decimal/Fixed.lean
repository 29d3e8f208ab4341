import CodeAtlas.Decimal.Binary

/-!
# Fixed places

A number written with a fixed count of places is its exact binary value rounded to the last place, a
tie going to the even digit.
-/

namespace CodeAtlas.Decimal

/-- How a number is written with fixed places. -/
structure FixedFormat where
  /-- how many digits follow the point -/
  places : Nat
  /-- whether a negative number that rounds to zero keeps its sign -/
  keepsZeroSign : Bool

/-- `mantissa * 2 ^ exponent` in units of the last of `places` places, rounded. -/
def scaled (places mantissa : Nat) (exponent : Int) : Nat :=
  if 0 ≤ exponent then mantissa * Nat.pow 2 exponent.toNat * Nat.pow 10 places
  else roundDiv (mantissa * Nat.pow 10 places) (Nat.pow 2 (-exponent).toNat)

/-- The decimal digits of a number, padded with zeros on the left to at least `width`. -/
def paddedDigits (width n : Nat) : List Char :=
  let digits := Nat.toDigits 10 n
  List.replicate (width - digits.length) '0' ++ digits

/-- The digits of `units` with a point before the last `places`. -/
def withPoint (places units : Nat) : List Char :=
  let whole := Nat.toDigits 10 (units / Nat.pow 10 places)
  if places = 0 then whole
  else whole ++ '.' :: paddedDigits places (units % Nat.pow 10 places)

/-- The text of a number with fixed places. -/
def FixedFormat.render (f : FixedFormat) : Reading → String
  | .nan => "NaN"
  | .infinite negative => if negative then "-inf" else "inf"
  | .finite negative mantissa exponent _ =>
    let units := scaled f.places mantissa exponent
    let sign := if negative && (f.keepsZeroSign || units != 0) then ['-'] else []
    String.ofList (sign ++ withPoint f.places units)

end CodeAtlas.Decimal
