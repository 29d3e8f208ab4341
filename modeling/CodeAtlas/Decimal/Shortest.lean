import CodeAtlas.Decimal.Binary

/-!
# Shortest decimals

Among the decimals that read back as a given float, the ones with the fewest digits are the
shortest, and of those the nearest to the float is written. The decimals that read back form an
interval around the float, its ends included when the mantissa is even. On the grid of decimals with
`n` digits only the two neighbours of the float itself need to be tried: if any grid point lies in
the interval, one of them does.

* `shortest` — the digits and the power of ten of the shortest decimal.
* `positional` — a decimal without an exponent.
-/

namespace CodeAtlas.Decimal

/-- The number of decimal places to the left of the point: the least `k` with `num / den < 10 ^ k`.
The quotient is positive; `fuel` bounds the number of zeros after the point. -/
def decimalScale (num den fuel : Nat) : Int :=
  if den ≤ num then (Nat.toDigits 10 (num / den)).length
  else go num 0 fuel
where
  /-- Counts the zeros between the point and the first digit. -/
  go (num zeros : Nat) : Nat → Int
    | 0 => -zeros
    | fuel + 1 => if den ≤ num * 10 then -zeros else go (num * 10) (zeros + 1) fuel

/-- A positive rational, as numerator and denominator, times a power of ten. -/
def shifted (num den : Nat) (power : Int) : Nat × Nat :=
  if 0 ≤ power then (num * Nat.pow 10 power.toNat, den) else (num, den * Nat.pow 10 (-power).toNat)

/-- The neighbour of the value on the grid of multiples of `10 ^ power` that lies in the interval,
the nearer one if both do. `quarter` is a quarter of the value's last bit, so that the value is `4 *
mantissa` quarters and the interval ends `below` quarters before and two quarters after it. -/
def gridHit? (mantissa below : Nat) (quarterNum quarterDen : Nat) (power : Int) : Option Nat :=
  let value := shifted (4 * mantissa * quarterNum) quarterDen (-power)
  let least := (4 * mantissa - below) * quarterNum
  let greatest := (4 * mantissa + 2) * quarterNum
  let low := value.1 / value.2
  let closed := mantissa % 2 == 0
  let inside (point : Nat) : Bool :=
    let p := shifted point 1 power
    let x := p.1 * quarterDen
    let l := least * p.2
    let g := greatest * p.2
    if closed then l ≤ x && x ≤ g else l < x && x < g
  let remainder := value.1 % value.2
  let nearLow := if 2 * remainder = value.2 then low % 2 == 0 else 2 * remainder < value.2
  match inside low, inside (low + 1) with
  | true, true => some (if nearLow then low else low + 1)
  | true, false => some low
  | false, true => some (low + 1)
  | false, false => none

/-- The first grid with a hit, from `n` digits on. -/
def searchGrids (mantissa below quarterNum quarterDen : Nat) (scale : Int) : Nat → Nat → Nat × Int
  | 0, n => (0, scale - n)
  | fuel + 1, n =>
    match gridHit? mantissa below quarterNum quarterDen (scale - n) with
    | some digits => (digits, scale - n)
    | none => searchGrids mantissa below quarterNum quarterDen scale fuel (n + 1)

/-- Without the zeros at the end of the digits; the power grows by one for each. -/
def dropZeros : Nat → Nat × Int → Nat × Int
  | 0, d => d
  | fuel + 1, (digits, power) =>
    if digits ≠ 0 && digits % 10 == 0 then dropZeros fuel (digits / 10, power + 1)
    else (digits, power)

/-- The shortest decimal `digits * 10 ^ power` that reads back as the positive float
`mantissa * 2 ^ exponent`. -/
def shortest (mantissa : Nat) (exponent : Int) (closeBelow : Bool) : Nat × Int :=
  let quarter := exponent - 2
  let quarterNum := if 0 ≤ quarter then Nat.pow 2 quarter.toNat else 1
  let quarterDen := if 0 ≤ quarter then 1 else Nat.pow 2 (-quarter).toNat
  let scale := decimalScale (4 * mantissa * quarterNum) quarterDen 400
  let below := if closeBelow then 1 else 2
  dropZeros 20 (searchGrids mantissa below quarterNum quarterDen scale 20 1)

/-- The text of `digits * 10 ^ power` without an exponent. -/
def positional (digits : Nat) (power : Int) : List Char :=
  let ds := Nat.toDigits 10 digits
  if 0 ≤ power then ds ++ List.replicate power.toNat '0'
  else
    let places := (-power).toNat
    if places < ds.length then
      ds.take (ds.length - places) ++ '.' :: ds.drop (ds.length - places)
    else '0' :: '.' :: List.replicate (places - ds.length) '0' ++ ds

/-- The shortest positional text of a float. -/
def positionalText : Reading → String
  | .nan => "NaN"
  | .infinite negative => if negative then "-inf" else "inf"
  | .finite negative mantissa exponent closeBelow =>
    let sign := if negative then ['-'] else []
    if mantissa = 0 then String.ofList (sign ++ ['0'])
    else
      let (digits, power) := shortest mantissa exponent closeBelow
      String.ofList (sign ++ positional digits power)

end CodeAtlas.Decimal
