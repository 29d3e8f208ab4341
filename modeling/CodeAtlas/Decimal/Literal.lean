import CodeAtlas.Decimal.Binary

/-!
# Numbers written by people

The two kinds of number that a setting may hold: an unsigned 64-bit whole number, and a
single-precision decimal.

* `natural?` — digits with an optional plus sign. The first character that is no digit and the first
  digit that makes the number too large are told apart, and the one that comes first is reported.
* `float32?` — digits with an optional point and exponent, or the names of the infinities and of
  what is not a number, in any letter case.
-/

namespace CodeAtlas.Decimal

/-- Why a whole number cannot be read. -/
inductive NaturalError where
  /-- nothing is written -/
  | empty
  /-- a character is not a digit -/
  | invalidDigit
  /-- the number does not fit in 64 bits -/
  | tooLarge
  deriving DecidableEq

/-- The wording of an error. -/
def NaturalError.message : NaturalError → String
  | .empty => "cannot parse integer from empty string"
  | .invalidDigit => "invalid digit found in string"
  | .tooLarge => "number too large to fit in target type"

/-- The value of a decimal digit. -/
def digit? (c : Char) : Option Nat :=
  if c.isDigit then some (c.toNat - '0'.toNat) else none

/-- Continues a whole number with further digits. -/
def readDigits : Nat → List Char → Except NaturalError Nat
  | n, [] => .ok n
  | n, c :: cs =>
    match digit? c with
    | none => .error .invalidDigit
    | some d => if n * 10 + d < UInt64.size then readDigits (n * 10 + d) cs else .error .tooLarge

/-- Reads an unsigned 64-bit whole number. -/
def natural? (s : String) : Except NaturalError Nat :=
  match s.toList with
  | [] => .error .empty
  | ['+'] => .error .invalidDigit
  | '+' :: cs => readDigits 0 cs
  | cs => readDigits 0 cs

/-- The number that a run of decimal digits spells. -/
def digitsValue (ds : List Char) : Nat :=
  ds.foldl (fun n c => n * 10 + (c.toNat - '0'.toNat)) 0

/-- Splits off a sign; the flag says whether it is a minus. -/
def splitSign : List Char → Bool × List Char
  | '-' :: cs => (true, cs)
  | '+' :: cs => (false, cs)
  | cs => (false, cs)

/-- Reads the exponent part, if the characters are one or there are none. -/
def exponent? : List Char → Option Int
  | [] => some 0
  | c :: cs =>
    if c = 'e' || c = 'E' then
      let (negative, ds) := splitSign cs
      if !ds.isEmpty && ds.all Char.isDigit then
        some (if negative then -(digitsValue ds : Int) else digitsValue ds)
      else none
    else none

/-- Reads an unsigned decimal as digits and a power of ten. -/
def decimal? (cs : List Char) : Option (Nat × Int) :=
  let whole := cs.takeWhile Char.isDigit
  let rest := cs.dropWhile Char.isDigit
  let (fraction, rest) : List Char × List Char :=
    match rest with
    | '.' :: tail => (tail.takeWhile Char.isDigit, tail.dropWhile Char.isDigit)
    | _ => ([], rest)
  if whole.isEmpty && fraction.isEmpty then none
  else (exponent? rest).map fun e =>
    (digitsValue (whole ++ fraction), e - (fraction.length : Int))

/-- Reads a single-precision number. -/
def float32? (s : String) : Option Float32 :=
  let (negative, cs) := splitSign s.toList
  let name := cs.map Char.toLower
  if name = "inf".toList || name = "infinity".toList then
    some (Float32.ofBits (if negative then 0xFF800000 else 0x7F800000))
  else if name = "nan".toList then
    some (Float32.ofBits (if negative then 0xFFC00000 else 0x7FC00000))
  else (decimal? cs).map fun (digits, power) => float32OfDecimal negative digits power

end CodeAtlas.Decimal
