import CodeAtlas.Json.Basic

/-!
# Reading JSON

The reader takes the characters of a text from the front and gives back what is left. It accepts
exactly the JSON grammar, with two limits: arrays and objects are nested at most 127 deep, and an
escaped surrogate must be half of a pair.

* `parse?` — the value of a whole text.
* `parseRanged?` — the same for a text all of whose numbers must be in range.
-/

namespace CodeAtlas.Json

/-! ## Blanks and words -/

/-- The four blank characters of JSON. -/
def isSpace (c : Char) : Bool :=
  c = ' ' || c = '\t' || c = '\n' || c = '\r'

/-- What follows the blanks. -/
def skipSpaces (cs : List Char) : List Char :=
  cs.dropWhile isSpace

/-- What follows `word`, if the characters start with it. -/
def expect? : List Char → List Char → Option (List Char)
  | [], cs => some cs
  | _ :: _, [] => none
  | w :: word, c :: cs => if w = c then expect? word cs else none

/-! ## Texts -/

/-- The value of a hexadecimal digit. -/
def hexValue? (c : Char) : Option Nat :=
  if '0' ≤ c && c ≤ '9' then some (c.toNat - '0'.toNat)
  else if 'a' ≤ c && c ≤ 'f' then some (c.toNat - 'a'.toNat + 10)
  else if 'A' ≤ c && c ≤ 'F' then some (c.toNat - 'A'.toNat + 10)
  else none

/-- A number of four hexadecimal digits. -/
def readHex4? : List Char → Option (Nat × List Char)
  | a :: b :: c :: d :: cs => do
    let a ← hexValue? a
    let b ← hexValue? b
    let c ← hexValue? c
    let d ← hexValue? d
    some (((a * 16 + b) * 16 + c) * 16 + d, cs)
  | _ => none

/-- The character of an escape `\u`, whose four digits have the value `n`, and what follows it. -/
def readUnit? (n : Nat) (cs : List Char) : Option (Char × List Char) :=
  if 0xDC00 ≤ n && n ≤ 0xDFFF then none
  else if 0xD800 ≤ n && n ≤ 0xDBFF then
    match cs with
    | '\\' :: 'u' :: rest =>
      match readHex4? rest with
      | some (m, rest) =>
        if 0xDC00 ≤ m && m ≤ 0xDFFF then
          some (Char.ofNat ((n - 0xD800) * 1024 + (m - 0xDC00) + 0x10000), rest)
        else none
      | none => none
    | _ => none
  else some (Char.ofNat n, cs)

/-- The character that an escape of one letter stands for. -/
def simpleEscape? (c : Char) : Option Char :=
  if c = '"' || c = '\\' || c = '/' then some c
  else if c = 'b' then some (Char.ofNat 8)
  else if c = 'f' then some (Char.ofNat 12)
  else if c = 'n' then some '\n'
  else if c = 'r' then some '\r'
  else if c = 't' then some '\t'
  else none

/-- The rest of a text up to its closing quote, put behind the characters `read`, which are in
reverse. `fuel` is more than the number of characters. -/
def readChars? : Nat → List Char → List Char → Option (List Char × List Char)
  | 0, _, _ => none
  | _ + 1, _, [] => none
  | fuel + 1, read, c :: cs =>
    if c = '"' then some (read.reverse, cs)
    else if c = '\\' then
      match cs with
      | [] => none
      | 'u' :: rest =>
        match readHex4? rest with
        | some (n, rest) =>
          match readUnit? n rest with
          | some (x, rest) => readChars? fuel (x :: read) rest
          | none => none
        | none => none
      | e :: rest =>
        match simpleEscape? e with
        | some x => readChars? fuel (x :: read) rest
        | none => none
    else if c.toNat < 32 then none
    else readChars? fuel (c :: read) cs

/-- A text whose opening quote has been read. `size` is more than the number of characters. -/
def readText? (size : Nat) (cs : List Char) : Option (String × List Char) :=
  (readChars? size [] cs).map fun (s, rest) => (String.ofList s, rest)

/-! ## Numbers -/

/-- One or more digits. -/
def readDigits? (cs : List Char) : Option (List Char × List Char) :=
  let ds := cs.takeWhile Char.isDigit
  if ds.isEmpty then none else some (ds, cs.dropWhile Char.isDigit)

/-- The digits before the point: a zero alone, or digits that do not start with one. -/
def readWhole? (cs : List Char) : Option (List Char × List Char) :=
  match readDigits? cs with
  | some ('0' :: _ :: _, _) => none
  | r => r

/-- The digits after the point, if a point follows. -/
def readFraction? : List Char → Option (Option (List Char) × List Char)
  | '.' :: cs => (readDigits? cs).map fun (ds, rest) => (some ds, rest)
  | cs => some (none, cs)

/-- The exponent part, if one follows. -/
def readExponent? : List Char → Option (Option Exponent × List Char)
  | [] => some (none, [])
  | c :: cs =>
    if c = 'e' || c = 'E' then
      let (sign, rest) : Option Char × List Char :=
        match cs with
        | '+' :: rest => (some '+', rest)
        | '-' :: rest => (some '-', rest)
        | rest => (none, rest)
      (readDigits? rest).map fun (ds, rest) => (some ⟨c, sign, ds⟩, rest)
    else some (none, c :: cs)

/-- A number. -/
def readNumber? (cs : List Char) : Option (Literal × List Char) := do
  let (negative, cs) : Bool × List Char :=
    match cs with
    | '-' :: rest => (true, rest)
    | rest => (false, rest)
  let (whole, cs) ← readWhole? cs
  let (fraction, cs) ← readFraction? cs
  let (exponent, cs) ← readExponent? cs
  some (⟨negative, whole, fraction, exponent⟩, cs)

/-! ## Values -/

/-- Items with commas between them and `close` at the end, the first of them at hand. `fuel` is more
than the number of characters. -/
def readItems? {α : Type} (item : List Char → Option (α × List Char)) (close : Char) :
    Nat → List Char → Option (List α × List Char)
  | 0, _ => none
  | fuel + 1, cs =>
    match item cs with
    | none => none
    | some (x, rest) =>
      match skipSpaces rest with
      | [] => none
      | c :: rest =>
        if c = close then some ([x], rest)
        else if c = ',' then
          (readItems? item close fuel (skipSpaces rest)).map fun (xs, rest) => (x :: xs, rest)
        else none

/-- The items of an array or object whose opening bracket has been read. -/
def readGroup? {α : Type} (size : Nat) (item : List Char → Option (α × List Char)) (close : Char)
    (cs : List Char) : Option (List α × List Char) :=
  match skipSpaces cs with
  | [] => none
  | c :: rest =>
    if c = close then some ([], rest) else readItems? item close size (c :: rest)

/-- A named value of an object; `value` reads what follows the colon. -/
def readField? (size : Nat) (value : List Char → Option (Json × List Char)) :
    List Char → Option ((String × Json) × List Char)
  | '"' :: cs =>
    match readText? size cs with
    | some (name, rest) =>
      match skipSpaces rest with
      | ':' :: rest => (value rest).map fun (x, rest) => ((name, x), rest)
      | _ => none
    | none => none
  | _ => none

/-- A value, with `depth` the number of brackets that may still be opened. `size` is more than the
number of characters. -/
def readValue? (size : Nat) : Nat → List Char → Option (Json × List Char)
  | depth, cs =>
    match skipSpaces cs with
    | [] => none
    | c :: rest =>
      if c = '"' then (readText? size rest).map fun (s, rest) => (.text s, rest)
      else if c = '[' then
        match depth with
        | 0 => none
        | depth + 1 =>
          (readGroup? size (readValue? size depth) ']' rest).map fun (xs, rest) => (.array xs, rest)
      else if c = '\x7b' then
        match depth with
        | 0 => none
        | depth + 1 =>
          (readGroup? size (readField? size (readValue? size depth)) '\x7d' rest).map
            fun (xs, rest) => (.object xs, rest)
      else if c = 'n' then (expect? "ull".toList rest).map fun rest => (.null, rest)
      else if c = 't' then (expect? "rue".toList rest).map fun rest => (.bool true, rest)
      else if c = 'f' then (expect? "alse".toList rest).map fun rest => (.bool false, rest)
      else (readNumber? (c :: rest)).map fun (l, rest) => (.number l, rest)

/-- How deep arrays and objects may be nested. -/
def maxDepth : Nat := 127

/-- The value of a whole text. Blanks may surround it. -/
def parse? (s : String) : Option Json :=
  let cs := s.toList
  match readValue? (cs.length + 1) maxDepth cs with
  | some (j, rest) => if (skipSpaces rest).isEmpty then some j else none
  | none => none

/-- Whether every number of the value is in range. -/
def ranged : Json → Bool
  | .number l => l.integer?.isSome || l.float?.isSome
  | .array items => items.attach.all fun ⟨x, _⟩ => ranged x
  | .object fields => fields.attach.all fun ⟨(_, x), _⟩ => ranged x
  | _ => true
termination_by j => sizeOf j
decreasing_by
  · next h => have := List.sizeOf_lt_of_mem h; simp; omega
  · next h => have := List.sizeOf_lt_of_mem h; simp at this ⊢; omega

/-- The value of a whole text whose numbers are all in range. -/
def parseRanged? (s : String) : Option Json :=
  (parse? s).filter ranged

end CodeAtlas.Json
