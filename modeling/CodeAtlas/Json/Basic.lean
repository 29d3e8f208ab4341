import CodeAtlas.Json.Literal

/-!
# JSON values

A value as a JSON text gives it. Numbers are kept as written, and an object keeps its fields in the
order of the text, repeated names included; who reads an object decides what a repetition means.
-/

namespace CodeAtlas

/-- A JSON value. -/
inductive Json where
  /-- the word `null` -/
  | null
  /-- a truth value -/
  | bool (value : Bool)
  /-- a number, as written -/
  | number (literal : Json.Literal)
  /-- a text -/
  | text (value : String)
  /-- a list of values -/
  | array (items : List Json)
  /-- named values, in order -/
  | object (fields : List (String × Json))
  deriving Inhabited

namespace Json

/-- A whole number. -/
def ofNat (n : Nat) : Json :=
  .number (.ofNat n)

/-- An integer. -/
def ofInt (n : Int) : Json :=
  .number (.ofInt n)

/-- A single; `null` stands for what is not finite. -/
def ofFloat32 (x : Float32) : Json :=
  match Literal.ofFloat32? x with
  | some literal => .number literal
  | none => .null

/-- The text, or `null` in its absence. -/
def ofText? : Option String → Json
  | some s => .text s
  | none => .null

/-- The field of this name; the last one when the name is repeated. -/
def field? (name : String) : Json → Option Json
  | .object fields => (fields.reverse.find? (·.1 = name)).map (·.2)
  | _ => none

/-- The only field of this name; a name may not be repeated. -/
def onlyField? (name : String) (fields : List (String × Json)) : Option Json :=
  match fields.filter (·.1 = name) with
  | [(_, value)] => some value
  | _ => none

/-- The items of an array. -/
def items? : Json → Option (List Json)
  | .array items => some items
  | _ => none

/-- The value of a text. -/
def text? : Json → Option String
  | .text s => some s
  | _ => none

/-- The value of an integer. -/
def integer? : Json → Option Int
  | .number l => l.integer?
  | _ => none

/-- The value of a whole number. -/
def natural? (j : Json) : Option Nat :=
  j.integer?.bind fun n => if 0 ≤ n then some n.toNat else none

/-- The value of a number. -/
def float? : Json → Option Float
  | .number l => l.float?
  | _ => none

/-- The value of a number as a single. -/
def float32? : Json → Option Float32
  | .number l => l.float32?
  | _ => none

/-- The truth value. -/
def bool? : Json → Option Bool
  | .bool b => some b
  | _ => none

end Json

end CodeAtlas
