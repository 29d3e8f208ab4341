import CodeAtlas.Json.Basic
import CodeAtlas.Text.Quoted

/-!
# Parameters and arguments

A tool has parameters, each of one kind, and is given arguments as the fields of a JSON object. The
arguments are read one after the other as they are given: an argument of the wrong kind is an error,
and so is a required parameter without an argument. Arguments without a parameter do not count.

* `Kind.read` — the value of an argument.
* `readArguments` — the values of all arguments.
-/

namespace CodeAtlas.Tool

open CodeAtlas.Decimal CodeAtlas.Text

/-- The kinds of parameters. -/
inductive Kind where
  /-- a text -/
  | text
  /-- a whole number of 32 bits -/
  | count
  /-- a number -/
  | number
  /-- a truth value -/
  | truth
  /-- a list of texts -/
  | texts
  deriving DecidableEq

/-- A parameter of a tool. -/
structure Parameter where
  /-- its name -/
  name : String
  /-- its kind -/
  kind : Kind
  /-- whether it needs an argument -/
  required : Bool
  /-- what is said about it -/
  description : Option String := none

/-- The value of an argument. -/
inductive Value where
  /-- a text -/
  | text (s : String)
  /-- a whole number -/
  | count (n : Nat)
  /-- a number -/
  | number (x : Float32)
  /-- a truth value -/
  | truth (b : Bool)
  /-- a list of texts -/
  | texts (ss : List String)

/-- The values of the arguments by the names of the parameters. -/
abbrev Bindings := List (String × Value)

/-! ## Errors -/

/-- Why arguments cannot be read. -/
inductive ArgumentError where
  /-- an argument is of the wrong kind -/
  | wrongKind (given wanted : String)
  /-- a whole number does not have 32 bits -/
  | outOfRange (given : Int)
  /-- a required parameter has no argument -/
  | missing (name : String)
  deriving DecidableEq

/-- The wording of an error. -/
def ArgumentError.message : ArgumentError → String
  | .wrongKind given wanted => s!"invalid type: {given}, expected {wanted}"
  | .outOfRange given => s!"invalid value: integer \x60{given}\x60, expected u32"
  | .missing name => s!"missing field \x60{name}\x60"

/-- What is expected of an argument. -/
def Kind.expectation : Kind → String
  | .text => "a string"
  | .count => "u32"
  | .number => "f32"
  | .truth => "a boolean"
  | .texts => "a sequence"

/-- The text of a double, with a point in any case. -/
def pointedText (x : Float) : String :=
  let written := positionalText (Reading.ofFloat x)
  if written.toList.contains '.' then written else written ++ ".0"

/-- What an argument is, as a diagnostic names it. -/
def describe : Json → String
  | .null => "null"
  | .bool b => s!"boolean \x60{b}\x60"
  | .number l =>
    match l.integer? with
    | some n => s!"integer \x60{n}\x60"
    | none => s!"floating point \x60{pointedText (l.float?.getD 0)}\x60"
  | .text s => "string " ++ Quoted.quote s
  | .array _ => "sequence"
  | .object _ => "map"

/-! ## Reading -/

/-- The error of an argument that is not of a kind. -/
def mismatch {α : Type} (kind : Kind) (j : Json) : Except ArgumentError α :=
  .error (.wrongKind (describe j) kind.expectation)

/-- A text among the arguments. -/
def readText (j : Json) : Except ArgumentError String :=
  match j with
  | .text s => .ok s
  | j => mismatch .text j

/-- A whole number among the arguments. -/
def readCount (j : Json) : Except ArgumentError Nat :=
  match j.integer? with
  | some n => if 0 ≤ n && n < UInt32.size then .ok n.toNat else .error (.outOfRange n)
  | none => mismatch .count j

/-- A number among the arguments. -/
def readNumber (j : Json) : Except ArgumentError Float32 :=
  match j.float32? with
  | some x => .ok x
  | none => mismatch .number j

/-- The value of an argument. -/
def Kind.read (kind : Kind) (j : Json) : Except ArgumentError Value :=
  match kind with
  | .text => (readText j).map .text
  | .count => (readCount j).map .count
  | .number => (readNumber j).map .number
  | .truth =>
    match j with
    | .bool b => .ok (.truth b)
    | j => mismatch .truth j
  | .texts =>
    match j with
    | .array items => (items.mapM readText).map .texts
    | j => mismatch .texts j

/-- The value of an argument of a parameter. A parameter that needs no argument may be given `null`,
which stands for none. -/
def Parameter.read (p : Parameter) (j : Json) : Except ArgumentError (Option Value) :=
  match p.required, j with
  | false, .null => .ok none
  | _, j => (p.kind.read j).map some

/-- The values of the arguments, in the order in which they are given. -/
def readGiven (parameters : List Parameter) : List (String × Json) → Except ArgumentError Bindings
  | [] => .ok []
  | (name, j) :: rest =>
    match parameters.find? fun p => p.name = name with
    | none => readGiven parameters rest
    | some p => do
      let value? ← p.read j
      let bindings ← readGiven parameters rest
      return (value?.toList.map fun value => (name, value)) ++ bindings

/-- The first required parameter without an argument. -/
def missing? (parameters : List Parameter) (arguments : List (String × Json)) : Option String :=
  (parameters.find? fun p => p.required && !arguments.any fun a => a.1 == p.name).map (·.name)

/-- The values of the arguments. -/
def readArguments (parameters : List Parameter) (arguments : List (String × Json)) :
    Except ArgumentError Bindings := do
  let bindings ← readGiven parameters arguments
  match missing? parameters arguments with
  | some name => throw (.missing name)
  | none => return bindings

/-! ## Looking up -/

namespace Bindings

/-- The value of a parameter. -/
def find? (b : Bindings) (name : String) : Option Value :=
  (List.find? (fun entry => entry.1 = name) b).map (·.2)

/-- The text of a parameter. -/
def text? (b : Bindings) (name : String) : Option String :=
  match b.find? name with
  | some (.text s) => some s
  | _ => none

/-- The whole number of a parameter. -/
def count? (b : Bindings) (name : String) : Option Nat :=
  match b.find? name with
  | some (.count n) => some n
  | _ => none

/-- The number of a parameter. -/
def number? (b : Bindings) (name : String) : Option Float32 :=
  match b.find? name with
  | some (.number x) => some x
  | _ => none

/-- The truth value of a parameter. -/
def truth? (b : Bindings) (name : String) : Option Bool :=
  match b.find? name with
  | some (.truth t) => some t
  | _ => none

/-- The texts of a parameter. -/
def texts? (b : Bindings) (name : String) : Option (List String) :=
  match b.find? name with
  | some (.texts ss) => some ss
  | _ => none

end Bindings

end CodeAtlas.Tool
