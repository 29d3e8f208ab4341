import CodeAtlas.Decimal.Fixed
import CodeAtlas.Embedding.Basic
import CodeAtlas.Json.Basic

/-!
# Fields and numbers

Values are exchanged with other programs as JSON. A field with `null` is a missing one. Fractions
are written as texts with six decimal places, and read from numbers or from the names of what is not
finite.

* `text`, `natural`, `truth`, `items` and so on — the fields of an object, with what a missing one
  stands for.
* `single`, `ofSingle` — fractions.
-/

namespace CodeAtlas.Exchange

open CodeAtlas.Decimal

/-! ## Fields -/

/-- The field of a name, unless it is `null`. -/
def field? (j : Json) (name : String) : Option Json :=
  (j.field? name).filter fun value =>
    match value with
    | .null => false
    | _ => true

/-- The field of a name; `null` for a missing one. -/
def field (j : Json) (name : String) : Json :=
  (field? j name).getD .null

/-- The text of a field. -/
def text? (j : Json) (name : String) : Option String :=
  (field? j name).bind Json.text?

/-- The text of a field; the empty one for a missing one. -/
def text (j : Json) (name : String) : String :=
  (text? j name).getD ""

/-- The whole number of a field. -/
def natural? (j : Json) (name : String) : Option Nat :=
  (field? j name).bind Json.natural?

/-- The whole number of a field; `default` for a missing one. -/
def natural (j : Json) (name : String) (default : Nat) : Nat :=
  (natural? j name).getD default

/-- The truth value of a field. -/
def truth? (j : Json) (name : String) : Option Bool :=
  (field? j name).bind Json.bool?

/-- The truth value of a field; false for a missing one. -/
def truth (j : Json) (name : String) : Bool :=
  (truth? j name).getD false

/-- The items of a field; none for a missing one. -/
def items (j : Json) (name : String) : List Json :=
  ((field? j name).bind Json.items?).getD []

/-- The texts among some values. -/
def textsOf (js : List Json) : List String :=
  js.filterMap Json.text?

/-- The texts of a field. -/
def texts (j : Json) (name : String) : List String :=
  textsOf (items j name)

/-- All fields of an object. -/
def fields (j : Json) : List (String × Json) :=
  match j with
  | .object fields => fields
  | _ => []

/-! ## Fractions -/

/-- Six places, without a sign on zero. -/
def sixPlaces : FixedFormat := ⟨6, false⟩

/-- A double as it is exchanged. -/
def ofDouble (x : Float) : Json :=
  .text (sixPlaces.render (Reading.ofFloat x))

/-- A single as it is exchanged. -/
def ofSingle (x : Float32) : Json :=
  .text (sixPlaces.render (Reading.ofFloat32 x))

/-- The double that a value stands for. -/
def double (j : Json) : Float :=
  match j with
  | .text "NaN" => Float.ofBits 0x7FF8000000000000
  | .text "inf" => Float.ofBits 0x7FF0000000000000
  | .text "-inf" => Float.ofBits 0xFFF0000000000000
  | j => j.float?.getD 0

/-- The single that a value stands for. -/
def single (j : Json) : Float32 :=
  Decimal.singleOfDouble (double j)

/-- The single of a field; `default` for a missing one. -/
def singleOr (j : Json) (name : String) (default : Float32) : Float32 :=
  ((field? j name).map single).getD default

/-- The vector that a value stands for. -/
def embedding (j : Json) : Embedding :=
  ((j.items?.getD []).map single).toArray

/-- A vector as it is exchanged. -/
def ofEmbedding (v : Embedding) : Json :=
  .array (v.toList.map ofSingle)

/-! ## Lists -/

/-- Texts as they are exchanged. -/
def ofTexts (ss : List String) : Json :=
  .array (ss.map .text)

/-- What may be missing as it is exchanged. -/
def ofOption {α : Type} (write : α → Json) : Option α → Json
  | some a => write a
  | none => .null

end CodeAtlas.Exchange
