import CodeAtlas.Embedding.Basic
import CodeAtlas.Embedding.Fingerprint
import CodeAtlas.Text.Identifier

/-!
# Vectors by hashing

The model that needs no model: each token of a text is sent by its fingerprint to one component of
the vector, with a sign, and the result is brought to length one. Equal texts have equal vectors,
and texts with common tokens have similar ones.
-/

namespace CodeAtlas

open CodeAtlas.Text

/-- A hashing model. -/
structure HashModel where
  /-- the dimension of its vectors -/
  dimension : Nat
  /-- how many characters one call may have in all -/
  limit : Option Nat
  /-- a vector has at least eight components -/
  eight_le : 8 ≤ dimension

namespace HashModel

/-- The model of a dimension, or of dimension eight if that is less. -/
def ofDimension (dimension : Nat) (limit : Option Nat) : HashModel :=
  ⟨max dimension 8, limit, Nat.le_max_right ..⟩

/-- The component that a token goes to, and the sign with which it does. -/
def target (m : HashModel) (token : String) : Nat × Float32 :=
  let hash := (Fingerprint.fnv1a token.toUTF8).toNat
  (hash % m.dimension, if hash < UInt64.size / 2 then 1 else -1)

/-- The vector with one more token. -/
def addToken (m : HashModel) (v : Embedding) (token : String) : Embedding :=
  let (component, sign) := m.target token
  v.modify component (· + sign)

/-- A vector brought to length one, if it has a length. -/
def normalized (v : Embedding) : Embedding :=
  let norm := (v.foldl (fun sum x => sum + x * x) 0).sqrt
  if 0 < norm then v.map (· / norm) else v

/-- The vector of a text. -/
def embedOne (m : HashModel) (text : String) : Embedding :=
  normalized ((tokens text).foldl m.addToken (Array.replicate m.dimension 0))

/-- The vectors of some texts, unless they are too long together. -/
def embed (m : HashModel) (texts : List String) : Except EmbedError (List Embedding) :=
  let total := texts.foldl (fun sum text => sum + text.length) 0
  match m.limit with
  | some limit =>
    if limit < total then .error (.tooLong s!"batch of {total} chars exceeds limit {limit}")
    else .ok (texts.map m.embedOne)
  | none => .ok (texts.map m.embedOne)

/-- The model as a provider. -/
def provider {σ : Type} (m : HashModel) : Provider σ Embedding where
  name := "hash"
  embed texts s := (m.embed texts, s)

end HashModel

end CodeAtlas
