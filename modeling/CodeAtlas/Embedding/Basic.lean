/-!
# Embeddings

A text is compared with other texts through a vector of singles. Whoever makes vectors from texts is
a *provider*. It may remember things between calls, so it is a function on its own state; it answers
a list of texts with a list of vectors, or fails.

* `EmbedError` — the two ways to fail. Only a text that is too long can be recovered from.
* `Provider` — a provider with states `σ` and vectors `V`.
* `cosine` — the similarity of two vectors, between -1 and 1.
-/

namespace CodeAtlas

/-- A vector of singles. -/
abbrev Embedding := Array Float32

/-- Why texts cannot be turned into vectors. -/
inductive EmbedError where
  /-- the texts do not fit into the model's context -/
  | tooLong (detail : String)
  /-- anything else -/
  | provider (detail : String)
  deriving DecidableEq, Inhabited

/-- The wording of an error. -/
def EmbedError.message : EmbedError → String
  | .tooLong detail => "input exceeds context length: " ++ detail
  | .provider detail => "embedding provider error: " ++ detail

/-- Whoever turns texts into vectors. -/
structure Provider (σ V : Type) where
  /-- the name of the model -/
  name : String
  /-- the vectors of some texts, and the state after the call -/
  embed : List String → σ → Except EmbedError (List V) × σ

/-- The sums that a cosine is made of: the product of the vectors and their squared lengths. -/
structure CosineSums where
  /-- the product of the two vectors -/
  product : Float32
  /-- the squared length of the first -/
  left : Float32
  /-- the squared length of the second -/
  right : Float32

/-- The sums with one more pair of components. -/
def CosineSums.add (s : CosineSums) (pair : Float32 × Float32) : CosineSums :=
  ⟨s.product + pair.1 * pair.2, s.left + pair.1 * pair.1, s.right + pair.2 * pair.2⟩

/-- A number brought between `low` and `high`; what is not a number stays. -/
def clampTo (low high x : Float32) : Float32 :=
  if x < low then low else if x > high then high else x

/-- The cosine of the angle between two vectors. Vectors of different dimensions, and vectors
without length, have the similarity zero. -/
def cosine (a b : Embedding) : Float32 :=
  if a.size ≠ b.size || a.isEmpty then 0
  else
    let sums := (a.zip b).foldl CosineSums.add ⟨0, 0, 0⟩
    let lengths := sums.left.sqrt * sums.right.sqrt
    if lengths == 0 then 0 else clampTo (-1) 1 (sums.product / lengths)

end CodeAtlas
