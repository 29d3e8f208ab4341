import CodeAtlas.Cache.Basic
import CodeAtlas.Embedding.Batching

/-!
# Filling the cache

Items are looked up in the cache by their keys and the hashes of their texts. Those that are not
found are embedded, all in one call, and put into the cache. A text that never fits the model leaves
its item without a vector and the cache as it was.

* `Cache.found` — what the cache alone knows of some items.
* `Cache.fill` — the vectors of all items, and the cache after it.
-/

namespace CodeAtlas

/-- A text that is wanted as a vector, and the key to keep the vector under. -/
structure Item where
  /-- the key -/
  key : String
  /-- the text -/
  text : String
  deriving DecidableEq, Inhabited

/-- The hash of an item's text. -/
def Item.hash (i : Item) : String :=
  Fingerprint.contentHash i.text

/-- What filling the cache gives. -/
structure Filled where
  /-- the cache after it -/
  cache : Cache
  /-- a vector for each item that has one -/
  vectors : List (Option Embedding)
  /-- how many of them were in the cache before -/
  hits : Nat
  /-- how many of them are new -/
  embedded : Nat

namespace Cache

/-- What a cache knows of each item. -/
def found (c : Cache) (items : List Item) : List (Option Embedding) :=
  items.map fun i => c.vector? i.key i.hash

/-- The items of which a cache knows nothing. -/
def missing (c : Cache) (items : List Item) : List Item :=
  items.filter fun i => (c.vector? i.key i.hash).isNone

/-- The cache with a new vector for an item; an item without one changes nothing. -/
def learn (c : Cache) (answer : Item × Option Embedding) : Cache :=
  match answer.2 with
  | some v => c.insert answer.1.key ⟨answer.1.hash, v⟩
  | none => c

/-- Puts the answers into the gaps, one after the other. -/
def closeGaps : List (Option Embedding) → List (Option Embedding) → List (Option Embedding)
  | [], _ => []
  | some v :: slots, answers => some v :: closeGaps slots answers
  | none :: slots, [] => none :: slots
  | none :: slots, answer :: answers => answer :: closeGaps slots answers

/-- The vectors of some items, from the cache or else from the provider. The provider is not asked
when nothing is missing. -/
def fill {σ : Type} (b : Batching) (provider : Provider σ Embedding) (items : List Item) (c : Cache)
    (s : σ) : Except EmbedError Filled × σ :=
  let known := c.found items
  let hits := (known.filter Option.isSome).length
  let missing := c.missing items
  if missing.isEmpty then (.ok ⟨c, known, hits, 0⟩, s)
  else
    match b.embedLenient provider (missing.map Item.text) s with
    | (.error e, s) => (.error e, s)
    | (.ok answers, s) =>
      let learned := missing.zip answers
      (.ok ⟨learned.foldl learn c, closeGaps known answers, hits,
        (learned.filter fun answer => answer.2.isSome).length⟩, s)

end Cache

end CodeAtlas
