import CodeAtlas.Document
import CodeAtlas.Embedding.Basic
import Std.Data.TreeMap

/-!
# Indexes

An index holds what is indexed and its vectors, in two lists that belong together position by
position. There is one for whole files and one for identifiers; the latter keeps the sources of the
code files, where calls are looked for.
-/

namespace CodeAtlas

/-- What a build of an index did. -/
structure BuildStats where
  /-- the files that were looked at -/
  filesScanned : Nat
  /-- the documents that are indexed -/
  documents : Nat
  /-- the identifiers that are indexed -/
  identifiers : Nat
  /-- the vectors that came from the cache -/
  cacheHits : Nat
  /-- the vectors that the provider made -/
  embedded : Nat
  /-- the files that could not be indexed -/
  skippedFiles : Nat
  /-- the items that never fitted into the model's context -/
  skippedEmbeddings : Nat
  /-- the cache entries that were dropped -/
  pruned : Nat
  deriving DecidableEq, Inhabited

/-- The index of whole files. -/
structure FileIndex where
  /-- the documents -/
  documents : List Document
  /-- their vectors -/
  vectors : List Embedding
  /-- what the build did -/
  stats : BuildStats
  deriving Inhabited

/-- The index of identifiers. -/
structure IdentifierIndex where
  /-- the identifiers -/
  identifiers : List Identifier
  /-- their vectors -/
  vectors : List Embedding
  /-- the sources of the code files by their paths -/
  sources : Std.TreeMap String String
  /-- what the build did -/
  stats : BuildStats

instance : Inhabited IdentifierIndex := ⟨⟨[], [], ∅, default⟩⟩

/-- The documents with their vectors. -/
def FileIndex.entries (index : FileIndex) : List (Document × Embedding) :=
  index.documents.zip index.vectors

/-- The identifiers with their vectors. -/
def IdentifierIndex.entries (index : IdentifierIndex) : List (Identifier × Embedding) :=
  index.identifiers.zip index.vectors

/-- The positions of the identifiers of a name. -/
def IdentifierIndex.positions (index : IdentifierIndex) (name : String) : List Nat :=
  index.identifiers.zipIdx.filterMap fun (identifier, i) =>
    if identifier.entry.name = name then some i else none

end CodeAtlas
