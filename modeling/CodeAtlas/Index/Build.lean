import CodeAtlas.Cache.Fill
import CodeAtlas.Index.Basic
import CodeAtlas.Index.Corpus

/-!
# Building indexes

An index is built from a corpus: the cache is read from the disk, filled with what is missing, freed
of what no longer belongs to the corpus, and written back. A provider that fails leaves the caches
on the disk as they were. A cache that cannot be written back does no harm: its vectors are made
again next time.

* `World` — what a build reads and changes: the disk and the provider's state.
* `Indexer.buildFiles`, `Indexer.buildIdentifiers` — the two indexes.
* `Indexer.embedUses` — the vectors of call sites, kept in the cache of identifiers.
-/

namespace CodeAtlas

/-- What lies outside the program: the disk, and the state of the provider. -/
structure World (σ : Type) where
  /-- the disk -/
  disk : Disk
  /-- the state of the provider -/
  memory : σ

/-- Work on the world that fails with a cause of type `ε` or gives a value. -/
abbrev Work (σ ε α : Type) := EStateM ε (World σ) α

/-- The item of a document. -/
def Document.item (d : Document) : Item :=
  ⟨CacheKey.file d.path, d.embeddingText⟩

/-- The items of a corpus's documents. -/
def Corpus.fileItems (c : Corpus) : List Item :=
  c.documents.map Document.item

/-- The item of an identifier. -/
def Identifier.item (i : Identifier) : Item :=
  ⟨CacheKey.identifier i.id, i.text⟩

/-- The items of a corpus's identifiers. -/
def Corpus.identifierItems (c : Corpus) : List Item :=
  c.identifiers.map Identifier.item

/-- Whether the cache of files keeps a key. -/
def Corpus.keepsFile (c : Corpus) (key : String) : Bool :=
  c.documents.any fun d => CacheKey.file d.path == key

/-- Whether the cache of identifiers keeps a key: an identifier must be in the corpus, and so must
the source file of a call site. -/
def Corpus.keepsIdentifier (c : Corpus) (key : String) : Bool :=
  match CacheKey.callSitePath? key with
  | some path => c.sources.contains path
  | none => c.identifiers.any fun i => CacheKey.identifier i.id == key

/-- What is gathered of some things when those without a vector are left out. -/
structure Gathered (α : Type) where
  /-- the things that have a vector -/
  things : List α
  /-- their vectors -/
  vectors : List Embedding
  /-- how many things are left out -/
  skipped : Nat

/-- Goes through things and their vectors, and puts aside or counts one after the other. -/
def gather {α : Type} : List α → List (Option Embedding) → Gathered α
  | thing :: things, some v :: vectors =>
    let rest := gather things vectors
    ⟨thing :: rest.things, v :: rest.vectors, rest.skipped⟩
  | _ :: things, none :: vectors =>
    let rest := gather things vectors
    { rest with skipped := rest.skipped + 1 }
  | _, _ => ⟨[], [], 0⟩

namespace Indexer

variable {σ : Type}

/-- The cache on the disk. -/
def loadCache (ix : Indexer σ) (kind : CacheKind) : Work σ EmbedError Cache := fun w =>
  .ok (ix.store.load kind w.disk) w

/-- The disk after an attempt to save a cache. -/
def savedCache (ix : Indexer σ) (kind : CacheKind) (cache : Cache) (d : Disk) : Disk :=
  match ix.store.save kind cache d with
  | .ok _ d => d
  | .error _ d => d

/-- Saves a cache, if that is possible. -/
def saveCache (ix : Indexer σ) (kind : CacheKind) (cache : Cache) : Work σ EmbedError Unit :=
  fun w =>
  .ok () { w with disk := ix.savedCache kind cache w.disk }

/-- Fills a cache with some items. -/
def fillCache (ix : Indexer σ) (items : List Item) (cache : Cache) : Work σ EmbedError Filled :=
  fun w =>
  match cache.fill ix.batching ix.provider items w.memory with
  | (.ok filled, s) => .ok filled { w with memory := s }
  | (.error e, s) => .error e { w with memory := s }

/-- Reads a cache, fills it, drops the keys that are not wanted, and saves it. Gives what was filled
in and how many keys were dropped. -/
def pass (ix : Indexer σ) (kind : CacheKind) (items : List Item) (wanted : String → Bool) :
    Work σ EmbedError (Filled × Nat) := do
  let cache ← ix.loadCache kind
  let filled ← ix.fillCache items cache
  let (pruned, kept) := filled.cache.prune wanted
  ix.saveCache kind kept
  return (filled, pruned)

/-- The index of the files of a corpus. -/
def buildFiles (ix : Indexer σ) (c : Corpus) : Work σ EmbedError FileIndex := do
  let (filled, pruned) ← ix.pass .files c.fileItems c.keepsFile
  let gathered := gather c.documents filled.vectors
  return ⟨gathered.things, gathered.vectors, {
    filesScanned := c.scanned
    documents := gathered.things.length
    identifiers := 0
    cacheHits := filled.hits
    embedded := filled.embedded
    skippedFiles := c.skipped
    skippedEmbeddings := gathered.skipped
    pruned := pruned }⟩

/-- The index of the identifiers of a corpus. -/
def buildIdentifiers (ix : Indexer σ) (c : Corpus) : Work σ EmbedError IdentifierIndex := do
  let (filled, pruned) ← ix.pass .identifiers c.identifierItems c.keepsIdentifier
  let gathered := gather c.identifiers filled.vectors
  return ⟨gathered.things, gathered.vectors, c.sources, {
    filesScanned := c.scanned
    documents := c.sources.size
    identifiers := gathered.things.length
    cacheHits := filled.hits
    embedded := filled.embedded
    skippedFiles := c.skipped
    skippedEmbeddings := gathered.skipped
    pruned := pruned }⟩

/-- The vectors of call sites, given by path, line and text. No key is dropped. -/
def embedUses (ix : Indexer σ) (uses : List (String × Nat × String)) :
    Work σ EmbedError (List (Option Embedding)) := do
  let items := uses.map fun (path, line, text) => ⟨CacheKey.callSite path line, text⟩
  let (filled, _) ← ix.pass .identifiers items fun _ => true
  return filled.vectors

/-- The wording of a failure to embed what is indexed. -/
def failureMessage (e : EmbedError) : String :=
  "Embedding provider failed: " ++ e.message

end Indexer

end CodeAtlas
