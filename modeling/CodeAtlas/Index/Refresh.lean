import CodeAtlas.Index.Build

/-!
# Refreshing files

Files that changed can be embedded anew without a walk of the whole tree. A file that is gone, or
that gives nothing any more, loses its entries in both caches; every other entry stays.

* `belongsTo` — whether a key of a cache belongs to a file.
* `Indexer.refresh` — brings the caches up to date with some files.
-/

namespace CodeAtlas

open CodeAtlas.Text

/-- What a refresh did. -/
structure RefreshOutcome where
  /-- how many files were read -/
  refreshed : Nat
  /-- how many entries were dropped -/
  removed : Nat
  /-- how many vectors are new -/
  embedded : Nat
  deriving DecidableEq, Inhabited

/-- Whether a key belongs to the file of a name: as the key of the file, of a call site in it, or of
one of its identifiers. -/
def belongsTo (key name : String) : Bool :=
  key == name ||
    match CacheKey.callSitePath? key with
    | some path => path == name
    | none =>
      match (dropStart? key CacheKey.identifierMark).bind fun id => dropStart? id name with
      | some rest => rest.toList.head? = some ':'
      | none => false

/-- What some files give, sorted by what becomes of it. -/
structure Changes where
  /-- the items of the files -/
  files : List Item
  /-- the items of their identifiers -/
  identifiers : List Item
  /-- the names of the files that give nothing -/
  removed : List String

/-- What the files of some names give. -/
def Changes.ofReadings (readings : List (String × FileReading)) : Changes where
  files := readings.filterMap fun (_, reading) => reading.document?.map Document.item
  identifiers := readings.flatMap fun (_, reading) => reading.identifiers.map Identifier.item
  removed := readings.filterMap fun (name, reading) =>
    if reading.document?.isNone then some name else none

namespace Indexer

variable {σ : Type}

/-- What the file of a name gives; nothing if there is no such file. -/
def readNamed (ix : Indexer σ) (d : Disk) (name : String) : FileReading :=
  let path := ix.root.absolute name
  if d.isFile path then ix.read d name path else .skipped

/-- What the files of some names give. -/
def changes (ix : Indexer σ) (d : Disk) (names : List String) : Changes :=
  .ofReadings (names.map fun name => (name, ix.readNamed d name))

/-- Drops the entries of the removed files from a cache, and fills it with the items of the others.
Gives how many entries were dropped and how many vectors are new. -/
def refreshCache (ix : Indexer σ) (kind : CacheKind) (removed : List String) (items : List Item) :
    Work σ EmbedError (Nat × Nat) := do
  let cache ← ix.loadCache kind
  let (dropped, kept) := cache.prune fun key => !removed.any (belongsTo key)
  let filled ← ix.fillCache items kept
  ix.saveCache kind filled.cache
  return (dropped, filled.embedded)

/-- Brings both caches up to date with the files of some names. -/
def refresh (ix : Indexer σ) (names : List String) : Work σ EmbedError RefreshOutcome := do
  let w ← get
  let changes := ix.changes w.disk names
  let (droppedFiles, newFiles) ← ix.refreshCache .files changes.removed changes.files
  let (droppedIdentifiers, newIdentifiers) ←
    ix.refreshCache .identifiers changes.removed changes.identifiers
  return ⟨changes.files.length, droppedFiles + droppedIdentifiers, newFiles + newIdentifiers⟩

end Indexer

end CodeAtlas
