import CodeAtlas.Service.Basic

/-!
# Refreshing and statistics

The service brings its caches up to date with some files, or makes both indexes anew.
-/

namespace CodeAtlas

open CodeAtlas.Path

/-- What a snapshot says of itself. -/
structure SnapshotStats where
  /-- its age, in milliseconds -/
  age : Nat
  /-- what its build did -/
  build : BuildStats

/-- What a service says of itself. -/
structure ServiceStats where
  /-- the base directory -/
  root : String
  /-- the name of the provider -/
  provider : String
  /-- the index of files, if there is one -/
  files : Option SnapshotStats
  /-- the index of identifiers, if there is one -/
  identifiers : Option SnapshotStats

namespace Service

variable {σ ℓ : Type}

/-- Brings the caches up to date with the files of some names, and drops all snapshots. -/
def refreshNames (service : Service σ ℓ) (names : List String) : Answer σ ℓ RefreshOutcome := do
  let outcome ← working (service.indexer.refresh names)
  invalidate
  return outcome

/-- The names of some paths. -/
def namesOf (service : Service σ ℓ) (paths : List String) : Answer σ ℓ (List String) :=
  match paths.mapM service.indexer.root.relative with
  | .ok names => return names
  | .error e => throw (.unnamed e)

/-- Brings the caches up to date with some files. -/
def refreshFiles (service : Service σ ℓ) (paths : List String) : Answer σ ℓ String := do
  let names ← service.namesOf paths
  let outcome ← service.refreshNames names
  return s!"Refreshed {outcome.refreshed} of {names.length} files " ++
    s!"({outcome.embedded} embedded, {outcome.removed} cache entries removed)\n"

/-- Makes both indexes anew. -/
def rebuild (service : Service σ ℓ) : Answer σ ℓ String := do
  invalidate
  let f := (← service.fileIndex).stats
  let i := (← service.identifierIndex).stats
  let hits := f.cacheHits + i.cacheHits
  let embedded := f.embedded + i.embedded
  let skipped := f.skippedFiles + f.skippedEmbeddings + i.skippedEmbeddings
  return s!"Rebuilt index: {f.documents} documents, {i.identifiers} identifiers " ++
    s!"({hits} cache hits, {embedded} embedded, {skipped} skipped)\n"

/-- Brings the caches up to date with some files; without any, makes both indexes anew. -/
def refresh (service : Service σ ℓ) (paths : List String) : Answer σ ℓ String :=
  if paths.isEmpty then service.rebuild else service.refreshFiles paths

/-- What a slot says of its snapshot. -/
def snapshotStats {α : Type} (slot : Slot α) (stats : α → BuildStats) (now : Nat) :
    Option SnapshotStats :=
  slot.kept.map fun snapshot => ⟨snapshot.age now, stats snapshot.value⟩

/-- What the service says of itself. Nothing is built for it. -/
def stats (service : Service σ ℓ) (s : State σ ℓ) : ServiceStats where
  root := service.settings.baseDirectory
  provider := service.indexer.provider.name
  files := snapshotStats s.files (·.stats) s.now
  identifiers := snapshotStats s.identifiers (·.stats) s.now

end Service

end CodeAtlas
