import CodeAtlas.Embedding.Choice
import CodeAtlas.Index.Refresh
import CodeAtlas.Index.Slot
import CodeAtlas.Navigator.Build
import CodeAtlas.Search.Report

/-!
# The service

The service answers questions about one root directory. It keeps three snapshots: the corpus, and
the two indexes made from it. Whatever is asked takes them from their slots while they are fresh.

* `Service` — what stays the same while it runs.
* `Service.State` — what changes.
* `Service.fileIndex`, `Service.identifierIndex` — the indexes.
* `Service.invalidate` — drops all snapshots.
-/

namespace CodeAtlas

open CodeAtlas.Path

/-- What stays the same while a service runs. The provider has states `σ`, the labeler states `ℓ`.
-/
structure Service (σ ℓ : Type) where
  /-- what it was told -/
  settings : Settings
  /-- what makes its indexes -/
  indexer : Indexer σ
  /-- who names clusters -/
  labeler : Option (Navigator.Labeler ℓ)

/-- Why a question has no answer. -/
inductive ServiceError where
  /-- a search for nothing -/
  | emptyQuery
  /-- a search for an identifier without a name -/
  | emptyName
  /-- no identifier of this name in the scope -/
  | unknownIdentifier (name : String) (scope : Option String)
  /-- a path without a name under the root -/
  | unnamed (cause : NameError)
  /-- what is indexed cannot be embedded -/
  | indexing (cause : EmbedError)
  /-- the query cannot be embedded -/
  | query (cause : EmbedError)
  deriving DecidableEq

/-- The wording of an error. -/
def ServiceError.message : ServiceError → String
  | .emptyQuery => "Query must not be empty"
  | .emptyName => "Identifier name must not be empty"
  | .unknownIdentifier name none => s!"Unknown identifier \x60{name}\x60"
  | .unknownIdentifier name (some scope) => s!"Unknown identifier \x60{name}\x60 under {scope}"
  | .unnamed cause => cause.message
  | .indexing cause => Indexer.failureMessage cause
  | .query cause => cause.message

namespace Service

/-- What changes while a service runs. -/
structure State (σ ℓ : Type) where
  /-- the disk, and the state of the provider -/
  world : World σ
  /-- the state of the labeler -/
  labels : ℓ
  /-- the time, in milliseconds -/
  now : Nat
  /-- the corpus -/
  corpus : Slot Corpus
  /-- the index of files -/
  files : Slot FileIndex
  /-- the index of identifiers -/
  identifiers : Slot IdentifierIndex

/-- An answer of the service, or the reason why there is none. -/
abbrev Answer (σ ℓ α : Type) := EStateM ServiceError (State σ ℓ) α

variable {σ ℓ : Type}

/-- The indexer that settings give. -/
def indexerOf (settings : Settings) (rules : SkipRules) (parser : Parser)
    (provider : Provider σ Embedding) : Indexer σ where
  root := settings.root
  rules := rules
  parser := parser
  provider := provider
  batching := settings.batching
  store := ⟨settings.cacheDirectory⟩
  documentChars := settings.documentChars
  fileBytes := settings.fileBytes

/-- A service without snapshots. -/
def start (service : Service σ ℓ) (world : World σ) (labels : ℓ) (now : Nat) : State σ ℓ :=
  let root := service.settings.baseDirectory
  let lifetime := service.settings.freshSeconds * 1000
  ⟨world, labels, now, .empty root lifetime, .empty root lifetime, .empty root lifetime⟩

/-- Work on the world as part of an answer. -/
def working {α : Type} (work : Work σ EmbedError α) : Answer σ ℓ α := fun s =>
  match work s.world with
  | .ok a world => .ok a { s with world := world }
  | .error e world => .error (.indexing e) { s with world := world }

/-- The slot of the corpus. -/
def corpusSlot : SlotIn (State σ ℓ) Corpus :=
  ⟨State.corpus, fun slot s => { s with corpus := slot }, State.now⟩

/-- The slot of the index of files. -/
def fileSlot : SlotIn (State σ ℓ) FileIndex :=
  ⟨State.files, fun slot s => { s with files := slot }, State.now⟩

/-- The slot of the index of identifiers. -/
def identifierSlot : SlotIn (State σ ℓ) IdentifierIndex :=
  ⟨State.identifiers, fun slot s => { s with identifiers := slot }, State.now⟩

/-- The corpus. -/
def takeCorpus (service : Service σ ℓ) : Answer σ ℓ Corpus :=
  corpusSlot.freshOr fun s => .ok (service.indexer.collect s.world.disk) s

/-- The index of files. -/
def fileIndex (service : Service σ ℓ) : Answer σ ℓ FileIndex :=
  fileSlot.freshOr do working (service.indexer.buildFiles (← service.takeCorpus))

/-- The index of identifiers. -/
def identifierIndex (service : Service σ ℓ) : Answer σ ℓ IdentifierIndex :=
  identifierSlot.freshOr do working (service.indexer.buildIdentifiers (← service.takeCorpus))

/-- Drops all snapshots. -/
def invalidate : Answer σ ℓ Unit :=
  modify fun s =>
    { s with corpus := s.corpus.clear, files := s.files.clear, identifiers := s.identifiers.clear }

/-- The vector of a query. -/
def embedQuery (service : Service σ ℓ) (query : String) : Answer σ ℓ Embedding := fun s =>
  let ix := service.indexer
  match ix.batching.embedOne ix.provider query s.world.memory with
  | (.ok v, memory) => .ok v { s with world := { s.world with memory := memory } }
  | (.error e, memory) => .error (.query e) { s with world := { s.world with memory := memory } }

/-- The report of an answer, or of the reason why there is none. -/
def orUnavailable {α : Type} (what : String) (report : α → String) (answer : Answer σ ℓ α) :
    Answer σ ℓ String := fun s =>
  match answer s with
  | .ok a s => .ok (report a) s
  | .error e s => .ok (Report.unavailable what e.message) s

end Service

end CodeAtlas
