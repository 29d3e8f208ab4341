import CodeAtlas.Path.Root

/-!
# Settings

What an index is told before it starts: where it works, how texts are turned into vectors, what is
left out, how hits are weighed, how the tree of clusters is cut, and how changes are followed.

* `Settings.ofBase` — the settings of a base directory when nothing else is said.
* `Settings.root` — the root that names are relative to. The cache directory is excluded under it.
-/

namespace CodeAtlas

open CodeAtlas.Path

/-- Who turns texts into vectors. -/
inductive Backend where
  /-- a model server reached over HTTP -/
  | ollama
  /-- a model run in the process -/
  | fastEmbed
  /-- hashing, without any model -/
  | hash
  deriving DecidableEq, Inhabited

/-- The name of a backend. -/
def Backend.name : Backend → String
  | .ollama => "ollama"
  | .fastEmbed => "fastembed"
  | .hash => "hash"

/-- What an index is told before it starts. -/
structure Settings where
  /-- the directory that is indexed -/
  baseDirectory : String
  /-- the directory for caches and restore points -/
  cacheDirectory : String
  /-- who turns texts into vectors -/
  backend : Backend
  /-- the model that does it -/
  model : String
  /-- where models are kept -/
  modelDirectory : Option String
  /-- the address of the model server -/
  serverUrl : String
  /-- how many texts are sent at once -/
  batchSize : Nat
  /-- how long one request may take, in seconds -/
  timeoutSeconds : Nat
  /-- by what factor a text that is too long is shortened -/
  shrinkFactor : Float32
  /-- how often a text is shortened -/
  shrinkRetries : Nat
  /-- the dimension of hashed vectors -/
  hashDimension : Nat
  /-- how long an index stays fresh, in seconds -/
  freshSeconds : Nat
  /-- how many characters of a document are used -/
  documentChars : Nat
  /-- the size above which a file is left out -/
  fileBytes : Nat
  /-- the component sequences that are skipped -/
  ignored : List String
  /-- the weight of the semantic score -/
  semanticWeight : Float32
  /-- the weight of the keyword score -/
  keywordWeight : Float32
  /-- the weight of coverage in the keyword score -/
  coverageWeight : Float32
  /-- the weight of symbol names in the keyword score -/
  symbolWeight : Float32
  /-- what a literal phrase adds to the keyword score -/
  phraseBoost : Float32
  /-- the weight of the semantic score of call sites -/
  callSemanticWeight : Float32
  /-- the weight of the keyword score of call sites -/
  callKeywordWeight : Float32
  /-- how deep the cluster tree may be -/
  treeDepth : Nat
  /-- how many clusters a node may have -/
  treeClusters : Nat
  /-- how many files a leaf may have without being divided -/
  leafSize : Nat
  /-- whether clusters are labelled by a model -/
  labels : Bool
  /-- the model that labels them -/
  labelModel : String
  /-- whether changes are followed -/
  watch : Bool
  /-- how long changes are collected, in milliseconds -/
  debounceMillis : Nat
  /-- how many changed files are refreshed at once -/
  refreshBatch : Nat
  /-- how many restore points are kept -/
  restorePoints : Nat

namespace Settings

/-- The component sequences that are skipped when nothing else is said. -/
def defaultIgnored : List String :=
  [".git", "node_modules", "target", "dist", "build", ".semnav", "__pycache__", ".venv", ".next",
    "coverage"]

/-- The settings of a base directory when nothing else is said. -/
def ofBase (base : String) : Settings where
  baseDirectory := base
  cacheDirectory := join base ".semnav"
  backend := .ollama
  model := "nomic-embed-text"
  modelDirectory := none
  serverUrl := "http://localhost:11434"
  batchSize := 8
  timeoutSeconds := 60
  shrinkFactor := 0.75
  shrinkRetries := 4
  hashDimension := 256
  freshSeconds := 30
  documentChars := 4000
  fileBytes := 1024 * 1024
  ignored := defaultIgnored
  semanticWeight := 0.75
  keywordWeight := 0.25
  coverageWeight := 0.65
  symbolWeight := 0.20
  phraseBoost := 0.15
  callSemanticWeight := 0.82
  callKeywordWeight := 0.18
  treeDepth := 3
  treeClusters := 8
  leafSize := 8
  labels := true
  labelModel := "llama3.2"
  watch := true
  debounceMillis := 500
  refreshBatch := 32
  restorePoints := 20

/-- The root that names are relative to, without the cache directory. -/
def root (s : Settings) : Root :=
  (Root.ofDirectory s.baseDirectory s.ignored).excluding s.cacheDirectory

/-- A path taken under the base directory. -/
def underBase (s : Settings) (path : String) : String :=
  join s.baseDirectory path

/-- The least and the greatest number of texts that are sent at once. -/
def batchBounds : Nat × Nat := (1, 32)

/-- A number of texts brought between its bounds. -/
def clampBatch (size : Nat) : Nat :=
  min (max size batchBounds.1) batchBounds.2

theorem clampBatch_pos (size : Nat) : 0 < clampBatch size := by
  simp only [clampBatch, batchBounds]; omega

end Settings

end CodeAtlas
