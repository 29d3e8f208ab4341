import CodeAtlas.Decimal.Literal
import CodeAtlas.Decimal.Shortest
import CodeAtlas.Disk.Basic
import CodeAtlas.Settings.Basic

/-!
# Settings from the environment

Settings are read from environment variables. Only the base directory is required; it is the one
variable whose value is taken as it stands. Of every other one the outer blanks are dropped, and a
blank value counts as none.

* `Settings.ofEnvironment` — the settings, or the first error in the order in which they are listed.
-/

namespace CodeAtlas

open CodeAtlas.Path CodeAtlas.Decimal

/-- Why settings cannot be read. -/
inductive SettingsError where
  /-- a required variable is not set -/
  | missing (key : String)
  /-- the base directory cannot be found -/
  | baseNotFound (written path : String) (cause : DiskError)
  /-- the base directory is not a directory -/
  | baseNotDirectory (written path : String)
  /-- the backend has no such name -/
  | backend (value : String)
  /-- a value is not a whole number -/
  | integer (value : String) (cause : NaturalError)
  /-- a value is not a decimal number -/
  | decimal (value : String)
  /-- the factor does not shorten -/
  | shrinkFactor (value : Float32)
  /-- a weight is negative or not finite -/
  | weight (key value : String)
  /-- a value is not a truth value -/
  | truth (value : String)

/-- The wording of an error. -/
def SettingsError.message : SettingsError → String
  | .missing key => s!"Missing required env var: {key}"
  | .baseNotFound written path cause =>
    s!"Invalid BASE_DIR: {written}: Path does not exist: {path}: {cause.message}"
  | .baseNotDirectory written path =>
    s!"Invalid BASE_DIR: {written}: Expected directory, got file: {path}"
  | .backend value => s!"Invalid EMBEDDINGS_BACKEND: {value}"
  | .integer value cause => s!"Invalid integer '{value}': {cause.message}"
  | .decimal value => s!"Invalid float '{value}': invalid float literal"
  | .shrinkFactor value =>
    "EMBEDDING_SHRINK_FACTOR must be in (0, 1), got " ++ positionalText (Reading.ofFloat32 value)
  | .weight key value => s!"{key} must be a non-negative number, got {value}"
  | .truth value => s!"Invalid boolean '{value}'"

/-- What a process is started with. -/
structure Environment where
  /-- the variables that are set -/
  bindings : List (String × String)
  /-- the directory that relative paths are taken under -/
  workingDirectory : String

namespace Environment

/-- The variables that settings are read from. -/
def keys : List String := [
  "BASE_DIR", "CACHE_DIR", "EMBEDDINGS_BACKEND", "EMBEDDINGS_MODEL", "EMBEDDINGS_MODEL_DIR",
  "OLLAMA_URL", "EMBEDDING_BATCH_SIZE", "EMBEDDING_TIMEOUT_SECS", "EMBEDDING_SHRINK_FACTOR",
  "EMBEDDING_MAX_SHRINK_RETRIES", "HASH_EMBEDDING_DIM", "INDEX_TTL_SECS", "MAX_DOCUMENT_CHARS",
  "MAX_FILE_BYTES", "IGNORED_PREFIXES", "RANK_SEMANTIC_WEIGHT", "RANK_KEYWORD_WEIGHT",
  "KEYWORD_COVERAGE_WEIGHT", "KEYWORD_SYMBOL_WEIGHT", "KEYWORD_PHRASE_BOOST",
  "CALLSITE_SEMANTIC_WEIGHT", "CALLSITE_KEYWORD_WEIGHT", "NAVIGATOR_MAX_DEPTH",
  "NAVIGATOR_MAX_CLUSTERS", "NAVIGATOR_LEAF_SIZE", "LABELS_ENABLED", "LABEL_MODEL", "WATCH_MODE",
  "WATCH_DEBOUNCE_MS", "WATCH_BATCH_SIZE", "RESTORE_MAX_POINTS"]

/-- The value of a variable as it stands. -/
def raw? (e : Environment) (key : String) : Option String :=
  (e.bindings.find? (·.1 = key)).map (·.2)

/-- The value of a variable without outer blanks, if anything is left. -/
def value? (e : Environment) (key : String) : Option String :=
  (e.raw? key).bind fun v =>
    let v := Text.trim v
    if v = "" then none else some v

/-- The value of a variable as a whole number, or `default` in its absence. -/
def natural (e : Environment) (key : String) (default : Nat) : Except SettingsError Nat :=
  match e.value? key with
  | none => .ok default
  | some v =>
    match natural? v with
    | .ok n => .ok n
    | .error cause => .error (.integer v cause)

/-- The decimal number that a value spells. -/
def decimal (value : String) : Except SettingsError Float32 :=
  match float32? value with
  | some x => .ok x
  | none => .error (.decimal value)

/-- The value of a variable as a weight, or `default` in its absence. -/
def weight (e : Environment) (key : String) (default : Float32) : Except SettingsError Float32 :=
  match e.value? key with
  | none => .ok default
  | some v => do
    let x ← decimal v
    if !x.isFinite || x < 0 then throw (.weight key v)
    return x

/-- The factor that texts are shortened by: above zero and below one. -/
def shrinkFactor (e : Environment) (default : Float32) : Except SettingsError Float32 :=
  match e.value? "EMBEDDING_SHRINK_FACTOR" with
  | none => .ok default
  | some v => do
    let x ← decimal v
    if 0 < x && x < 1 then return x
    throw (.shrinkFactor x)

/-- The value of a variable as a truth value, or `default` in its absence. -/
def truth (e : Environment) (key : String) (default : Bool) : Except SettingsError Bool :=
  match e.value? key with
  | none => .ok default
  | some v =>
    let word := Unicode.lowercase v
    if word ∈ ["true", "1", "yes", "y"] then .ok true
    else if word ∈ ["false", "0", "no", "n"] then .ok false
    else .error (.truth word)

/-- The backend of this name. -/
def backend (value : String) : Except SettingsError Backend :=
  let word := Unicode.lowercase value
  match [Backend.ollama, .fastEmbed, .hash].find? (·.name = word) with
  | some b => .ok b
  | none => .error (.backend word)

/-- The value of a variable as a path under the base directory. -/
def path (e : Environment) (base key default : String) : String :=
  join base ((e.value? key).getD default)

/-- The parts of a list written with commas, without their outer blanks and without blank ones. -/
def commaList (value : String) : List String :=
  ((Text.splitOn ',' value).map Text.trim).filter (· ≠ "")

/-- The base directory, with links followed. -/
def baseDirectory (e : Environment) (d : Disk) : Except SettingsError String :=
  match e.raw? "BASE_DIR" with
  | none => .error (.missing "BASE_DIR")
  | some written =>
    let path := join e.workingDirectory written
    match d.canonical? path with
    | .error cause => .error (.baseNotFound written path cause)
    | .ok place =>
      if d.lookup place = some .directory then .ok (absoluteOf place)
      else .error (.baseNotDirectory written path)

end Environment

/-- The model that a backend uses when nothing else is said. -/
def Backend.defaultModel : Backend → String
  | .fastEmbed => "BAAI/bge-small-en-v1.5"
  | .ollama => "nomic-embed-text"
  | .hash => "nomic-embed-text"

/-- The settings that the environment gives. -/
def Settings.ofEnvironment (e : Environment) (d : Disk) : Except SettingsError Settings := do
  let base ← e.baseDirectory d
  let s := Settings.ofBase base
  let backend ← match e.value? "EMBEDDINGS_BACKEND" with
    | some v => Environment.backend v
    | none => pure s.backend
  let batchSize ← e.natural "EMBEDDING_BATCH_SIZE" s.batchSize
  let timeoutSeconds ← e.natural "EMBEDDING_TIMEOUT_SECS" s.timeoutSeconds
  let shrinkFactor ← e.shrinkFactor s.shrinkFactor
  let shrinkRetries ← e.natural "EMBEDDING_MAX_SHRINK_RETRIES" s.shrinkRetries
  let hashDimension ← e.natural "HASH_EMBEDDING_DIM" s.hashDimension
  let freshSeconds ← e.natural "INDEX_TTL_SECS" s.freshSeconds
  let documentChars ← e.natural "MAX_DOCUMENT_CHARS" s.documentChars
  let fileBytes ← e.natural "MAX_FILE_BYTES" s.fileBytes
  let semanticWeight ← e.weight "RANK_SEMANTIC_WEIGHT" s.semanticWeight
  let keywordWeight ← e.weight "RANK_KEYWORD_WEIGHT" s.keywordWeight
  let coverageWeight ← e.weight "KEYWORD_COVERAGE_WEIGHT" s.coverageWeight
  let symbolWeight ← e.weight "KEYWORD_SYMBOL_WEIGHT" s.symbolWeight
  let phraseBoost ← e.weight "KEYWORD_PHRASE_BOOST" s.phraseBoost
  let callSemanticWeight ← e.weight "CALLSITE_SEMANTIC_WEIGHT" s.callSemanticWeight
  let callKeywordWeight ← e.weight "CALLSITE_KEYWORD_WEIGHT" s.callKeywordWeight
  let treeDepth ← e.natural "NAVIGATOR_MAX_DEPTH" s.treeDepth
  let treeClusters ← e.natural "NAVIGATOR_MAX_CLUSTERS" s.treeClusters
  let leafSize ← e.natural "NAVIGATOR_LEAF_SIZE" s.leafSize
  let labels ← e.truth "LABELS_ENABLED" s.labels
  let watch ← e.truth "WATCH_MODE" s.watch
  let debounceMillis ← e.natural "WATCH_DEBOUNCE_MS" s.debounceMillis
  let refreshBatch ← e.natural "WATCH_BATCH_SIZE" s.refreshBatch
  let restorePoints ← e.natural "RESTORE_MAX_POINTS" s.restorePoints
  return {
    baseDirectory := base
    cacheDirectory := e.path base "CACHE_DIR" "./.semnav"
    backend
    model := (e.value? "EMBEDDINGS_MODEL").getD backend.defaultModel
    modelDirectory :=
      if backend = .fastEmbed then some (e.path base "EMBEDDINGS_MODEL_DIR" "./.semnav/models")
      else none
    serverUrl :=
      match e.value? "OLLAMA_URL" with
      | some url => withoutEndSlashes url
      | none => s.serverUrl
    batchSize := Settings.clampBatch batchSize
    timeoutSeconds
    shrinkFactor
    shrinkRetries
    hashDimension := max hashDimension 8
    freshSeconds
    documentChars := max documentChars 64
    fileBytes
    ignored := ((e.value? "IGNORED_PREFIXES").map Environment.commaList).getD s.ignored
    semanticWeight
    keywordWeight
    coverageWeight
    symbolWeight
    phraseBoost
    callSemanticWeight
    callKeywordWeight
    treeDepth := max treeDepth 1
    treeClusters := max treeClusters 2
    leafSize := max leafSize 1
    labels
    labelModel := (e.value? "LABEL_MODEL").getD s.labelModel
    watch
    debounceMillis
    refreshBatch := max refreshBatch 1
    restorePoints := max restorePoints 1 }
where
  /-- A text without the slashes at its end. -/
  withoutEndSlashes (s : String) : String :=
    String.ofList (dropEndSlashes s.toList)

end CodeAtlas
