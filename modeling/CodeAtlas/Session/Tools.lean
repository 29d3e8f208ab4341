import CodeAtlas.Session.Basic
import CodeAtlas.Tool.Signature

/-!
# Running tools

A tool is run with the values of its arguments. What it answers is a report, or data that is given
as JSON.

* `rankOptions` — how the arguments of a search tune the ranking.
* `Session.run` — runs a tool.
* `Session.call` — runs the tool of a name with arguments that are still to be read.
-/

namespace CodeAtlas

open CodeAtlas.Tool

/-- Why a tool gives no answer. -/
inductive ToolError where
  /-- there is no tool of this name -/
  | unknownTool (name : String)
  /-- the arguments of a tool cannot be read -/
  | arguments (tool : String) (cause : ArgumentError)
  /-- there is no kind of identifiers of this name -/
  | unknownKind (cause : UnknownKind)
  /-- the service gives no answer -/
  | service (cause : ServiceError)
  /-- the store of restore points gives no answer -/
  | restore (cause : RestoreError)
  deriving DecidableEq

/-- The wording of an error. -/
def ToolError.message : ToolError → String
  | .unknownTool name => s!"Unknown tool: {name}"
  | .arguments tool cause => s!"Invalid arguments for tool '{tool}': {cause.message}"
  | .unknownKind cause => cause.message
  | .service cause => cause.message
  | .restore cause => cause.message

/-- What a tool answers. -/
inductive ToolAnswer where
  /-- a report -/
  | report (text : String)
  /-- data -/
  | data (json : Json)

/-- The text of an answer. Data is written over several lines. -/
def ToolAnswer.text : ToolAnswer → String
  | .report text => text
  | .data json => json.indented

/-! ## Requests from arguments -/

/-- How the arguments of a search tune the ranking that settings give. One hit at least is asked
for. -/
def rankOptions (settings : Settings) (b : Bindings) : RankOptions :=
  let base := settings.rankOptions
  { semanticWeight := (b.number? "semantic_weight").getD base.semanticWeight
    keywordWeight := (b.number? "keyword_weight").getD base.keywordWeight
    minSemantic := (b.number? "min_semantic_score").getD base.minSemantic
    minKeyword := (b.number? "min_keyword_score").getD base.minKeyword
    minCombined := (b.number? "min_combined_score").getD base.minCombined
    requireKeyword := (b.truth? "require_keyword_match").getD base.requireKeyword
    requireSemantic := (b.truth? "require_semantic_match").getD base.requireSemantic
    topK := max ((b.count? "top_k").getD base.topK) 1 }

/-- The search for files that arguments ask for. -/
def fileRequest (settings : Settings) (b : Bindings) : FileRequest :=
  ⟨(b.text? "query").getD "", b.text? "path", rankOptions settings b⟩

/-- The search for identifiers that arguments ask for. -/
def identifierRequest (settings : Settings) (b : Bindings) : Except UnknownKind IdentifierRequest :=
  do
  let kinds ← SymbolKind.parseAll ((b.texts? "kinds").getD [])
  return ⟨(b.text? "query").getD "", b.text? "path", kinds, rankOptions settings b,
    (b.count? "top_calls_per_identifier").getD 0⟩

/-- How many call sites are asked for when nothing else is said. -/
def defaultCallLimit : Nat := 10

/-- The search for call sites that arguments ask for. -/
def callRequest (b : Bindings) : CallRequest :=
  ⟨(b.text? "name").getD "", b.text? "path", b.text? "query",
    (b.count? "limit").getD defaultCallLimit⟩

/-- The tree that arguments ask for. -/
def navigateRequest (b : Bindings) : NavigateRequest :=
  ⟨b.text? "path", b.count? "max_depth", b.count? "max_clusters", b.count? "leaf_size"⟩

/-! ## Data -/

/-- The written form of what a build did. -/
def BuildStats.toJson (s : BuildStats) : Json :=
  .object [("files_scanned", .ofNat s.filesScanned), ("documents", .ofNat s.documents),
    ("identifiers", .ofNat s.identifiers), ("cache_hits", .ofNat s.cacheHits),
    ("embedded", .ofNat s.embedded), ("skipped_files", .ofNat s.skippedFiles),
    ("skipped_embeddings", .ofNat s.skippedEmbeddings), ("pruned", .ofNat s.pruned),
    ("elapsed_ms", .ofNat 0)]

/-- The written form of what a snapshot says of itself. -/
def SnapshotStats.toJson (s : SnapshotStats) : Json :=
  .object [("age_ms", .ofNat s.age), ("build", s.build.toJson)]

/-- The written form of what may be missing. -/
def Json.ofOption {α : Type} (write : α → Json) : Option α → Json
  | some a => write a
  | none => .null

/-- The written form of what a service says of itself. -/
def ServiceStats.toJson (s : ServiceStats) : Json :=
  .object [("root", .text s.root), ("embedder", .text s.provider),
    ("file_index", .ofOption SnapshotStats.toJson s.files),
    ("identifier_index", .ofOption SnapshotStats.toJson s.identifiers)]

/-- The written form of what a tracker says of itself. -/
def TrackerStatus.toJson (s : TrackerStatus) : Json :=
  .object [("enabled", .bool s.enabled), ("pending", .ofNat s.pending),
    ("flushes", .ofNat s.flushes),
    ("refreshed_files", .ofNat s.refreshed), ("last_error", .ofText? s.lastError)]

/-- What is told when changes are not followed. -/
def noTracker : Json :=
  .object [("enabled", .bool false)]

namespace Session

variable {σ ℓ : Type}

/-- What a session says of itself. -/
def statsJson (session : Session σ ℓ) (s : State σ ℓ) : Json :=
  .object [("index", (session.service.stats s.service).toJson),
    ("tracker", match s.tracker with
      | some tracker => tracker.status.toJson
      | none => noTracker)]

/-! ## Running -/

/-- The report of the service, as the answer of a tool. -/
def reporting (answer : Service.Answer σ ℓ String) (s : State σ ℓ) :
    Except ToolError ToolAnswer × State σ ℓ :=
  match asking answer s with
  | (.ok text, s) => (.ok (.report text), s)
  | (.error e, s) => (.error (.service e), s)

/-- Data about a restore point, as the answer of a tool. -/
def pointing (write : RestorePoint → Json) (result : Except RestoreError RestorePoint × State σ ℓ) :
    Except ToolError ToolAnswer × State σ ℓ :=
  match result with
  | (.ok point, s) => (.ok (.data (write point)), s)
  | (.error e, s) => (.error (.restore e), s)

/-- Runs a tool with the values of its arguments. -/
def run (session : Session σ ℓ) (tool : Tool.Name) (b : Bindings) (s : State σ ℓ) :
    Except ToolError ToolAnswer × State σ ℓ :=
  let service := session.service
  match tool with
  | .semanticSearch => reporting (service.search (fileRequest service.settings b)) s
  | .searchIdentifiers =>
    match identifierRequest service.settings b with
    | .ok request => reporting (service.searchIdentifiers request) s
    | .error e => (.error (.unknownKind e), s)
  | .findCallSites => reporting (service.findCallSites (callRequest b)) s
  | .navigate => reporting (service.navigate (navigateRequest b)) s
  | .refreshIndex => reporting (service.refresh ((b.texts? "files").getD [])) s
  | .indexStats => (.ok (.data (session.statsJson s)), s)
  | .createRestorePoint =>
    pointing RestorePoint.toJson
      (session.creating ((b.texts? "files").getD []) ((b.text? "message").getD "") s)
  | .listRestorePoints =>
    let points := (session.store.list s.disk).map RestorePoint.toJson
    (.ok (.data (.object [("restore_points", .array points)])), s)
  | .restore =>
    pointing (fun point => .object [("ok", .bool true), ("restored", point.toJson)])
      (session.restoring ((b.text? "id").getD "") s)

/-- The arguments of a tool, read. -/
def readCall (name : String) (arguments : List (String × Json)) :
    Except ToolError (Tool.Name × Bindings) :=
  match Tool.Name.ofText? name with
  | none => .error (.unknownTool name)
  | some tool =>
    match readArguments tool.parameters arguments with
    | .ok bindings => .ok (tool, bindings)
    | .error e => .error (.arguments name e)

/-- Runs the tool of a name. -/
def call (session : Session σ ℓ) (name : String) (arguments : List (String × Json))
    (s : State σ ℓ) :
    Except ToolError ToolAnswer × State σ ℓ :=
  match readCall name arguments with
  | .ok (tool, bindings) => session.run tool bindings s
  | .error e => (.error e, s)

end Session

end CodeAtlas
