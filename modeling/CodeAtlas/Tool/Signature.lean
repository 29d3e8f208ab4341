import CodeAtlas.Tool.Parameter

/-!
# Tools

The tools that are offered, with what is said about them and their parameters.

* `Tool.Name` — the tools; `Tool.Name.ofText?` — the tool of a name.
* `Tool.Name.parameters`, `Tool.Name.schema` — the parameters of a tool, and their description for
  whoever calls it.
-/

namespace CodeAtlas.Tool

/-- The tools. -/
inductive Name where
  /-- searches files -/
  | semanticSearch
  /-- searches identifiers -/
  | searchIdentifiers
  /-- finds the call sites of an identifier -/
  | findCallSites
  /-- shows files as a tree -/
  | navigate
  /-- brings the indexes up to date -/
  | refreshIndex
  /-- tells what is indexed -/
  | indexStats
  /-- copies files aside -/
  | createRestorePoint
  /-- lists the restore points -/
  | listRestorePoints
  /-- puts copies back -/
  | restore
  deriving DecidableEq

namespace Name

/-- All tools, in the order in which they are offered. -/
def all : List Name :=
  [.semanticSearch, .searchIdentifiers, .findCallSites, .navigate, .refreshIndex, .indexStats,
    .createRestorePoint, .listRestorePoints, .restore]

/-- The name of a tool. -/
def text : Name → String
  | .semanticSearch => "semantic_search"
  | .searchIdentifiers => "search_identifiers"
  | .findCallSites => "find_call_sites"
  | .navigate => "navigate"
  | .refreshIndex => "refresh_index"
  | .indexStats => "index_stats"
  | .createRestorePoint => "create_restore_point"
  | .listRestorePoints => "list_restore_points"
  | .restore => "restore"

/-- The tool of a name. -/
def ofText? (s : String) : Option Name :=
  all.find? fun tool => tool.text = s

/-- What a tool does. -/
def description : Name → String
  | .semanticSearch =>
    "Hybrid semantic + keyword search over whole files. " ++
      "Thresholds accept a fraction (0.5) or a percentage (50)."
  | .searchIdentifiers =>
    "Hybrid search over functions, classes, types and other identifiers, " ++
      "optionally with ranked call sites per result."
  | .findCallSites =>
    "Ranked call sites of a named identifier, with the total number of occurrences."
  | .navigate => "Cluster indexed files into a labeled hierarchy by embedding similarity."
  | .refreshIndex => "Re-embed specific files, or rebuild both indexes when no files are given."
  | .indexStats =>
    "Return index statistics (documents, identifiers, cache hits, change tracking)."
  | .createRestorePoint => "Back up files before editing them. Returns the restore point id."
  | .listRestorePoints => "List restore points, newest first."
  | .restore => "Restore the files of a restore point by id."

/-- The parameters that tune a ranking. -/
def rankingParameters : List Parameter :=
  [⟨"semantic_weight", .number, false, none⟩, ⟨"keyword_weight", .number, false, none⟩,
    ⟨"min_semantic_score", .number, false, none⟩, ⟨"min_keyword_score", .number, false, none⟩,
    ⟨"min_combined_score", .number, false, none⟩, ⟨"require_keyword_match", .truth, false, none⟩,
    ⟨"require_semantic_match", .truth, false, none⟩]

/-- The kinds of identifiers, as they are described. -/
def kindsDescription : String :=
  "function, method, class, struct, enum, interface, type, trait, const, variable, export"

/-- The parameters of a tool. -/
def parameters : Name → List Parameter
  | .semanticSearch =>
    [⟨"query", .text, true, none⟩, ⟨"top_k", .count, false, none⟩, ⟨"path", .text, false, none⟩] ++
      rankingParameters
  | .searchIdentifiers =>
    [⟨"query", .text, true, none⟩, ⟨"top_k", .count, false, none⟩, ⟨"path", .text, false, none⟩,
      ⟨"kinds", .texts, false, some kindsDescription⟩,
      ⟨"top_calls_per_identifier", .count, false, none⟩] ++ rankingParameters
  | .findCallSites =>
    [⟨"name", .text, true, none⟩, ⟨"path", .text, false, none⟩, ⟨"query", .text, false, none⟩,
      ⟨"limit", .count, false, none⟩]
  | .navigate =>
    [⟨"path", .text, false, none⟩, ⟨"max_depth", .count, false, none⟩,
      ⟨"max_clusters", .count, false, none⟩, ⟨"leaf_size", .count, false, none⟩]
  | .refreshIndex => [⟨"files", .texts, false, none⟩]
  | .indexStats => []
  | .createRestorePoint => [⟨"files", .texts, true, none⟩, ⟨"message", .text, false, none⟩]
  | .listRestorePoints => []
  | .restore => [⟨"id", .text, true, none⟩]

end Name

/-! ## Description for callers -/

/-- The description of the values of a kind. -/
def Kind.schema : Kind → List (String × Json)
  | .text => [("type", .text "string")]
  | .count => [("type", .text "integer")]
  | .number => [("type", .text "number")]
  | .truth => [("type", .text "boolean")]
  | .texts => [("type", .text "array"), ("items", .object [("type", .text "string")])]

/-- The description of a parameter. -/
def Parameter.schema (p : Parameter) : Json :=
  .object (p.kind.schema ++ (p.description.toList.map fun d => ("description", .text d)) ++
    if p.required then [] else [("nullable", .bool true)])

/-- The description of the parameters of a tool. -/
def Name.inputSchema (tool : Name) : Json :=
  let required := tool.parameters.filter (·.required)
  .object ([("type", .text "object"),
      ("properties", .object (tool.parameters.map fun p => (p.name, p.schema)))] ++
    if required.isEmpty then [] else [("required", .array (required.map fun p => .text p.name))])

/-- The description of a tool. -/
def Name.schema (tool : Name) : Json :=
  .object [("name", .text tool.text), ("description", .text tool.description),
    ("inputSchema", tool.inputSchema)]

end CodeAtlas.Tool
