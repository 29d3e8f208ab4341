import CodeAtlas.Exchange.Search
import CodeAtlas.Session.Tools
import CodeAtlas.Tracker.Basic

/-!
# Requests and outcomes as JSON

* `fileRequest`, `identifierRequest`, `callRequest`, `navigateRequest` — what is asked of a service.
* `ofRefreshOutcome`, `ofFlushOutcome`, `ofFileIndex`, `ofIdentifierIndex` — what was done.
* `ofBindings` — the values of a tool's arguments.
-/

namespace CodeAtlas.Exchange

/-! ## Requests -/

/-- A search for files. -/
def fileRequest (settings : Settings) (j : Json) : FileRequest :=
  ⟨text j "query", text? j "path", rankOptionsOver settings.rankOptions (field j "options")⟩

/-- A search for identifiers. -/
def identifierRequest (settings : Settings) (j : Json) : Except UnknownKind IdentifierRequest := do
  let kinds ← SymbolKind.parseAll (texts j "kinds")
  return ⟨text j "query", text? j "path", kinds,
    rankOptionsOver settings.rankOptions (field j "options"), natural j "top_calls" 0⟩

/-- A search for call sites. -/
def callRequest (j : Json) : CallRequest :=
  ⟨text j "name", text? j "path", text? j "query", natural j "limit" defaultCallLimit⟩

/-- A tree of files. -/
def navigateRequest (j : Json) : NavigateRequest :=
  ⟨text? j "path", natural? j "max_depth", natural? j "max_clusters", natural? j "leaf_size"⟩

/-! ## Outcomes -/

/-- What a refresh did. -/
def ofRefreshOutcome (o : RefreshOutcome) : Json := .object [
  ("refreshed", .ofNat o.refreshed), ("removed", .ofNat o.removed), ("embedded", .ofNat o.embedded)]

/-- What a flush gave. -/
def ofFlushOutcome : FlushOutcome → Json
  | .busy n => .object [("busy", .ofNat n)]
  | .idle => .text "idle"
  | .flushed o n => .object [("flushed", ofRefreshOutcome o), ("remaining", .ofNat n)]
  | .failed e n => .object [("failed", .text e), ("remaining", .ofNat n)]

/-- How many components of a vector are not zero. -/
def weight (v : Embedding) : Nat :=
  (v.toList.filter fun x => !(x == 0)).length

/-- A vector by its components that are not zero. -/
def ofSparse (v : Embedding) : Json :=
  let present := v.toList.zipIdx.filter fun (x, _) => !(x == 0)
  .object [("dim", .ofNat v.size),
    ("nz", .array (present.map fun (x, i) => .array [.ofNat i, ofSingle x]))]

/-- What an index of files holds. -/
def ofFileIndex (index : FileIndex) : Json := .object [
  ("stats", index.stats.toJson),
  ("documents", .array (index.documents.map fun d =>
    .array [.text d.path, .text d.header, ofTexts d.symbols, .text d.content])),
  ("nonzero", .array (index.vectors.map fun v => .ofNat (weight v)))]

/-- What an index of identifiers holds. -/
def ofIdentifierIndex (index : IdentifierIndex) : Json := .object [
  ("stats", index.stats.toJson),
  ("ids", .array (index.identifiers.map fun i =>
    .array [.text i.id, .text i.entry.kind.name, .ofNat i.entry.endLine, .text i.entry.signature,
      .ofText? i.owner])),
  ("files", ofTexts index.sources.keys)]

/-! ## Arguments -/

/-- The value of an argument; `null` for a number that is not finite. -/
def ofValue : Tool.Value → Json
  | .text s => .text s
  | .count n => .ofNat n
  | .number x => if x.isFinite then ofSingle x else .null
  | .truth b => .bool b
  | .texts ss => ofTexts ss

/-- The values of all parameters of a tool. -/
def ofBindings (tool : Tool.Name) (b : Tool.Bindings) : Json :=
  .object (tool.parameters.map fun p => (p.name, ofOption ofValue (b.find? p.name)))

end CodeAtlas.Exchange
