import CodeAtlas.Decimal.Fixed
import CodeAtlas.Navigator.Tree
import CodeAtlas.Search.CallSites
import CodeAtlas.Search.Files
import CodeAtlas.Search.Identifiers

/-!
# Reports

Hits as texts for people: one numbered paragraph for each hit, with its scores as percentages.
-/

namespace CodeAtlas

open CodeAtlas.Text CodeAtlas.Decimal

namespace Report

/-- Percentages have one decimal place, and minus zero keeps its sign. -/
def percentage : FixedFormat := ⟨1, true⟩

/-- A score as a percentage. -/
def percentText (score : Float32) : String :=
  percentage.render (Reading.ofFloat32 (percent score)) ++ "%"

/-- A count with its noun. -/
def counted (n : Nat) (one many : String) : String :=
  s!"{n} " ++ (if n = 1 then one else many)

/-- The scores of a hit. A negative similarity is shown extra. -/
def scoreLine (s : Scores) : String :=
  let combined := percentText s.combined
  let semantic := percentText s.semantic
  let keyword := percentText s.keyword
  s!"combined {combined} | semantic {semantic} | keyword {keyword}" ++
    (if s.rawSemantic < 0 then s!" (raw semantic {percentText s.rawSemantic})" else "")

/-- The thresholds and requirements that were in force. -/
def filters (o : RankOptions) : List String :=
  let thresholds := [("semantic", o.minSemantic), ("keyword", o.minKeyword),
    ("combined", o.minCombined)].filterMap fun (name, value) =>
      let v := normalizeThreshold value
      if 0 < v then some s!"min {name} {percentText v}" else none
  thresholds ++ (if o.requireKeyword then ["keyword match required"] else []) ++
    (if o.requireSemantic then ["semantic match required"] else [])

/-- The report of a search without hits. -/
def noMatches (query : String) (o : RankOptions) : String :=
  let names := filters o
  s!"No matches for \"{query}\"" ++
    (if names.isEmpty then "" else " (" ++ ", ".intercalate names ++ ")") ++ "\n"

/-- Hits with numbers, counted from one. -/
def numbered {α : Type} (paragraph : Nat → α → String) (hits : List α) : String :=
  String.join (hits.zipIdx.map fun (hit, i) => paragraph (i + 1) hit)

/-- A line under a hit; nothing if there is nothing to say. -/
def detail (text : String) : String :=
  if text.isEmpty then "" else s!"   {text}\n"

/-- How many symbols are shown for a file. -/
def symbolsPerFile : Nat := 6

/-- The symbols of a file. -/
def symbolsText (entries : List SymbolEntry) : String :=
  if entries.isEmpty then ""
  else "symbols: " ++ ", ".intercalate ((entries.take symbolsPerFile).map fun e =>
    s!"{e.name} ({e.kind.name} {e.line}-{e.endLine})")

/-- The report of a search for files. -/
def files (query : String) (hits : List FileHit) (o : RankOptions) : String :=
  if hits.isEmpty then noMatches query o
  else
    let count := counted hits.length "result" "results"
    s!"{count} for \"{query}\"\n" ++ numbered (fun n hit =>
      s!"\n{n}. {hit.path}\n   {scoreLine hit.scores}\n" ++ detail hit.header ++
        detail (symbolsText hit.matched)) hits

/-- The uses of an identifier as lines under it. -/
def callLines (r : CallReport) (indent : String) : String :=
  s!"{indent}calls {r.sites.length}/{r.total}\n" ++ String.join (r.sites.map fun s =>
    s!"{indent}  {s.site.path}:{s.site.line}  {s.site.text}  [{percentText s.scores.combined}]\n")

/-- The report of a search for identifiers. -/
def identifiers (query : String) (hits : List IdentifierHit) (o : RankOptions) : String :=
  if hits.isEmpty then noMatches query o
  else
    let count := counted hits.length "result" "results"
    s!"{count} for \"{query}\"\n" ++ numbered (fun n hit =>
      let e := hit.identifier.entry
      s!"\n{n}. {e.name} ({e.kind.name})  {hit.identifier.path}:{e.line}-{e.endLine}\n" ++
        s!"   {scoreLine hit.scores}\n" ++ detail e.signature ++
        (match hit.identifier.owner with
          | some owner => s!"   in {owner}\n"
          | none => "") ++
        (match hit.calls with
          | some calls => callLines calls "   "
          | none => "")) hits

/-- The report of the uses of an identifier. -/
def callSites (name location : String) (r : CallReport) : String :=
  if r.total = 0 then s!"No call sites for {name} ({location})\n"
  else
    let count := counted r.total "call site" "call sites"
    s!"{count} of {name} ({location}), showing {r.sites.length}\n" ++ numbered (fun n s =>
      s!"\n{n}. {s.site.path}:{s.site.line}\n   {scoreLine s.scores}\n" ++
        String.join ((lines s.site.snippet).map fun line => s!"   | {line}\n")) r.sites

/-- How many files are shown for each cluster. -/
def filesPerCluster : Nat := 12

/-- The report of a cluster tree. -/
def navigation (t : ClusterTree) : String :=
  let files := t.fileCount 0
  if files = 0 then "No indexed files to navigate\n"
  else
    let clusters := counted t.leaves.length "cluster" "clusters"
    let counts := counted files "file" "files"
    s!"{counts} in {clusters} (depth {t.maxDepth})\n\n" ++ t.render filesPerCluster

/-- The report of a search that the provider could not serve. -/
def unavailable (what reason : String) : String :=
  s!"{what} unavailable: {reason}\n"

end Report

end CodeAtlas
