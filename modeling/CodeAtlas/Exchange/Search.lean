import CodeAtlas.Exchange.Documents
import CodeAtlas.Navigator.Build
import CodeAtlas.Search.Files
import CodeAtlas.Search.Identifiers

/-!
# Searches and clusters as JSON

* `rankOptionsOver`, `ofRankOptions` — how hits are ranked.
* `ofFileHit`, `ofIdentifierHit`, `ofCallReport` — what is found.
* `ofClusterTree` — the nodes of a tree of clusters.
-/

namespace CodeAtlas.Exchange

/-! ## Ranking -/

/-- Options with those that an object names replaced. -/
def rankOptionsOver (o : RankOptions) (j : Json) : RankOptions where
  semanticWeight := singleOr j "semantic_weight" o.semanticWeight
  keywordWeight := singleOr j "keyword_weight" o.keywordWeight
  minSemantic := singleOr j "min_semantic_score" o.minSemantic
  minKeyword := singleOr j "min_keyword_score" o.minKeyword
  minCombined := singleOr j "min_combined_score" o.minCombined
  requireKeyword := (truth? j "require_keyword_match").getD o.requireKeyword
  requireSemantic := (truth? j "require_semantic_match").getD o.requireSemantic
  topK := natural j "top_k" o.topK

/-- All options as an object. -/
def ofRankOptions (o : RankOptions) : Json := .object [
  ("semantic_weight", ofSingle o.semanticWeight), ("keyword_weight", ofSingle o.keywordWeight),
  ("min_semantic_score", ofSingle o.minSemantic), ("min_keyword_score", ofSingle o.minKeyword),
  ("min_combined_score", ofSingle o.minCombined),
  ("require_keyword_match", .bool o.requireKeyword),
  ("require_semantic_match", .bool o.requireSemantic), ("top_k", .ofNat o.topK)]

/-- The keyword weights that a value stands for. -/
def keywordWeights (j : Json) : KeywordWeights :=
  let standard := KeywordWeights.standard
  ⟨singleOr j "coverage" standard.coverage, singleOr j "symbol" standard.symbol,
    singleOr j "phrase" standard.phrase⟩

/-- Scores as an object. -/
def ofScores (s : Scores) : Json := .object [
  ("semantic", ofSingle s.semantic), ("raw_semantic", ofSingle s.rawSemantic),
  ("keyword", ofSingle s.keyword), ("combined", ofSingle s.combined)]

/-- The scores in the field of that name. -/
def scores (j : Json) : Scores :=
  let j := field j "scores"
  ⟨singleOr j "semantic" 0, singleOr j "raw_semantic" 0, singleOr j "keyword" 0,
    singleOr j "combined" 0⟩

/-! ## Hits -/

/-- A file that was found. -/
def ofFileHit (h : FileHit) : Json := .object [
  ("path", .text h.path), ("header", .text h.header),
  ("matched_symbols", .array (h.matched.map ofEntry)), ("scores", ofScores h.scores)]

/-- The found file that a value stands for. -/
def fileHit (j : Json) : FileHit :=
  ⟨text j "path", text j "header", (items j "matched_symbols").map entry, scores j⟩

/-- The fields of a use. -/
def useFields (u : Use) : List (String × Json) :=
  [("path", .text u.path), ("line", .ofNat u.line), ("text", .text u.text),
    ("snippet", .text u.snippet)]

/-- A use with its text. -/
def ofUse (u : Use) : Json :=
  .object (useFields u ++ [("embedding_text", .text u.embeddingText)])

/-- The use that a value stands for. -/
def use (j : Json) : Use :=
  ⟨text j "path", natural j "line" 0, text j "text", text j "snippet"⟩

/-- The uses of an identifier. -/
def ofCallReport (r : CallReport) : Json := .object [
  ("total", .ofNat r.total),
  ("sites", .array (r.sites.map fun s =>
    .object (useFields s.site ++ [("scores", ofScores s.scores)])))]

/-- The uses of an identifier that a value stands for. -/
def callReport (j : Json) : CallReport :=
  ⟨(items j "sites").map fun s => ⟨use s, scores s⟩, natural j "total" 0⟩

/-- An identifier that was found. -/
def ofIdentifierHit (h : IdentifierHit) : Json := .object [
  ("id", .text h.identifier.id), ("scores", ofScores h.scores),
  ("calls", ofOption ofCallReport h.calls)]

/-- The found identifier that a value stands for. -/
def identifierHit (j : Json) : IdentifierHit :=
  ⟨identifier (field j "identifier"), scores j, (field? j "calls").map callReport⟩

/-! ## Clusters -/

/-- A cluster that waits for its name. -/
def siblingGroup (j : Json) : Navigator.SiblingGroup :=
  ⟨text? j "pattern", texts j "files"⟩

/-- The shape of a tree. -/
def shape (j : Json) : Navigator.Shape :=
  ⟨natural j "max_depth" 0, natural j "max_clusters" 0, natural j "leaf_size" 0⟩

/-- A node of a tree of clusters. -/
def ofClusterNode (n : ClusterNode) : Json := .object [
  ("label", .text n.label), ("path_pattern", .ofText? n.pattern), ("files", ofTexts n.files),
  ("children", .array (n.children.map .ofNat)), ("parent", ofOption .ofNat n.parent),
  ("depth", .ofNat n.depth)]

/-- The nodes of a tree of clusters. -/
def ofClusterTree (t : ClusterTree) : Json :=
  .object [("nodes", .array (t.nodes.toList.map ofClusterNode))]

/-- A tree of clusters in short. -/
def ofClusterSummary (t : ClusterTree) : Json := .object [
  ("len", .ofNat t.size), ("empty", .bool (t.size == 0)), ("max_depth", .ofNat t.maxDepth),
  ("all_files", ofTexts t.allFiles), ("leaves", ofTexts (t.leaves.map (·.label))),
  ("root_is_leaf", .bool (((t.node? 0).map ClusterNode.isLeaf).getD true)),
  ("file_count", .array ((List.range t.size).map fun i => .ofNat (t.fileCount i)))]

end CodeAtlas.Exchange
