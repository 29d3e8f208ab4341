import CodeAtlas.Index.Basic
import CodeAtlas.Search.Query
import CodeAtlas.Search.Rank
import CodeAtlas.Search.Scope

/-!
# Searching files
-/

namespace CodeAtlas

open CodeAtlas.Text

/-- A file that was found. -/
structure FileHit where
  /-- its path -/
  path : String
  /-- its header -/
  header : String
  /-- those of its symbols whose names have a token of the query -/
  matched : List SymbolEntry
  /-- its scores -/
  scores : Scores

/-- The symbols whose names have a token of the query. -/
def Query.matchedSymbols (q : Query) (entries : List SymbolEntry) : List SymbolEntry :=
  entries.filter fun entry => (tokenSet entry.name).any fun token => q.tokens.contains token

/-- The files in scope that answer a query, the best first. -/
def searchFiles (index : FileIndex) (q : Query) (vector : Embedding) (scope : Option String)
    (o : RankOptions) (weights : KeywordWeights) : List FileHit :=
  let candidates := (index.documents.zip index.vectors).zipIdx.filterMap fun ((document, v), i) =>
    if inScope document.path scope then
      some ⟨i, cosine vector v, q.score document.keywordText weights⟩
    else none
  (rank o candidates).filterMap fun r => index.documents[r.position]?.map fun document =>
    ⟨document.path, document.header, q.matchedSymbols document.entries, r.scores⟩

end CodeAtlas
