import CodeAtlas.Index.Build
import CodeAtlas.Search.Occurrence
import CodeAtlas.Search.Query
import CodeAtlas.Search.Rank

/-!
# Call sites

The uses of an identifier are looked for in the sources of all code files, line by line. They are
ranked in two stages: by keywords alone, which is cheap, and then, for those that survive, by their
vectors too.

* `usesOf` — every use, by path and line.
* `prefilter` — the uses that survive the first stage, with their keyword scores.
* `rankUses` — the best of those that have a vector.
* `Indexer.rankCalls` — both stages, and the vectors in between.
-/

namespace CodeAtlas

open CodeAtlas.Text

/-- A line on which an identifier is used. -/
structure Use where
  /-- the path of the file -/
  path : String
  /-- the line, counted from one -/
  line : Nat
  /-- the text of the line, without outer blanks -/
  text : String
  /-- the line with its neighbours -/
  snippet : String
  deriving DecidableEq, Inhabited

namespace Use

/-- The text that stands for the use in an embedding. -/
def embeddingText (u : Use) : String :=
  s!"{u.path}:{u.line}\n{u.snippet}"

/-- The text that is searched for words. -/
def keywordText (u : Use) : String :=
  s!"{u.path} {u.snippet}"

end Use

/-- A use with its scores. -/
structure CallSite where
  /-- the use -/
  site : Use
  /-- its scores -/
  scores : Scores

/-- The best uses of an identifier, and how many there are in all. -/
structure CallReport where
  /-- the best uses -/
  sites : List CallSite
  /-- how many uses there are -/
  total : Nat

/-! ## Finding uses -/

/-- The lines of a file with their numbers and their neighbours, the line before and the line after.
-/
def neighbours : Nat → Option String → List String →
    List (Nat × Option String × String × Option String)
  | _, _, [] => []
  | number, before, line :: rest =>
    (number, before, line, rest.head?) :: neighbours (number + 1) (some line) rest

/-- The uses of an identifier in one file. Its own line and lines that declare something are no
uses. -/
def usesIn (target : Identifier) (path source : String) : List Use :=
  (neighbours 1 none (lines source)).filterMap fun (number, before, line, after) =>
    if !mentions target.entry.name target.entry.kind line then none
    else if (path = target.path && number = target.entry.line) || isDefinition line then none
    else
      let near := before.toList ++ line :: after.toList
      some ⟨path, number, trim line, "\n".intercalate (near.map trimEnd)⟩

/-- The uses of an identifier in all files. -/
def usesOf (index : IdentifierIndex) (target : Identifier) : List Use :=
  index.sources.toList.flatMap fun (path, source) => usesIn target path source

/-! ## First stage -/

/-- How many uses survive the first stage at least. -/
def minSurvivors : Nat := 30

/-- How many uses survive for each one asked for. -/
def survivorsPerSite : Nat := 4

/-- How many uses survive when `limit` are asked for. -/
def survivorCount (limit : Nat) : Nat :=
  max minSurvivors (min (limit * survivorsPerSite) (UInt64.size - 1))

/-- Compares uses with their keyword scores: the greater score comes first, then the path, then the
line. -/
def prefilterOrder (a b : Use × Float32) : Ordering :=
  (compare (orderKey b.2) (orderKey a.2)).then <|
    (compare a.1.path b.1.path).then (compare a.1.line b.1.line)

/-- The best `keep` uses by keywords. -/
def prefilter (uses : List Use) (q : Query) (weights : KeywordWeights) (keep : Nat) :
    List (Use × Float32) :=
  let scored := uses.map fun u => (u, q.score u.keywordText weights)
  (scored.mergeSort fun a b => (prefilterOrder a b).isLE).take keep

/-! ## Second stage -/

/-- The best `limit` uses among those that have a vector. -/
def rankUses (survivors : List (Use × Float32)) (vectors : List (Option Embedding))
    (vector : Embedding) (limit : Nat) (o : RankOptions) : List CallSite :=
  let candidates := (survivors.zip vectors).zipIdx.filterMap fun (((_, keyword), v?), i) =>
    v?.map fun v => (⟨i, cosine vector v, keyword⟩ : Candidate)
  (rank { o with topK := limit } candidates).filterMap fun r =>
    survivors[r.position]?.map fun (use, _) => ⟨use, r.scores⟩

/-- What is sent for a use: its path, its line, and the text that stands for it. -/
def Use.request (u : Use) : String × Nat × String :=
  (u.path, u.line, u.embeddingText)

/-- The ranked uses of an identifier. Nothing is embedded when none is asked for. -/
def Indexer.rankCalls {σ : Type} (ix : Indexer σ) (index : IdentifierIndex) (target : Identifier)
    (q : Query) (vector : Embedding) (limit : Nat) (o : RankOptions) (weights : KeywordWeights) :
    Work σ EmbedError CallReport := do
  let uses := usesOf index target
  if limit = 0 || uses.isEmpty then return ⟨[], uses.length⟩
  let survivors := prefilter uses q weights (survivorCount limit)
  let vectors ← ix.embedUses (survivors.map fun (use, _) => use.request)
  return ⟨rankUses survivors vectors vector limit o, uses.length⟩

end CodeAtlas
