import CodeAtlas.Embedding.Basic
import CodeAtlas.Settings.Basic
import CodeAtlas.Text.Identifier

/-!
# Queries and keywords

A query is compared with a text by its tokens and as a phrase. The share of the query's tokens that
occur in the text is its *coverage*; a text that contains the whole query gets a bonus on top.

* `Query.score` — the keyword score of a text.
* `Query.blendedScore` — the keyword score of a symbol, in which its names count extra.
-/

namespace CodeAtlas

open CodeAtlas.Text

/-- The weights of a keyword score. -/
structure KeywordWeights where
  /-- the weight of coverage -/
  coverage : Float32
  /-- the weight of the coverage by symbol names -/
  symbol : Float32
  /-- the bonus for the whole phrase -/
  phrase : Float32

/-- The weights when nothing else is said. -/
def KeywordWeights.standard : KeywordWeights := ⟨0.65, 0.20, 0.15⟩

/-- The weights that settings give. -/
def Settings.keywordWeights (s : Settings) : KeywordWeights :=
  ⟨s.coverageWeight, s.symbolWeight, s.phraseBoost⟩

/-- A query, split once for many comparisons. -/
structure Query where
  /-- its tokens -/
  tokens : TokenSet
  /-- the whole query in lower case, with single spaces -/
  phrase : String

namespace Query

/-- The query of a text. -/
def ofText (text : String) : Query :=
  ⟨tokenSet text, collapse text⟩

/-- How many tokens of the query are among others. -/
def hits (q : Query) (tokens : TokenSet) : Nat :=
  (q.tokens.toList.filter tokens.contains).length

/-- The share of the query's tokens that are among others. -/
def coverage (q : Query) (tokens : TokenSet) : Float32 :=
  if q.tokens.isEmpty then 0
  else Float32.ofNat (q.hits tokens) / Float32.ofNat q.tokens.size

/-- Whether a text contains the whole query. -/
def phraseIn (q : Query) (text : String) : Bool :=
  q.phrase ≠ "" && occursIn q.phrase.toList (collapse text).toList

/-- The keyword score of a text: coverage, and the bonus for the whole phrase. -/
def score (q : Query) (text : String) (weights : KeywordWeights) : Float32 :=
  let covered := q.coverage (tokenSet text)
  clampTo 0 1 (if q.phraseIn text then covered + weights.phrase else covered)

/-- The keyword score of a symbol: the coverage by its text, by its names, and the bonus, weighed.
-/
def blendedScore (q : Query) (text : String) (names : List String) (weights : KeywordWeights) :
    Float32 :=
  let general := q.coverage (tokenSet text)
  let symbol := q.coverage (Std.TreeSet.ofList (names.flatMap Text.tokens))
  let phrase : Float32 := if q.phraseIn text then 1 else 0
  clampTo 0 1 (weights.coverage * general + weights.symbol * symbol + weights.phrase * phrase)

end Query

end CodeAtlas
