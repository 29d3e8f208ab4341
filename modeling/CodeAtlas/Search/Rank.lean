import CodeAtlas.Embedding.Basic
import CodeAtlas.Settings.Basic

/-!
# Ranking

A candidate has a semantic score, the similarity of its vector with that of the query, and a keyword
score. Both are combined by weights, candidates below a threshold are dropped, and the rest is put
in order: by combined, keyword and semantic score, the greatest first, and then by position.

* `Scores.combine` — the scores of a candidate.
* `RankOptions.admits` — whether a candidate is kept.
* `rank` — the candidates that are kept, in order, at most as many as asked for. It says at which
  positions they stand; whoever asked looks them up there.
-/

namespace CodeAtlas

/-! ## Numbers -/

/-- A threshold, written as a fraction or as a percentage. What is not finite sets no threshold. -/
def normalizeThreshold (x : Float32) : Float32 :=
  if !x.isFinite then 0
  else clampTo 0 1 (if 1 < x then x / 100 else x)

/-- A score as a percentage with one decimal place. -/
def percent (score : Float32) : Float32 :=
  (score * 1000).round / 10

/-- The number, or zero if it is less or no number. -/
def atLeastZero (x : Float32) : Float32 :=
  if 0 < x then x else 0

/-- The place of a single in the total order of all of them: minus zero comes before zero, and what
is not a number comes last. -/
def orderKey (x : Float32) : Int :=
  let bits := x.toBits.toNat
  if bits < UInt32.size / 2 then bits else -(bits - UInt32.size / 2 : Nat) - 1

/-! ## Scores -/

/-- What candidates are ranked by. -/
structure RankOptions where
  /-- the weight of the semantic score -/
  semanticWeight : Float32
  /-- the weight of the keyword score -/
  keywordWeight : Float32
  /-- the least semantic score -/
  minSemantic : Float32
  /-- the least keyword score -/
  minKeyword : Float32
  /-- the least combined score -/
  minCombined : Float32
  /-- whether the keyword score must be positive -/
  requireKeyword : Bool
  /-- whether the semantic score must be positive -/
  requireSemantic : Bool
  /-- how many candidates are asked for -/
  topK : Nat

namespace RankOptions

/-- The options with the given weights that drop nothing. -/
def weighing (semanticWeight keywordWeight : Float32) (topK : Nat) : RankOptions :=
  ⟨semanticWeight, keywordWeight, 0, 0, 0, false, false, topK⟩

/-- The options when nothing else is said. -/
def standard : RankOptions := weighing 0.75 0.25 10

end RankOptions

/-- The options for searches that settings give. -/
def Settings.rankOptions (s : Settings) : RankOptions :=
  .weighing s.semanticWeight s.keywordWeight 10

/-- The options for call sites that settings give. -/
def Settings.callOptions (s : Settings) (limit : Nat) : RankOptions :=
  .weighing s.callSemanticWeight s.callKeywordWeight limit

/-- The scores of a candidate. -/
structure Scores where
  /-- the similarity, or zero if it is negative -/
  semantic : Float32
  /-- the similarity -/
  rawSemantic : Float32
  /-- the keyword score -/
  keyword : Float32
  /-- both combined -/
  combined : Float32

/-- The scores of a candidate: the weighed mean of both, or the semantic score alone when no weight
is positive. -/
def Scores.combine (rawSemantic keyword semanticWeight keywordWeight : Float32) : Scores :=
  let semantic := atLeastZero rawSemantic
  let sw := atLeastZero semanticWeight
  let kw := atLeastZero keywordWeight
  let total := sw + kw
  let combined := if 0 < total then (sw * semantic + kw * keyword) / total else semantic
  ⟨semantic, rawSemantic, keyword, combined⟩

/-- Whether a candidate with these scores is kept. -/
def RankOptions.admits (o : RankOptions) (s : Scores) : Bool :=
  normalizeThreshold o.minSemantic ≤ s.semantic &&
    normalizeThreshold o.minKeyword ≤ s.keyword &&
    normalizeThreshold o.minCombined ≤ s.combined &&
    (!o.requireKeyword || 0 < s.keyword) &&
    (!o.requireSemantic || 0 < s.semantic)

/-! ## Order -/

/-- A candidate: its position, its similarity and its keyword score. -/
structure Candidate where
  /-- where it stands in the index -/
  position : Nat
  /-- its similarity with the query -/
  similarity : Float32
  /-- its keyword score -/
  keyword : Float32

/-- The position of a candidate with its scores. -/
structure Ranked where
  /-- where it stands in the index -/
  position : Nat
  /-- its scores -/
  scores : Scores

namespace Ranked

/-- The candidate with its scores. -/
def ofCandidate (o : RankOptions) (c : Candidate) : Ranked :=
  ⟨c.position, .combine c.similarity c.keyword o.semanticWeight o.keywordWeight⟩

/-- Compares two candidates: the greater combined score comes first, then the greater keyword score,
then the greater semantic score, then the earlier position. -/
def order (a b : Ranked) : Ordering :=
  (compare (orderKey b.scores.combined) (orderKey a.scores.combined)).then <|
    (compare (orderKey b.scores.keyword) (orderKey a.scores.keyword)).then <|
      (compare (orderKey b.scores.semantic) (orderKey a.scores.semantic)).then <|
        compare a.position b.position

end Ranked

/-- The candidates that are kept, in order. At least one is given if there is any. -/
def rank (o : RankOptions) (candidates : List Candidate) : List Ranked :=
  let kept := (candidates.map (Ranked.ofCandidate o)).filter fun r => o.admits r.scores
  (kept.mergeSort fun a b => (Ranked.order a b).isLE).take (max o.topK 1)

end CodeAtlas
