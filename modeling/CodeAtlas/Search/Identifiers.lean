import CodeAtlas.Index.Basic
import CodeAtlas.Search.CallSites
import CodeAtlas.Search.Query
import CodeAtlas.Search.Rank
import CodeAtlas.Search.Scope

/-!
# Searching identifiers
-/

namespace CodeAtlas

/-- An identifier that was found. -/
structure IdentifierHit where
  /-- the identifier -/
  identifier : Identifier
  /-- its scores -/
  scores : Scores
  /-- its uses, if they were looked for -/
  calls : Option CallReport

/-- The keyword score of an identifier, in which its name and that of its owner count extra. -/
def Identifier.keywordScore (i : Identifier) (q : Query) (weights : KeywordWeights) : Float32 :=
  q.blendedScore i.keywordText (i.entry.name :: i.owner.toList) weights

/-- The identifiers in scope and of the given kinds that answer a query, the best first. No kind at
all stands for every kind. -/
def searchIdentifiers (index : IdentifierIndex) (q : Query) (vector : Embedding)
    (scope : Option String) (kinds : List SymbolKind) (o : RankOptions) (weights : KeywordWeights) :
    List IdentifierHit :=
  let candidates :=
    (index.identifiers.zip index.vectors).zipIdx.filterMap fun ((identifier, v), i) =>
    if inScope identifier.path scope && (kinds.isEmpty || kinds.contains identifier.entry.kind) then
      some ⟨i, cosine vector v, identifier.keywordScore q weights⟩
    else none
  (rank o candidates).filterMap fun r => index.identifiers[r.position]?.map fun identifier =>
    ⟨identifier, r.scores, none⟩

/-- Whether one of two identifiers of the same name is rather meant than the other: what can be
called comes first, then the path, then the line. -/
def Identifier.preference (a b : Identifier) : Ordering :=
  (compare b.entry.kind.isCallable a.entry.kind.isCallable).then <|
    (compare a.path b.path).then (compare a.entry.line b.entry.line)

/-- The first of the best identifiers. -/
def bestIdentifier? : List Identifier → Option Identifier
  | [] => none
  | i :: rest =>
    some (rest.foldl (fun best j => if (Identifier.preference j best).isLT then j else best) i)

/-- The identifier in scope that a bare name refers to. -/
def resolveIdentifier? (index : IdentifierIndex) (name : String) (scope : Option String) :
    Option Identifier :=
  let named := (index.positions name).filterMap fun i => index.identifiers[i]?
  bestIdentifier? (named.filter fun i => inScope i.path scope)

end CodeAtlas
