import CodeAtlas.Service.Basic

/-!
# Searching

What the service answers when files, identifiers or call sites are searched for. A report says that
a search is unavailable when the provider fails; only a question that makes no sense is an error.
-/

namespace CodeAtlas

open CodeAtlas.Text

/-- A search for files. -/
structure FileRequest where
  /-- what is searched for -/
  query : String
  /-- where -/
  scope : Option String
  /-- how hits are ranked -/
  options : RankOptions

/-- A search for identifiers. -/
structure IdentifierRequest where
  /-- what is searched for -/
  query : String
  /-- where -/
  scope : Option String
  /-- of which kinds; none stands for all -/
  kinds : List SymbolKind
  /-- how hits are ranked -/
  options : RankOptions
  /-- how many call sites are looked for for each hit -/
  calls : Nat

/-- A search for call sites. -/
structure CallRequest where
  /-- the name of the identifier -/
  name : String
  /-- where the identifier is declared -/
  scope : Option String
  /-- what the call sites are ranked by, in place of the identifier -/
  query : Option String
  /-- how many are wanted -/
  limit : Nat

namespace Service

variable {σ ℓ : Type}

/-- Whether a text has nothing but blanks. -/
def isBlankText (s : String) : Bool :=
  s.toList.all Unicode.isBlank

/-- The files that answer a query. -/
def fileHits (service : Service σ ℓ) (r : FileRequest) : Answer σ ℓ (List FileHit) := do
  let index ← service.fileIndex
  let vector ← service.embedQuery r.query
  return searchFiles index (Query.ofText r.query) vector r.scope r.options
    service.settings.keywordWeights

/-- The report of a search for files. -/
def search (service : Service σ ℓ) (r : FileRequest) : Answer σ ℓ String :=
  if isBlankText r.query then throw .emptyQuery
  else orUnavailable "Search" (fun hits => Report.files r.query hits r.options) (service.fileHits r)

/-- The ranked uses of an identifier. -/
def rankedUses (service : Service σ ℓ) (index : IdentifierIndex) (target : Identifier) (q : Query)
    (vector : Embedding) (limit : Nat) : Answer σ ℓ CallReport :=
  working (service.indexer.rankCalls index target q vector limit
    (service.settings.callOptions limit)
    service.settings.keywordWeights)

/-- Hits with their call sites. -/
def withCalls (service : Service σ ℓ) (index : IdentifierIndex) (q : Query) (vector : Embedding)
    (limit : Nat) : List IdentifierHit → Answer σ ℓ (List IdentifierHit)
  | [] => return []
  | hit :: hits => do
    let calls ← service.rankedUses index hit.identifier q vector limit
    let rest ← service.withCalls index q vector limit hits
    return { hit with calls := some calls } :: rest

/-- The identifiers that answer a query. -/
def identifierHits (service : Service σ ℓ) (r : IdentifierRequest) :
    Answer σ ℓ (List IdentifierHit) := do
  let index ← service.identifierIndex
  let vector ← service.embedQuery r.query
  let q := Query.ofText r.query
  let hits := searchIdentifiers index q vector r.scope r.kinds r.options
    service.settings.keywordWeights
  if r.calls = 0 then return hits
  service.withCalls index q vector r.calls hits

/-- The report of a search for identifiers. -/
def searchIdentifiers (service : Service σ ℓ) (r : IdentifierRequest) : Answer σ ℓ String :=
  if isBlankText r.query then throw .emptyQuery
  else orUnavailable "Identifier search" (fun hits => Report.identifiers r.query hits r.options)
    (service.identifierHits r)

/-- What the call sites of an identifier are ranked by. -/
def callQuery (r : CallRequest) (target : Identifier) : String :=
  match r.query with
  | some query =>
    if isBlankText query then s!"{target.entry.name} {target.entry.signature}" else query
  | none => s!"{target.entry.name} {target.entry.signature}"

/-- The call sites of the identifier of a name. -/
def callReport (service : Service σ ℓ) (r : CallRequest) : Answer σ ℓ CallReport := do
  let name := trim r.name
  if name = "" then throw .emptyName
  let index ← service.identifierIndex
  match resolveIdentifier? index name r.scope with
  | none => throw (.unknownIdentifier name r.scope)
  | some target =>
    let query := callQuery r target
    let vector ← service.embedQuery query
    service.rankedUses index target (Query.ofText query) vector r.limit

/-- The report of a search for the call sites of an identifier that is declared at `location`. -/
def locatedReport (service : Service σ ℓ) (r : CallRequest) (location : Option String) :
    Answer σ ℓ String := fun s =>
  let name := trim r.name
  match service.callReport r s with
  | .ok report s => .ok (Report.callSites name (location.getD "?") report) s
  | .error e s =>
    if location.isNone || name = "" then .error e s
    else .ok (Report.unavailable "Call-site search" e.message) s

/-- The report of a search for call sites. -/
def findCallSites (service : Service σ ℓ) (r : CallRequest) : Answer σ ℓ String := fun s =>
  match service.identifierIndex s with
  | .error e s => .ok (Report.unavailable "Call-site search" e.message) s
  | .ok index s =>
    let location := (resolveIdentifier? index (trim r.name) r.scope).map fun i =>
      s!"{i.path}:{i.entry.line}"
    service.locatedReport r location s

end Service

end CodeAtlas
