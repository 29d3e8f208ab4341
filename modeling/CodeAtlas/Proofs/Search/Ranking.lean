import CodeAtlas.Proofs.Path.Names
import CodeAtlas.Proofs.Search.Singles
import CodeAtlas.Search.Files
import CodeAtlas.Search.Identifiers

/-!
# Searches are exact

Setup: what a search may find is said without any list (`FileIndex.Eligible`,
`IdentifierIndex.Eligible`): something of the index, in scope and of an allowed kind, with the
scores that its vector and its texts have, when these pass all thresholds. The positions of the
eligible ones have exactly one **ranking** (`IsRanking`), because no two of them are the same.

A search ranks positions and looks up afterwards what stands there (`lookUp`). The look-up finds
what the scores were made of (`mem_candidatesOf`, `forall₂_lookUp`).

**`search_eq_take_ranking`** is the main result: a search answers with what stands at the first
positions of the ranking, as many as were asked for and at least one, so asking for more only makes
the answer longer.
-/

namespace CodeAtlas

open CodeAtlas.Path

variable {α β : Type}

/-! ## The ranking -/

namespace Ranked

/-- The candidate `a` stands before `b` in a ranking. -/
inductive Before (a b : Ranked) : Prop where
  /-- its combined score is greater -/
  | combined (h : Precedes b.scores.combined a.scores.combined)
  /-- its keyword score is greater -/
  | keyword (hcombined : a.scores.combined = b.scores.combined)
      (h : Precedes b.scores.keyword a.scores.keyword)
  /-- its semantic score is greater -/
  | semantic (hcombined : a.scores.combined = b.scores.combined)
      (hkeyword : a.scores.keyword = b.scores.keyword)
      (h : Precedes b.scores.semantic a.scores.semantic)
  /-- all its scores are the same, and it comes first in the index -/
  | position (hcombined : a.scores.combined = b.scores.combined)
      (hkeyword : a.scores.keyword = b.scores.keyword)
      (hsemantic : a.scores.semantic = b.scores.semantic) (h : a.position < b.position)

variable {a b c : Ranked}

theorem compare_orderKey_eq_eq {x y : Float32} :
    compare (orderKey x) (orderKey y) = .eq ↔ y = x := by
  rw [compare_eq_iff_eq]
  exact ⟨fun h => (orderKey_inj h).symm, fun h => congrArg orderKey h.symm⟩

/-- The comparison of candidates says which stands before the other. -/
theorem order_eq_lt_iff : order a b = .lt ↔ Before a b := by
  simp only [order, Ordering.then_eq_lt, compare_orderKey_eq_eq, compare_lt_iff_lt, orderKey_lt_iff]
  constructor
  · rintro (h | ⟨hc, h | ⟨hk, h | ⟨hs, h⟩⟩⟩)
    · exact .combined h
    · exact .keyword hc h
    · exact .semantic hc hk h
    · exact .position hc hk hs h
  · rintro (h | ⟨hc, h⟩ | ⟨hc, hk, h⟩ | ⟨hc, hk, hs, h⟩)
    · exact .inl h
    · exact .inr ⟨hc, .inl h⟩
    · exact .inr ⟨hc, .inr ⟨hk, .inl h⟩⟩
    · exact .inr ⟨hc, .inr ⟨hk, .inr ⟨hs, h⟩⟩⟩

/-- The order of candidates as one of numbers, compared one after the other. -/
theorem order_isLE_iff : (order a b).isLE = true ↔
    orderKey b.scores.combined < orderKey a.scores.combined ∨
    orderKey b.scores.combined = orderKey a.scores.combined ∧
      (orderKey b.scores.keyword < orderKey a.scores.keyword ∨
      orderKey b.scores.keyword = orderKey a.scores.keyword ∧
        (orderKey b.scores.semantic < orderKey a.scores.semantic ∨
        orderKey b.scores.semantic = orderKey a.scores.semantic ∧ a.position ≤ b.position)) := by
  simp only [order, Ordering.isLE_then_iff_or, compare_lt_iff_lt, compare_eq_iff_eq,
    Nat.isLE_compare]

theorem order_trans (h : (order a b).isLE = true) (h' : (order b c).isLE = true) :
    (order a c).isLE = true := by
  rw [order_isLE_iff] at h h' ⊢
  omega

theorem order_total (a b : Ranked) : ((order a b).isLE || (order b a).isLE) = true := by
  rw [Bool.or_eq_true, order_isLE_iff, order_isLE_iff]
  omega

/-- Of two candidates with different positions one stands before the other. -/
theorem before_of_isLE (h : (order a b).isLE = true) (hne : a.position ≠ b.position) :
    Before a b := by
  rcases Ordering.isLE_iff_eq_lt_or_eq_eq.mp h with hlt | heq
  · exact order_eq_lt_iff.mp hlt
  · simp only [order, Ordering.then_eq_eq, compare_eq_iff_eq] at heq
    exact absurd heq.2.2.2 hne

/-- Nothing stands before itself, and of two candidates only one stands before the other. -/
theorem Before.asymm (h : Before a b) (h' : Before b a) : False := by
  rw [← order_eq_lt_iff] at h h'
  have hle := order_isLE_iff.mp (Ordering.isLE_of_eq_lt h)
  have hle' := order_isLE_iff.mp (Ordering.isLE_of_eq_lt h')
  simp only [order, Ordering.then_eq_lt, compare_lt_iff_lt, compare_eq_iff_eq] at h h'
  omega

end Ranked

/-- A ranking of the candidates with the property `P`. -/
structure IsRanking (P : Ranked → Prop) (ranking : List Ranked) : Prop where
  /-- each stands before those that follow -/
  sorted : ranking.Pairwise Ranked.Before
  /-- all of them are listed, and no others -/
  mem_iff : ∀ r, r ∈ ranking ↔ P r

/-- There is at most one ranking. -/
theorem IsRanking.unique {P : Ranked → Prop} {ranking ranking' : List Ranked}
    (h : IsRanking P ranking) (h' : IsRanking P ranking') : ranking = ranking' := by
  have hnodup {l : List Ranked} (hl : l.Pairwise Ranked.Before) : l.Nodup :=
    hl.imp fun hbefore heq => (heq ▸ hbefore).asymm (heq ▸ hbefore)
  have hperm : ranking.Perm ranking' :=
    (List.perm_ext_iff_of_nodup (hnodup h.sorted) (hnodup h'.sorted)).mpr fun r =>
      (h.mem_iff r).trans (h'.mem_iff r).symm
  exact hperm.eq_of_pairwise (fun _ _ _ _ hab hba => (hab.asymm hba).elim) h.sorted h'.sorted

/-- A ranking is the only one. -/
theorem IsRanking.eq_iff {P : Ranked → Prop} {ranking other : List Ranked}
    (h : IsRanking P ranking) : IsRanking P other ↔ other = ranking :=
  ⟨fun hother => hother.unique h, fun heq => heq ▸ h⟩

/-! ## Thresholds -/

/-- The scores pass all thresholds and requirements. -/
structure RankOptions.Passes (o : RankOptions) (s : Scores) : Prop where
  /-- the semantic score is not below the least one -/
  semantic : normalizeThreshold o.minSemantic ≤ s.semantic
  /-- the keyword score is not below the least one -/
  keyword : normalizeThreshold o.minKeyword ≤ s.keyword
  /-- the combined score is not below the least one -/
  combined : normalizeThreshold o.minCombined ≤ s.combined
  /-- the keyword score is positive if it must be -/
  keywordPositive : o.requireKeyword = true → 0 < s.keyword
  /-- the semantic score is positive if it must be -/
  semanticPositive : o.requireSemantic = true → 0 < s.semantic

namespace RankOptions

variable {o : RankOptions} {s : Scores}

theorem admits_iff : o.admits s = true ↔ o.Passes s := by
  simp only [admits, Bool.and_eq_true, Bool.or_eq_true, Bool.not_eq_true', decide_eq_true_eq,
    and_assoc]
  constructor
  · rintro ⟨hs, hk, hc, hkeyword, hsemantic⟩
    exact ⟨hs, hk, hc, fun h => hkeyword.resolve_left (by simp [h]),
      fun h => hsemantic.resolve_left (by simp [h])⟩
  · rintro ⟨hs, hk, hc, hkeyword, hsemantic⟩
    exact ⟨hs, hk, hc, Bool.eq_false_or_eq_true o.requireKeyword |>.symm.imp_right hkeyword,
      Bool.eq_false_or_eq_true o.requireSemantic |>.symm.imp_right hsemantic⟩

/-- **What passes has numbers for scores**, so it does not matter where a ranking has what is no
number. -/
theorem Passes.isNaN_eq_false (h : o.Passes s) :
    s.semantic.isNaN = false ∧ s.keyword.isNaN = false ∧ s.combined.isNaN = false :=
  ⟨(isNaN_of_le h.semantic).2, (isNaN_of_le h.keyword).2, (isNaN_of_le h.combined).2⟩

end RankOptions

/-! ## What `rank` gives -/

/-- The candidates that are kept, in order. -/
def ranking (o : RankOptions) (candidates : List Candidate) : List Ranked :=
  ((candidates.map (Ranked.ofCandidate o)).filter fun r => o.admits r.scores).mergeSort
    fun a b => (Ranked.order a b).isLE

section Positions

variable (o : RankOptions) {candidates : List Candidate}
  (hpositions : candidates.Pairwise fun c d => c.position ≠ d.position)
include hpositions

theorem pairwise_position_ranking :
    (ranking o candidates).Pairwise fun a b => a.position ≠ b.position := by
  have hmapped : (candidates.map (Ranked.ofCandidate o)).Pairwise
      fun a b => a.position ≠ b.position := List.pairwise_map.mpr hpositions
  exact (hmapped.filter _).perm (List.mergeSort_perm _ _).symm Ne.symm

/-- Candidates with different positions are ranked. -/
theorem isRanking_ranking :
    IsRanking (fun r => ∃ c ∈ candidates, r = .ofCandidate o c ∧ o.Passes r.scores)
      (ranking o candidates) where
  sorted := by
    have hsorted : (ranking o candidates).Pairwise fun a b => (Ranked.order a b).isLE = true := by
      rw [ranking]
      apply List.pairwise_mergeSort
      · exact fun _ _ _ => Ranked.order_trans
      · exact Ranked.order_total
    exact (hsorted.and (pairwise_position_ranking o hpositions)).imp
      fun ⟨hle, hne⟩ => Ranked.before_of_isLE hle hne
  mem_iff r := by
    rw [ranking, List.mem_mergeSort, List.mem_filter, List.mem_map, RankOptions.admits_iff]
    constructor
    · rintro ⟨⟨c, hc, rfl⟩, hpasses⟩
      exact ⟨c, hc, rfl, hpasses⟩
    · rintro ⟨c, hc, rfl, hpasses⟩
      exact ⟨⟨c, hc, rfl⟩, hpasses⟩

end Positions

/-! ## Candidates -/

/-- No two candidates that are picked from a list, each with its own position, share one. -/
theorem pairwise_position_ne {xs : List α} {pick : α × Nat → Option Candidate}
    (hpick : ∀ x c, pick x = some c → c.position = x.2) :
    (xs.zipIdx.filterMap pick).Pairwise fun c d => c.position ≠ d.position := by
  have hpositions : xs.zipIdx.Pairwise fun a b => a.2 ≠ b.2 := by
    have hnodup : (xs.zipIdx.map Prod.snd).Nodup := by
      rw [List.zipIdx_map_snd]
      exact List.nodup_range'
    exact List.pairwise_map.mp hnodup
  refine List.pairwise_filterMap.mpr (hpositions.imp fun hne c hc d hd => ?_)
  rwa [hpick _ _ hc, hpick _ _ hd]

/-- The candidates among the items of an index, with their positions in it. -/
def candidatesOf (items : List α) (vectors : List Embedding) (allowed : α → Bool)
    (keyword : α → Float32) (vector : Embedding) : List Candidate :=
  (items.zip vectors).zipIdx.filterMap fun ((item, v), i) =>
    if allowed item then some ⟨i, cosine vector v, keyword item⟩ else none

section Candidates

variable {items : List α} {vectors : List Embedding} {allowed : α → Bool} {keyword : α → Float32}
  {vector : Embedding}

/-- **At the position of a candidate stands the item that its scores were made of**, and at the same
position its vector. -/
theorem mem_candidatesOf {c : Candidate} :
    c ∈ candidatesOf items vectors allowed keyword vector ↔
      ∃ item v, items[c.position]? = some item ∧ vectors[c.position]? = some v ∧
        allowed item = true ∧ c.similarity = cosine vector v ∧ c.keyword = keyword item := by
  simp only [candidatesOf, List.mem_filterMap, Prod.exists, List.mk_mem_zipIdx_iff_getElem?,
    Option.ite_none_right_eq_some, Option.some.injEq, List.getElem?_zip_eq_some]
  constructor
  · rintro ⟨item, v, i, ⟨hitem, hv⟩, hallowed, rfl⟩
    exact ⟨item, v, hitem, hv, hallowed, rfl, rfl⟩
  · rintro ⟨item, v, hitem, hv, hallowed, hsimilarity, hkeyword⟩
    refine ⟨item, v, c.position, ⟨hitem, hv⟩, hallowed, ?_⟩
    rw [← hsimilarity, ← hkeyword]

variable (items vectors allowed keyword vector) in
/-- The positions of the allowed items whose scores pass are ranked. -/
theorem isRanking_candidatesOf (o : RankOptions) :
    IsRanking (fun r => ∃ item v, items[r.position]? = some item ∧
        vectors[r.position]? = some v ∧ allowed item = true ∧
        r.scores = .combine (cosine vector v) (keyword item) o.semanticWeight o.keywordWeight ∧
        o.Passes r.scores)
      (ranking o (candidatesOf items vectors allowed keyword vector)) := by
  have hpositions : (candidatesOf items vectors allowed keyword vector).Pairwise
      fun c d => c.position ≠ d.position := by
    refine pairwise_position_ne fun x c hc => ?_
    obtain ⟨-, hc⟩ := Option.ite_none_right_eq_some.mp hc
    rw [← Option.some.inj hc]
  have hranking := isRanking_ranking o hpositions
  refine ⟨hranking.sorted, fun r => ?_⟩
  rw [hranking.mem_iff]
  constructor
  · rintro ⟨c, hc, rfl, hpasses⟩
    obtain ⟨item, v, hitem, hv, hallowed, hsimilarity, hkeyword⟩ := mem_candidatesOf.mp hc
    refine ⟨item, v, hitem, hv, hallowed, ?_, hpasses⟩
    rw [Ranked.ofCandidate, hsimilarity, hkeyword]
  · rintro ⟨item, v, hitem, hv, hallowed, hscores, hpasses⟩
    refine ⟨⟨r.position, cosine vector v, keyword item⟩,
      mem_candidatesOf.mpr ⟨item, v, hitem, hv, hallowed, rfl, rfl⟩, ?_, hpasses⟩
    rw [Ranked.ofCandidate, ← hscores]

end Candidates

/-! ## Looking up -/

/-- What stands at the ranked positions, with the scores. -/
def lookUp (items : List α) (hit : α → Ranked → β) (ranked : List Ranked) : List β :=
  ranked.filterMap fun r => items[r.position]?.map fun item => hit item r

section LookUp

variable {items : List α} {hit : α → Ranked → β} {ranked : List Ranked}

theorem mem_lookUp {x : β} : x ∈ lookUp items hit ranked ↔
    ∃ r ∈ ranked, ∃ item, items[r.position]? = some item ∧ hit item r = x := by
  simp only [lookUp, List.mem_filterMap, Option.map_eq_some_iff]

theorem lookUp_cons {r : Ranked} {item : α} (h : items[r.position]? = some item) :
    lookUp items hit (r :: ranked) = hit item r :: lookUp items hit ranked :=
  List.filterMap_cons_some (by rw [h]; rfl)

/-- **A look-up finds the item of each ranked position**, one for one, when there is one. -/
theorem forall₂_lookUp {P : α → Ranked → Prop}
    (h : ∀ r ∈ ranked, ∃ item, items[r.position]? = some item ∧ P item r) :
    List.Forall₂ (fun r found => ∃ item, P item r ∧ found = hit item r) ranked
      (lookUp items hit ranked) := by
  induction ranked with
  | nil => exact .nil
  | cons r ranked ih =>
    obtain ⟨item, hitem, hr⟩ := h r List.mem_cons_self
    rw [lookUp_cons hitem]
    exact .cons ⟨item, hr, rfl⟩ (ih fun r' hr' => h r' (List.mem_cons_of_mem _ hr'))

/-- The first that are looked up are those of the first positions. -/
theorem lookUp_take (h : ∀ r ∈ ranked, ∃ item, items[r.position]? = some item) (n : Nat) :
    lookUp items hit (ranked.take n) = (lookUp items hit ranked).take n := by
  induction ranked generalizing n with
  | nil => rw [List.take_nil, lookUp, List.filterMap_nil, List.take_nil]
  | cons r ranked ih =>
    obtain ⟨item, hitem⟩ := h r List.mem_cons_self
    cases n with
    | zero => rfl
    | succ n =>
      rw [List.take_succ_cons, lookUp_cons hitem, lookUp_cons hitem, List.take_succ_cons,
        ih fun r' hr' => h r' (List.mem_cons_of_mem _ hr')]

/-- **Nothing is looked up twice**: what stands at different positions is a part of the list. -/
theorem subperm_lookUp (h : ranked.Pairwise fun a b => a.position ≠ b.position) :
    (lookUp items (fun item _ => item) ranked).Subperm items := by
  have hnodup : (lookUp items (fun item r => (item, r.position)) ranked).Nodup := by
    refine List.pairwise_filterMap.mpr (h.imp fun hne x hx y hy heq => hne ?_)
    obtain ⟨item, -, rfl⟩ := Option.map_eq_some_iff.mp hx
    obtain ⟨item', -, rfl⟩ := Option.map_eq_some_iff.mp hy
    exact congrArg Prod.snd heq
  have hsubset : lookUp items (fun item r => (item, r.position)) ranked ⊆ items.zipIdx := by
    intro x hx
    obtain ⟨r, -, item, hitem, rfl⟩ := mem_lookUp.mp hx
    exact List.mk_mem_zipIdx_iff_getElem?.mpr hitem
  have hfst : (lookUp items (fun item r => (item, r.position)) ranked).map Prod.fst =
      lookUp items (fun item _ => item) ranked := by
    simp only [lookUp, List.map_filterMap, Option.map_map, Function.comp_def]
  obtain ⟨found, hperm, hsublist⟩ := List.subperm_of_subset hnodup hsubset
  have hfirst := hsublist.map Prod.fst
  rw [List.zipIdx_map_fst] at hfirst
  exact ⟨found.map Prod.fst, hfst ▸ hperm.map Prod.fst, hfirst⟩

/-- Looking up more makes the answer longer. -/
theorem lookUp_take_prefix {k k' : Nat} (h : k ≤ k') :
    lookUp items hit (ranked.take (max k 1)) <+: lookUp items hit (ranked.take (max k' 1)) :=
  (List.take_prefix_take_left (max_le_max_right 1 h)).filterMap _

end LookUp

/-! ## Scopes -/

/-- A scope without outer slashes. -/
def scopeName (written : String) : List Char :=
  dropEndSlashes (written.toList.dropWhile (· = '/'))

/-- The path is not left out by a scope. -/
inductive Within (path : String) : Option String → Prop where
  /-- there is no scope -/
  | unconfined : Within path none
  /-- the scope is the root -/
  | root {written : String} (h : scopeName written = [] ∨ scopeName written = ['.']) :
      Within path (some written)
  /-- the scope is the path itself -/
  | itself {written : String} (h : path.toList = scopeName written) : Within path (some written)
  /-- the scope is a directory that the path lies in -/
  | inside {written : String} (h : scopeName written ++ ['/'] <+: path.toList) :
      Within path (some written)

theorem inScope_iff {path : String} {scope : Option String} :
    inScope path scope = true ↔ Within path scope := by
  cases scope with
  | none => exact ⟨fun _ => .unconfined, fun _ => rfl⟩
  | some written =>
    have hname : inScope path (some written) = true ↔
        (scopeName written = [] ∨ scopeName written = ['.']) ∨ path.toList = scopeName written ∨
          scopeName written ++ ['/'] <+: path.toList := by
      simp only [inScope, Bool.or_eq_true, List.isEmpty_iff, decide_eq_true_eq, below?_isSome_iff,
        scopeName]
    rw [hname]
    constructor
    · rintro (h | h | h)
      · exact .root h
      · exact .itself h
      · exact .inside h
    · rintro (_ | h | h | h)
      · exact .inl h
      · exact .inr (.inl h)
      · exact .inr (.inr h)

/-! ## Searches -/

/-- The file is one that a search may find, at this position and with these scores. -/
structure FileIndex.Eligible (index : FileIndex) (q : Query) (vector : Embedding)
    (scope : Option String) (o : RankOptions) (weights : KeywordWeights) (document : Document)
    (r : Ranked) : Prop where
  /-- it stands at the position -/
  indexed : index.documents[r.position]? = some document
  /-- the scores are those of its words and of the vector at the position -/
  scored : ∃ v, index.vectors[r.position]? = some v ∧
    r.scores = .combine (cosine vector v) (q.score document.keywordText weights)
      o.semanticWeight o.keywordWeight
  /-- it is in scope -/
  within : Within document.path scope
  /-- its scores pass -/
  passes : o.Passes r.scores

/-- The identifier is one that a search may find, at this position and with these scores. -/
structure IdentifierIndex.Eligible (index : IdentifierIndex) (q : Query) (vector : Embedding)
    (scope : Option String) (kinds : List SymbolKind) (o : RankOptions) (weights : KeywordWeights)
    (identifier : Identifier) (r : Ranked) : Prop where
  /-- it stands at the position -/
  indexed : index.identifiers[r.position]? = some identifier
  /-- the scores are those of its words and of the vector at the position -/
  scored : ∃ v, index.vectors[r.position]? = some v ∧
    r.scores = .combine (cosine vector v) (identifier.keywordScore q weights)
      o.semanticWeight o.keywordWeight
  /-- it is in scope -/
  within : Within identifier.path scope
  /-- its kind is among the given ones, if there are any -/
  kind : kinds = [] ∨ identifier.entry.kind ∈ kinds
  /-- its scores pass -/
  passes : o.Passes r.scores

/-- What is reported of a file that was found. -/
def FileHit.ofRanked (q : Query) (document : Document) (r : Ranked) : FileHit :=
  ⟨document.path, document.header, q.matchedSymbols document.entries, r.scores⟩

/-- What is reported of an identifier that was found. -/
def IdentifierHit.ofRanked (identifier : Identifier) (r : Ranked) : IdentifierHit :=
  ⟨identifier, r.scores, none⟩

theorem exists_files_ranking (index : FileIndex) (q : Query) (vector : Embedding)
    (scope : Option String) (o : RankOptions) (weights : KeywordWeights) :
    ∃ ranking,
      IsRanking (fun r => ∃ document, index.Eligible q vector scope o weights document r) ranking ∧
      ∀ k, searchFiles index q vector scope { o with topK := k } weights =
        lookUp index.documents (FileHit.ofRanked q) (ranking.take (max k 1)) := by
  have hranking := isRanking_candidatesOf index.documents index.vectors
    (fun document => inScope document.path scope)
    (fun document => q.score document.keywordText weights) vector o
  refine ⟨_, ⟨hranking.sorted, fun r => ?_⟩, fun k => rfl⟩
  rw [hranking.mem_iff]
  constructor
  · rintro ⟨document, v, hdocument, hv, hscope, hscores, hpasses⟩
    exact ⟨document, hdocument, ⟨v, hv, hscores⟩, inScope_iff.mp hscope, hpasses⟩
  · rintro ⟨document, hdocument, ⟨v, hv, hscores⟩, hwithin, hpasses⟩
    exact ⟨document, v, hdocument, hv, inScope_iff.mpr hwithin, hscores, hpasses⟩

theorem exists_identifiers_ranking (index : IdentifierIndex) (q : Query) (vector : Embedding)
    (scope : Option String) (kinds : List SymbolKind) (o : RankOptions) (weights : KeywordWeights) :
    ∃ ranking,
      IsRanking (fun r => ∃ identifier,
        index.Eligible q vector scope kinds o weights identifier r) ranking ∧
      ∀ k, searchIdentifiers index q vector scope kinds { o with topK := k } weights =
        lookUp index.identifiers IdentifierHit.ofRanked (ranking.take (max k 1)) := by
  have hranking := isRanking_candidatesOf index.identifiers index.vectors
    (fun identifier => inScope identifier.path scope &&
      (kinds.isEmpty || kinds.contains identifier.entry.kind))
    (fun identifier => identifier.keywordScore q weights) vector o
  have hallowed (identifier : Identifier) : (inScope identifier.path scope &&
      (kinds.isEmpty || kinds.contains identifier.entry.kind)) = true ↔
        Within identifier.path scope ∧ (kinds = [] ∨ identifier.entry.kind ∈ kinds) := by
    rw [Bool.and_eq_true, Bool.or_eq_true, inScope_iff, List.isEmpty_iff, List.contains_iff_mem]
  refine ⟨_, ⟨hranking.sorted, fun r => ?_⟩, fun k => rfl⟩
  simp only [hranking.mem_iff, hallowed]
  constructor
  · rintro ⟨identifier, v, hidentifier, hv, ⟨hwithin, hkind⟩, hscores, hpasses⟩
    exact ⟨identifier, hidentifier, ⟨v, hv, hscores⟩, hwithin, hkind, hpasses⟩
  · rintro ⟨identifier, hidentifier, ⟨v, hv, hscores⟩, hwithin, hkind, hpasses⟩
    exact ⟨identifier, v, hidentifier, hv, ⟨hwithin, hkind⟩, hscores, hpasses⟩

/-- **Searches are exact.** What is eligible has one ranking and no other. A search for files, or
for identifiers, answers with what stands at the first positions of it, one hit for each, and so the
answer for a smaller number is a prefix of that for a greater one. -/
theorem search_eq_take_ranking :
    (∀ (index : FileIndex) (q : Query) (vector : Embedding) (scope : Option String)
        (o : RankOptions) (weights : KeywordWeights),
      ∃ ranking,
        (∀ other, IsRanking
          (fun r => ∃ document, index.Eligible q vector scope o weights document r) other ↔
            other = ranking) ∧
        (∀ k, List.Forall₂
          (fun r hit => ∃ document, index.Eligible q vector scope o weights document r ∧
            hit = FileHit.ofRanked q document r)
          (ranking.take (max k 1))
          (searchFiles index q vector scope { o with topK := k } weights)) ∧
        ∀ k k', k ≤ k' → searchFiles index q vector scope { o with topK := k } weights <+:
          searchFiles index q vector scope { o with topK := k' } weights) ∧
    ∀ (index : IdentifierIndex) (q : Query) (vector : Embedding) (scope : Option String)
        (kinds : List SymbolKind) (o : RankOptions) (weights : KeywordWeights),
      ∃ ranking,
        (∀ other, IsRanking
          (fun r => ∃ identifier, index.Eligible q vector scope kinds o weights identifier r)
            other ↔
            other = ranking) ∧
        (∀ k, List.Forall₂
          (fun r hit => ∃ identifier,
            index.Eligible q vector scope kinds o weights identifier r ∧
              hit = IdentifierHit.ofRanked identifier r)
          (ranking.take (max k 1))
          (searchIdentifiers index q vector scope kinds { o with topK := k } weights)) ∧
        ∀ k k', k ≤ k' →
          searchIdentifiers index q vector scope kinds { o with topK := k } weights <+:
            searchIdentifiers index q vector scope kinds { o with topK := k' } weights := by
  constructor
  · intro index q vector scope o weights
    obtain ⟨ranking, hranking, hsearch⟩ := exists_files_ranking index q vector scope o weights
    refine ⟨ranking, fun other => hranking.eq_iff, fun k => ?_, fun k k' hle => ?_⟩
    · rw [hsearch]
      refine forall₂_lookUp fun r hr => ?_
      obtain ⟨document, hdocument⟩ := (hranking.mem_iff r).mp (List.mem_of_mem_take hr)
      exact ⟨document, hdocument.indexed, hdocument⟩
    · rw [hsearch, hsearch]
      exact lookUp_take_prefix hle
  · intro index q vector scope kinds o weights
    obtain ⟨ranking, hranking, hsearch⟩ :=
      exists_identifiers_ranking index q vector scope kinds o weights
    refine ⟨ranking, fun other => hranking.eq_iff, fun k => ?_, fun k k' hle => ?_⟩
    · rw [hsearch]
      refine forall₂_lookUp fun r hr => ?_
      obtain ⟨identifier, hidentifier⟩ := (hranking.mem_iff r).mp (List.mem_of_mem_take hr)
      exact ⟨identifier, hidentifier.indexed, hidentifier⟩
    · rw [hsearch, hsearch]
      exact lookUp_take_prefix hle

end CodeAtlas
