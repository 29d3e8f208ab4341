import CodeAtlas.Proofs.Index.Alignment
import CodeAtlas.Proofs.Search.Ranking

/-!
# Two stages are as good as one

Setup: the uses of an identifier are ranked in two stages. The first keeps the best by keywords, at
most thirty or four for each one asked for; the second sends the texts of those that are left and
ranks them by vectors and keywords together. So what is sent is bounded, however many uses there
are.

**`Indexer.rankCalls_exact`** is the main result. When no use is lost in the first stage and each
gets a vector, the answer is the one that a single stage would give: all uses whose scores pass, by
combined, keyword and semantic score, and then by path and line (`exhaustive`).

The second stage breaks ties by position, and the first has put the uses into an order of its own.
But it breaks ties by position only between uses of the same keyword score, and for these the order
of the first stage is the one by path and line (`CallSite.order_isLE_of_ranked`).
-/

namespace CodeAtlas

open CodeAtlas.Text
open CodeAtlas.Fingerprint (contentHash)

variable {σ α : Type}

/-- Sorting by a comparison sorts. -/
theorem pairwise_mergeSort_isLE {cmp : α → α → Ordering} [Std.TransCmp cmp] (l : List α) :
    (l.mergeSort fun a b => (cmp a b).isLE).Pairwise fun a b => (cmp a b).isLE = true := by
  refine List.pairwise_mergeSort (fun _ _ _ => Std.TransCmp.isLE_trans) (fun a b => ?_) l
  have hswap : cmp b a = (cmp a b).swap := Std.OrientedCmp.eq_swap
  rw [hswap]
  cases cmp a b <;> rfl

/-! ## Uses -/

/-- Where a use is. -/
def Use.place (u : Use) : String × Nat :=
  (u.path, u.line)

/-- Lines are numbered one after the other. -/
theorem neighbours_numbers (number : Nat) (before : Option String) (ls : List String) :
    (neighbours number before ls).map Prod.fst = List.range' number ls.length := by
  induction ls generalizing number before with
  | nil => rfl
  | cons line rest ih =>
    rw [neighbours, List.map_cons, ih, List.length_cons, List.range'_succ]

/-- What is picked from a list is a part of it. -/
theorem sublist_map_of_filterMap {β : Type} {f : α → Option β} {g : α → β} {l : List α}
    (h : ∀ x y, f x = some y → y = g x) : (l.filterMap f).Sublist (l.map g) := by
  induction l with
  | nil => exact .slnil
  | cons x l ih =>
    rw [List.filterMap_cons, List.map_cons]
    split
    · exact ih.cons _
    · next y hy => exact h x y hy ▸ ih.cons_cons _

/-- What can be said of the uses in one file: they are in different places, and in this file. -/
theorem places_usesIn (target : Identifier) (path source : String) :
    ((usesIn target path source).map Use.place).Nodup ∧
      ∀ place ∈ (usesIn target path source).map Use.place, place.1 = path := by
  have hsublist : ((usesIn target path source).map Use.place).Sublist
      ((List.range' 1 (lines source).length).map fun number => (path, number)) := by
    rw [usesIn, List.map_filterMap, ← neighbours_numbers 1 none, List.map_map]
    refine sublist_map_of_filterMap fun x place hplace => ?_
    obtain ⟨number, before, line, after⟩ := x
    obtain ⟨u, hu, rfl⟩ := Option.map_eq_some_iff.mp hplace
    dsimp only at hu
    split_ifs at hu
    rw [← Option.some.inj hu]
    rfl
  have hnumbers : ((List.range' 1 (lines source).length).map fun number => (path, number)).Nodup :=
    (List.nodup_map_iff fun _ _ h => (Prod.mk.inj h).2).mpr List.nodup_range'
  refine ⟨hsublist.nodup hnumbers, fun place hplace => ?_⟩
  obtain ⟨number, -, rfl⟩ := List.mem_map.mp (hsublist.subset hplace)
  rfl

/-- **No two uses are in one place.** -/
theorem nodup_places_usesOf (index : IdentifierIndex) (target : Identifier) :
    ((usesOf index target).map Use.place).Nodup := by
  rw [usesOf, List.map_flatMap, List.nodup_flatMap]
  refine ⟨fun file _ => (places_usesIn target file.1 file.2).1, ?_⟩
  have hdistinct : index.sources.toList.Pairwise fun a b => ¬compare a.1 b.1 = .eq :=
    Std.TreeMap.distinct_keys_toList
  refine hdistinct.imp fun {a b} hne place ha hb => hne ?_
  rw [Std.LawfulEqCmp.compare_eq_iff_eq, ← (places_usesIn target a.1 a.2).2 place ha,
    ← (places_usesIn target b.1 b.2).2 place hb]

/-- Nor are any two among some of them. -/
theorem nodup_places_of_subperm {uses uses' : List Use} (h : uses'.Subperm uses)
    (hplaces : (uses.map Use.place).Nodup) : (uses'.map Use.place).Nodup := by
  obtain ⟨uses'', hperm, hsublist⟩ := h
  exact (hperm.map Use.place).nodup_iff.mp ((hsublist.map Use.place).nodup hplaces)

/-! ## Orders -/

/-- Compares uses by path and line. -/
def Use.placeOrder (a b : Use) : Ordering :=
  (compare a.path b.path).then (compare a.line b.line)

instance : Std.TransCmp Use.placeOrder :=
  inferInstanceAs (Std.TransCmp (compareLex (compareOn Use.path) (compareOn Use.line)))

/-- Uses that are not told apart are in one place. -/
theorem Use.place_eq_of_order {a b : Use} (h : placeOrder a b = .eq) : a.place = b.place := by
  rw [placeOrder, Ordering.then_eq_eq, Std.LawfulEqCmp.compare_eq_iff_eq,
    Std.LawfulEqCmp.compare_eq_iff_eq] at h
  exact Prod.ext h.1 h.2

instance : Std.TransCmp prefilterOrder :=
  inferInstanceAs (Std.TransCmp (compareLex
    (fun a b => compareOn (fun survivor : Use × Float32 => orderKey survivor.2) b a)
    (compareLex (compareOn fun survivor => survivor.1.path)
      (compareOn fun survivor => survivor.1.line))))

/-- Compares call sites: the greater combined score comes first, then the greater keyword score,
then the greater semantic score, then the path, then the line. -/
def CallSite.order (a b : CallSite) : Ordering :=
  (compare (orderKey b.scores.combined) (orderKey a.scores.combined)).then <|
    (compare (orderKey b.scores.keyword) (orderKey a.scores.keyword)).then <|
      (compare (orderKey b.scores.semantic) (orderKey a.scores.semantic)).then <|
        Use.placeOrder a.site b.site

instance : Std.TransCmp CallSite.order :=
  inferInstanceAs (Std.TransCmp (compareLex
    (fun a b => compareOn (fun s : CallSite => orderKey s.scores.combined) b a)
    (compareLex (fun a b => compareOn (fun s : CallSite => orderKey s.scores.keyword) b a)
      (compareLex (fun a b => compareOn (fun s : CallSite => orderKey s.scores.semantic) b a)
        (compareLex (compareOn fun s => s.site.path) (compareOn fun s => s.site.line))))))

instance : Std.TransCmp Ranked.order :=
  inferInstanceAs (Std.TransCmp (compareLex
    (fun a b => compareOn (fun r : Ranked => orderKey r.scores.combined) b a)
    (compareLex (fun a b => compareOn (fun r : Ranked => orderKey r.scores.keyword) b a)
      (compareLex (fun a b => compareOn (fun r : Ranked => orderKey r.scores.semantic) b a)
        (compareOn fun r => r.position)))))

/-! ## The first stage -/

section Prefilter

variable (uses : List Use) (q : Query) (weights : KeywordWeights)

/-- The uses with their keyword scores. -/
def scoredUses : List (Use × Float32) :=
  uses.map fun u => (u, q.score u.keywordText weights)

theorem map_fst_scoredUses : (scoredUses uses q weights).map Prod.fst = uses := by
  rw [scoredUses, List.map_map]
  exact List.map_id' uses

/-- As many survive as are asked for, if there are so many. -/
theorem length_prefilter (keep : Nat) :
    (prefilter uses q weights keep).length = min keep uses.length := by
  have hlength : ((scoredUses uses q weights).mergeSort
      fun a b => (prefilterOrder a b).isLE).length = uses.length := by
    rw [List.length_mergeSort, scoredUses, List.length_map]
  rw [← hlength]
  exact List.length_take

/-- Those that survive are in the order of the first stage. -/
theorem pairwise_prefilter (keep : Nat) : (prefilter uses q weights keep).Pairwise
    fun a b => (prefilterOrder a b).isLE = true :=
  (pairwise_mergeSort_isLE (scoredUses uses q weights)).sublist (List.take_sublist _ _)

/-- Those that survive are some of the uses. -/
theorem subperm_prefilter (keep : Nat) :
    ((prefilter uses q weights keep).map Prod.fst).Subperm uses := by
  have hsorted : ((scoredUses uses q weights).mergeSort fun a b => (prefilterOrder a b).isLE).Perm
      (scoredUses uses q weights) := List.mergeSort_perm _ _
  refine ((List.take_sublist _ _).map Prod.fst).subperm.trans ?_
  exact ((hsorted.map Prod.fst).trans (.of_eq (map_fst_scoredUses uses q weights))).subperm

/-- All survive when there are not more than asked for. -/
theorem perm_prefilter {keep : Nat} (h : uses.length ≤ keep) :
    (prefilter uses q weights keep).Perm (scoredUses uses q weights) := by
  have hsorted : ((scoredUses uses q weights).mergeSort fun a b => (prefilterOrder a b).isLE).Perm
      (scoredUses uses q weights) := List.mergeSort_perm _ _
  have hlength := hsorted.length_eq
  rw [scoredUses, List.length_map, ← scoredUses] at hlength
  have hall : prefilter uses q weights keep =
      (scoredUses uses q weights).mergeSort fun a b => (prefilterOrder a b).isLE :=
    List.take_of_length_le (hlength.trans_le h)
  rw [hall]
  exact hsorted

end Prefilter

/-- Not more survive than thirty, or four for each one asked for. -/
theorem survivorCount_le (limit : Nat) : survivorCount limit ≤ max 30 (4 * limit) := by
  rw [survivorCount, minSurvivors, survivorsPerSite]
  omega

/-- So many survive, as long as their number has 64 bits. -/
theorem le_survivorCount {limit total : Nat} (h : total ≤ max 30 (4 * limit))
    (htotal : total < UInt64.size) : total ≤ survivorCount limit := by
  rw [survivorCount, minSurvivors, survivorsPerSite]
  omega

/-! ## The second stage -/

/-- The first parts of pairs are a part of the list they come from. -/
theorem sublist_map_fst_zip {β : Type} (l : List α) (l' : List β) :
    ((l.zip l').map Prod.fst).Sublist l := by
  induction l generalizing l' with
  | nil => exact .slnil
  | cons x l ih =>
    cases l' with
    | nil => exact List.nil_sublist _
    | cons y l' => exact (ih l').cons_cons _

section Rank

variable (survivors : List (Use × Float32)) (vectors : List (Option Embedding)) (vector : Embedding)
  (limit : Nat) (o : RankOptions)

/-- The candidates of the second stage. -/
def useCandidates : List Candidate :=
  (survivors.zip vectors).zipIdx.filterMap fun (((_, keyword), v?), i) =>
    v?.map fun v => ⟨i, cosine vector v, keyword⟩

/-- A use with the scores that its position was ranked with. -/
def CallSite.ofRanked (survivor : Use × Float32) (r : Ranked) : CallSite :=
  ⟨survivor.1, r.scores⟩

/-- The survivors that have a vector and whose scores pass, in the order of the second stage. -/
def rankedSites : List CallSite :=
  lookUp survivors CallSite.ofRanked (ranking o (useCandidates survivors vectors vector))

variable {survivors vectors vector limit o}

/-- **At the position of a candidate stands the survivor that its scores were made of**, and at the
same position its vector. -/
theorem mem_useCandidates {c : Candidate} : c ∈ useCandidates survivors vectors vector ↔
    ∃ s v, survivors[c.position]? = some s ∧ vectors[c.position]? = some (some v) ∧
      c.similarity = cosine vector v ∧ c.keyword = s.2 := by
  simp only [useCandidates, List.mem_filterMap, Prod.exists, List.mk_mem_zipIdx_iff_getElem?,
    Option.map_eq_some_iff, List.getElem?_zip_eq_some]
  constructor
  · rintro ⟨use, keyword, v?, i, ⟨hs, hv⟩, v, rfl, rfl⟩
    exact ⟨use, keyword, v, hs, hv, rfl, rfl⟩
  · rintro ⟨use, keyword, v, hs, hv, hsimilarity, hkeyword⟩
    refine ⟨use, keyword, some v, c.position, ⟨hs, hv⟩, v, rfl, ?_⟩
    rw [← hsimilarity, ← hkeyword]

theorem pairwise_position_useCandidates :
    (useCandidates survivors vectors vector).Pairwise fun c d => c.position ≠ d.position := by
  refine pairwise_position_ne fun x c hc => ?_
  obtain ⟨v, -, rfl⟩ := Option.map_eq_some_iff.mp hc
  rfl

theorem exists_survivor_of_mem_ranking {r : Ranked}
    (h : r ∈ ranking o (useCandidates survivors vectors vector)) :
    ∃ s, survivors[r.position]? = some s := by
  obtain ⟨c, hc, rfl, -⟩ :=
    ((isRanking_ranking o pairwise_position_useCandidates).mem_iff r).mp h
  obtain ⟨s, -, hs, -⟩ := mem_useCandidates.mp hc
  exact ⟨s, hs⟩

/-- What is found is the beginning of the ranked sites. -/
theorem rankUses_eq : rankUses survivors vectors vector limit o =
    (rankedSites survivors vectors vector o).take (max limit 1) := by
  rw [rankedSites, ← lookUp_take fun r => exists_survivor_of_mem_ranking]
  rfl

/-- The ranked sites are some of the survivors. -/
theorem subperm_rankedSites :
    ((rankedSites survivors vectors vector o).map CallSite.site).Subperm
      (survivors.map Prod.fst) := by
  have hpositions := pairwise_position_ranking o
    (@pairwise_position_useCandidates survivors vectors vector)
  have hsites : (rankedSites survivors vectors vector o).map CallSite.site =
      (lookUp survivors (fun s _ => s) (ranking o (useCandidates survivors vectors vector))).map
        Prod.fst := by
    simp only [rankedSites, lookUp, List.map_filterMap, Option.map_map]
    rfl
  obtain ⟨found, hperm, hsublist⟩ := subperm_lookUp hpositions
  exact ⟨found.map Prod.fst, (hperm.map _).trans (.of_eq hsites.symm), hsublist.map _⟩

theorem nodup_places_rankedSites (hplaces : ((survivors.map Prod.fst).map Use.place).Nodup) :
    ((rankedSites survivors vectors vector o).map fun s => s.site.place).Nodup := by
  have hfound := nodup_places_of_subperm
    (@subperm_rankedSites survivors vectors vector o) hplaces
  rwa [List.map_map] at hfound

/-- **What is found** is some of the survivors, and no more than asked for. -/
theorem rankUses_spec : (rankUses survivors vectors vector limit o).length ≤ max limit 1 ∧
    ((rankUses survivors vectors vector limit o).map CallSite.site).Subperm
      (survivors.map Prod.fst) := by
  rw [rankUses_eq, List.map_take]
  exact ⟨List.length_take_le _ _, (List.take_sublist _ _).subperm.trans subperm_rankedSites⟩

end Rank

/-! ## One stage -/

section Exhaustive

variable {survivors : List (Use × Float32)} (vector : Embedding) (got : Use → Embedding)
  (o : RankOptions)

/-- A use with the scores of its keywords and of the vector it got. -/
def scoredSite (survivor : Use × Float32) : CallSite :=
  ⟨survivor.1,
    .combine (cosine vector (got survivor.1)) survivor.2 o.semanticWeight o.keywordWeight⟩

/-- What one stage gives: of all uses, those whose scores pass are put in order, and the first are
taken. -/
def exhaustive (uses : List Use) (q : Query) (weights : KeywordWeights) (limit : Nat) :
    List CallSite :=
  let sites := (scoredUses uses q weights).map (scoredSite vector got o)
  ((sites.filter fun s => o.admits s.scores).mergeSort fun a b => (CallSite.order a b).isLE).take
    limit

/-- **Ties are broken alike.** Of two survivors the one that the second stage puts first comes first
by path and line too, if all their scores are the same: then the first stage had them in this order.
-/
theorem CallSite.order_isLE_of_ranked
    (hsorted : survivors.Pairwise fun a b => (prefilterOrder a b).isLE = true) {i j : Nat}
    {a b : Use × Float32} (ha : survivors[i]? = some a) (hb : survivors[j]? = some b)
    (h : (Ranked.order ⟨i, (scoredSite vector got o a).scores⟩
      ⟨j, (scoredSite vector got o b).scores⟩).isLE = true) :
    (CallSite.order (scoredSite vector got o a) (scoredSite vector got o b)).isLE = true := by
  simp only [Ranked.order, CallSite.order, Ordering.isLE_then_iff_or] at h ⊢
  refine h.imp_right (And.imp_right (Or.imp_right ?_))
  rintro ⟨hkeyword, h⟩
  refine ⟨hkeyword, h.imp_right (And.imp_right fun hposition => ?_)⟩
  obtain ⟨hi, rfl⟩ := List.getElem?_eq_some_iff.mp ha
  obtain ⟨hj, rfl⟩ := List.getElem?_eq_some_iff.mp hb
  rcases Nat.lt_or_eq_of_le (Nat.isLE_compare.mp hposition) with hlt | rfl
  · -- the keyword scores are the same, so the first stage compared path and line
    have hbefore := List.pairwise_iff_getElem.mp hsorted i j hi hj hlt
    rw [prefilterOrder, Ordering.isLE_then_iff_or] at hbefore
    rcases hbefore with hless | ⟨-, hplace⟩
    · exact absurd (hless.symm.trans hkeyword) (by decide)
    · exact hplace
  · exact Std.ReflCmp.isLE_rfl

/-- When each survivor gets a vector, the second stage ranks the positions of those whose scores
pass. -/
theorem mem_ranking_iff {r : Ranked} :
    r ∈ ranking o (useCandidates survivors (survivors.map fun s => some (got s.1)) vector) ↔
      ∃ s, survivors[r.position]? = some s ∧ r.scores = (scoredSite vector got o s).scores ∧
        o.Passes r.scores := by
  rw [(isRanking_ranking o pairwise_position_useCandidates).mem_iff]
  constructor
  · rintro ⟨c, hc, rfl, hpasses⟩
    obtain ⟨s, v, hs, hv, hsimilarity, hkeyword⟩ := mem_useCandidates.mp hc
    rw [List.getElem?_map, hs] at hv
    refine ⟨s, hs, ?_, hpasses⟩
    rw [Ranked.ofCandidate, scoredSite, hsimilarity, hkeyword, Option.some.inj (Option.some.inj hv)]
  · rintro ⟨s, hs, hscores, hpasses⟩
    refine ⟨⟨r.position, cosine vector (got s.1), s.2⟩,
      mem_useCandidates.mpr ⟨s, got s.1, hs, ?_, rfl, rfl⟩, ?_, hpasses⟩
    · rw [List.getElem?_map, hs]
      rfl
    · exact congrArg (Ranked.mk r.position) hscores

/-- The ranked sites are the survivors whose scores pass, with these scores. -/
theorem mem_rankedSites_iff {site : CallSite} :
    site ∈ rankedSites survivors (survivors.map fun s => some (got s.1)) vector o ↔
      ∃ s ∈ survivors, site = scoredSite vector got o s ∧ o.Passes site.scores := by
  rw [rankedSites, mem_lookUp]
  constructor
  · rintro ⟨r, hr, s, hs, rfl⟩
    obtain ⟨s', hs', hscores, hpasses⟩ := (mem_ranking_iff vector got o).mp hr
    obtain rfl : s' = s := Option.some.inj (hs'.symm.trans hs)
    refine ⟨s', List.mem_of_getElem? hs, ?_, hpasses⟩
    rw [CallSite.ofRanked, hscores]
    rfl
  · rintro ⟨s, hs, rfl, hpasses⟩
    obtain ⟨i, hi⟩ := List.mem_iff_getElem?.mp hs
    exact ⟨⟨i, (scoredSite vector got o s).scores⟩,
      (mem_ranking_iff vector got o).mpr ⟨s, hi, rfl, hpasses⟩, s, hi, rfl⟩

/-- Sites whose uses are in different places are told apart by their order. -/
theorem eq_of_order_isLE {sites : List CallSite} (hplaces : (sites.map fun s => s.site.place).Nodup)
    {a b : CallSite} (ha : a ∈ sites) (hb : b ∈ sites) (hab : (CallSite.order a b).isLE = true)
    (hba : (CallSite.order b a).isLE = true) : a = b := by
  have heq : CallSite.order a b = .eq := Std.OrientedCmp.isLE_antisymm hab hba
  rw [CallSite.order, Ordering.then_eq_eq, Ordering.then_eq_eq, Ordering.then_eq_eq] at heq
  exact List.inj_on_of_nodup_map hplaces ha hb (Use.place_eq_of_order heq.2.2.2)

/-- Sites in different places have one order only. -/
theorem mergeSort_sites_eq {sites sorted : List CallSite}
    (hplaces : (sites.map fun s => s.site.place).Nodup) (hperm : sorted.Perm sites)
    (hsorted : sorted.Pairwise fun a b => (CallSite.order a b).isLE = true) :
    (sites.mergeSort fun a b => (CallSite.order a b).isLE) = sorted :=
  (List.Perm.eq_of_pairwise
    (fun _ _ ha hb => eq_of_order_isLE hplaces (hperm.subset ha) (List.mem_mergeSort.mp hb)) hsorted
    (pairwise_mergeSort_isLE _) (hperm.trans (List.mergeSort_perm _ _).symm)).symm

/-- The second stage puts the survivors into the order of one stage. -/
theorem pairwise_rankedSites
    (hsorted : survivors.Pairwise fun a b => (prefilterOrder a b).isLE = true) :
    (rankedSites survivors (survivors.map fun s => some (got s.1)) vector o).Pairwise
      fun a b => (CallSite.order a b).isLE = true := by
  refine List.pairwise_filterMap.mpr ((pairwise_mergeSort_isLE _).imp_of_mem ?_)
  intro r r' hr hr' hle x hx y hy
  obtain ⟨a, ha, hscores, -⟩ := (mem_ranking_iff vector got o).mp hr
  obtain ⟨b, hb, hscores', -⟩ := (mem_ranking_iff vector got o).mp hr'
  rw [ha, Option.map_some, Option.some.injEq] at hx
  rw [hb, Option.map_some, Option.some.injEq] at hy
  rw [← hx, ← hy, CallSite.ofRanked, CallSite.ofRanked, hscores, hscores']
  refine CallSite.order_isLE_of_ranked vector got o hsorted ha hb ?_
  rwa [← hscores, ← hscores']

variable {uses : List Use} {q : Query} {weights : KeywordWeights}

/-- **Both stages together rank as one**, if no use is lost in the first stage and each gets a
vector: the two rankings list the same sites in the same order. -/
theorem rankedSites_eq (hplaces : (uses.map Use.place).Nodup)
    (hperm : survivors.Perm (scoredUses uses q weights))
    (hsorted : survivors.Pairwise fun a b => (prefilterOrder a b).isLE = true) :
    rankedSites survivors (survivors.map fun s => some (got s.1)) vector o =
      (((scoredUses uses q weights).map (scoredSite vector got o)).filter
        fun s => o.admits s.scores).mergeSort fun a b => (CallSite.order a b).isLE := by
  have hsurvivors := hperm.map Prod.fst
  rw [map_fst_scoredUses] at hsurvivors
  have hdistinct := @nodup_places_rankedSites survivors (survivors.map fun s => some (got s.1))
    vector o ((hsurvivors.map Use.place).nodup_iff.mpr hplaces)
  have hdistinct' : ((((scoredUses uses q weights).map (scoredSite vector got o)).filter
      fun s => o.admits s.scores).map fun s => s.site.place).Nodup := by
    refine ((List.filter_sublist).map _).nodup ?_
    rw [scoredUses, List.map_map, List.map_map]
    exact hplaces
  have hsame : (rankedSites survivors (survivors.map fun s => some (got s.1)) vector o).Perm
      (((scoredUses uses q weights).map (scoredSite vector got o)).filter
        fun s => o.admits s.scores) := by
    refine (List.perm_ext_iff_of_nodup hdistinct.of_map hdistinct'.of_map).mpr fun site => ?_
    rw [mem_rankedSites_iff, List.mem_filter, List.mem_map, RankOptions.admits_iff]
    constructor
    · rintro ⟨s, hs, rfl, hpasses⟩
      exact ⟨⟨s, hperm.subset hs, rfl⟩, hpasses⟩
    · rintro ⟨⟨s, hs, rfl⟩, hpasses⟩
      exact ⟨s, hperm.symm.subset hs, rfl, hpasses⟩
  exact (mergeSort_sites_eq hdistinct' hsame (pairwise_rankedSites vector got o hsorted)).symm

end Exhaustive

/-! ## The vectors of uses -/

/-- The item of a use. -/
def Use.item (u : Use) : Item :=
  ⟨CacheKey.callSite u.path u.line, u.embeddingText⟩

/-- Uses in different places have different items. -/
theorem place_eq_of_item {u v : Use} (h : u.item = v.item) : u.place = v.place := by
  obtain ⟨hpath, hline⟩ := CacheKey.callSite_inj (congrArg Item.key h)
  exact Prod.ext hpath hline

/-- Each slot has the vector of its thing, when the cache knows this vector or every answer for the
item of the thing is this vector. -/
theorem Cache.closeGaps_eq_map {m : Cache} {item : α → Item} {things : List α}
    {answers : List (Option Embedding)} {got : α → Embedding}
    (hlength : answers.length = (m.missing (things.map item)).length)
    (hgot : ∀ thing ∈ things, m.Knows (item thing) (got thing) ∨
      (∀ v, ¬m.Knows (item thing) v) ∧ ∀ answer,
        (item thing, answer) ∈ (m.missing (things.map item)).zip answers →
          answer = some (got thing)) :
    closeGaps (m.found (things.map item)) answers = things.map fun thing => some (got thing) := by
  induction things generalizing answers with
  | nil => rfl
  | cons thing things ih =>
    rw [List.map_cons, missing] at hlength hgot
    rw [List.map_cons, found, List.map_cons, ← found, List.map_cons]
    have hfirst := hgot thing List.mem_cons_self
    cases hlookup : m.vector? (item thing).key (item thing).hash with
    | some v =>
      have hknows := vector?_eq_some_iff_knows.mp hlookup
      rw [List.filter_cons_of_neg (by simp [hlookup]), ← missing] at hlength hgot
      rw [closeGaps, ih hlength fun t ht => hgot t (List.mem_cons_of_mem _ ht)]
      rcases hfirst with hgotThing | ⟨hunknown, -⟩
      · rw [Knows, hknows] at hgotThing
        have hv : v = got thing := congrArg CacheEntry.vector (Option.some.inj hgotThing)
        rw [hv]
      · exact absurd hknows (hunknown v)
    | none =>
      have hunknown := vector?_eq_none_iff_knows.mp hlookup
      rw [List.filter_cons_of_pos (by simp [hlookup]), ← missing] at hlength hgot hfirst
      obtain ⟨answer, answers, rfl⟩ := List.exists_cons_of_length_eq_add_one hlength
      rw [closeGaps, ih (Nat.succ.inj hlength) fun t ht =>
        (hgot t (List.mem_cons_of_mem _ ht)).imp_right
        (And.imp_right fun hall a ha => hall a (List.mem_cons_of_mem _ ha))]
      rcases hfirst with hgotThing | ⟨-, hall⟩
      · exact absurd hgotThing (hunknown _)
      · rw [hall answer List.mem_cons_self]

namespace Indexer

/-- The vector came for the item when these items were filled in: the cache of identifiers knew it,
or it was the answer for the text of the item. -/
def Obtains (ix : Indexer σ) (w : World σ) (items : List Item) (i : Item) (v : Embedding) : Prop :=
  let m := ix.store.load .identifiers w.disk
  m.Knows i v ∨ (∀ v, ¬m.Knows i v) ∧ ∃ answers memory,
    ix.batching.embedLenient ix.provider ((m.missing items).map Item.text) w.memory =
        (.ok answers, memory) ∧
      (i, some v) ∈ (m.missing items).zip answers

/-- The vectors of uses are those of a pass over their items. -/
theorem embedUses_requests (ix : Indexer σ) (survivors : List (Use × Float32)) :
    ix.embedUses (survivors.map fun s => s.1.request) = (fun result => result.1.vectors) <$>
      ix.pass .identifiers (survivors.map fun s => s.1.item) fun _ => true := by
  rw [embedUses, List.map_map]
  rfl

/-- The provider answers when each item's vector comes: either nothing is sent, or some item is
missing, and its vector was in the answers. -/
theorem exists_answers_of_obtains {ix : Indexer σ} {w : World σ} {items : List Item}
    (h : ∀ i ∈ items, ∃ v, ix.Obtains w items i v) :
    ∃ answers memory, ix.batching.embedLenient ix.provider
      (((ix.store.load .identifiers w.disk).missing items).map Item.text) w.memory =
        (.ok answers, memory) := by
  cases hmissing : (ix.store.load .identifiers w.disk).missing items with
  | nil => exact ⟨[], w.memory, by rw [List.map_nil, Batching.embedLenient, Batching.embedBatches]⟩
  | cons i rest =>
    have hi : i ∈ (ix.store.load .identifiers w.disk).missing items := hmissing ▸ List.mem_cons_self
    obtain ⟨v, hknows | ⟨-, answers, memory, hanswers, -⟩⟩ := h i (List.mem_of_mem_filter hi)
    · have hunknown := List.of_mem_filter hi
      rw [Cache.vector?_eq_some_iff_knows.mpr hknows] at hunknown
      cases hunknown
    · exact ⟨answers, memory, hmissing ▸ hanswers⟩

section Obtained

variable {ix : Indexer σ} {survivors : List (Use × Float32)} {got : Use → Embedding} {w : World σ}
  (hplaces : (survivors.map fun s => s.1.place).Nodup)
  (hgot : ∀ s ∈ survivors, ix.Obtains w (survivors.map fun s => s.1.item) s.1.item (got s.1))
include hplaces hgot

/-- The answers close the gaps with the vectors of the survivors, since the items are different and
each has one answer. -/
theorem closeGaps_of_obtains {answers : List (Option Embedding)} {memory : σ}
    (hanswers : ix.batching.embedLenient ix.provider
      (((ix.store.load .identifiers w.disk).missing (survivors.map fun s => s.1.item)).map
        Item.text) w.memory = (.ok answers, memory)) :
    Cache.closeGaps ((ix.store.load .identifiers w.disk).found (survivors.map fun s => s.1.item))
        answers =
      survivors.map fun s => some (got s.1) := by
  have hitems : (survivors.map fun s => s.1.item).Nodup :=
    List.pairwise_map.mpr
      ((List.pairwise_map.mp hplaces).imp fun hne heq => hne (place_eq_of_item heq))
  have hdistinct : ((((ix.store.load .identifiers w.disk).missing
      (survivors.map fun s => s.1.item)).zip answers).map Prod.fst).Nodup :=
    (sublist_map_fst_zip _ _).nodup (hitems.filter _)
  have hlength := Batching.length_of_embedLenient hanswers
  rw [List.length_map] at hlength
  refine Cache.closeGaps_eq_map hlength fun survivor hsurvivor => ?_
  refine (hgot survivor hsurvivor).imp_right (And.imp_right ?_)
  rintro ⟨answers', memory', hanswers', hmem⟩ answer hanswer
  rw [hanswers] at hanswers'
  cases hanswers'
  exact (Prod.mk.inj (List.inj_on_of_nodup_map hdistinct hanswer hmem rfl)).2

/-- **Each survivor gets its own vector**: when a vector comes for each, the slots are these
vectors. -/
theorem embedUses_of_obtains : ∃ w', ix.embedUses (survivors.map fun s => s.1.request) w =
    .ok (survivors.map fun s => some (got s.1)) w' := by
  obtain ⟨answers, memory, hanswers⟩ := exists_answers_of_obtains
    (List.forall_mem_map.mpr fun s hs => ⟨got s.1, hgot s hs⟩)
  have hpass := @pass_of_fill _ ix .identifiers _ (fun _ => true) w _ _
    (Cache.fill_eq_ok_iff.mpr ⟨answers, hanswers, rfl⟩)
  rw [embedUses_requests]
  simp only [Functor.map, EStateM.map, hpass]
  exact ⟨_, congrArg (EStateM.Result.ok · _) (closeGaps_of_obtains hplaces hgot hanswers)⟩

end Obtained

end Indexer

/-! ## Both stages -/

/-- The uses that are left for the second stage, with their keyword scores. -/
def leftUses (uses : List Use) (q : Query) (weights : KeywordWeights) (limit : Nat) :
    List (Use × Float32) :=
  if limit = 0 then [] else prefilter uses q weights (survivorCount limit)

section Left

variable (uses : List Use) (q : Query) (weights : KeywordWeights) (limit : Nat)

/-- Not more are left than thirty, or four for each one asked for. -/
theorem length_leftUses_le : (leftUses uses q weights limit).length ≤ max 30 (4 * limit) := by
  rw [leftUses]
  split
  · exact Nat.zero_le _
  · rw [length_prefilter]
    exact (Nat.min_le_left _ _).trans (survivorCount_le limit)

/-- What is left are some of the uses. -/
theorem subperm_leftUses : ((leftUses uses q weights limit).map Prod.fst).Subperm uses := by
  rw [leftUses]
  split
  · exact List.nil_subperm
  · exact subperm_prefilter uses q weights _

/-- Nothing is left exactly when none is asked for or there are none. -/
theorem leftUses_eq_nil_iff : leftUses uses q weights limit = [] ↔ limit = 0 ∨ uses = [] := by
  rw [leftUses]
  split
  · next h => simp [h]
  · next h =>
    have hkeep : survivorCount limit ≠ 0 := by
      rw [survivorCount, minSurvivors]
      omega
    rw [← List.length_eq_zero_iff, length_prefilter, ← List.length_eq_zero_iff]
    omega

end Left

namespace Indexer

/-- Both stages, in terms of what is left between them. -/
theorem rankCalls_eq (ix : Indexer σ) (index : IdentifierIndex) (target : Identifier) (q : Query)
    (vector : Embedding) (limit : Nat) (o : RankOptions) (weights : KeywordWeights) :
    ix.rankCalls index target q vector limit o weights =
      let left := leftUses (usesOf index target) q weights limit
      if left = [] then pure ⟨[], (usesOf index target).length⟩
      else (fun vectors => ⟨rankUses left vectors vector limit o, (usesOf index target).length⟩) <$>
        ix.embedUses (left.map fun s => s.1.request) := by
  have hcondition : (limit = 0 || (usesOf index target).isEmpty) = true ↔
      limit = 0 ∨ usesOf index target = [] := by simp
  simp only [leftUses_eq_nil_iff, rankCalls, hcondition]
  split
  · rfl
  · next h =>
    rw [leftUses, if_neg fun hlimit => h (.inl hlimit)]
    rfl

section Report

variable {ix : Indexer σ} {index : IdentifierIndex} {target : Identifier} {q : Query}
  {vector : Embedding} {limit : Nat} {o : RankOptions} {weights : KeywordWeights} {w : World σ}

/-- **What is reported**: the number of all uses, and different ones among them, not more than asked
for. -/
theorem report_of_rankCalls {report : CallReport} {w' : World σ}
    (h : ix.rankCalls index target q vector limit o weights w = .ok report w') :
    report.total = (usesOf index target).length ∧ report.sites.length ≤ limit ∧
      (report.sites.map CallSite.site).Subperm (usesOf index target) := by
  rw [rankCalls_eq] at h
  dsimp only at h
  split at h
  · cases h
    exact ⟨rfl, Nat.zero_le _, List.nil_subperm⟩
  · next hleft =>
    have hlimit : max limit 1 = limit :=
      Nat.max_eq_left (Nat.pos_of_ne_zero fun hzero => hleft (by rw [leftUses, if_pos hzero]))
    obtain ⟨vectors, -, rfl⟩ := Work.exists_of_map_eq_ok h
    have hspec := @rankUses_spec (leftUses (usesOf index target) q weights limit) vectors vector
      limit o
    rw [hlimit] at hspec
    exact ⟨rfl, hspec.1, hspec.2.trans (subperm_leftUses _ q weights limit)⟩

/-- **The answer is that of one stage** when no use is lost in the first stage and a vector comes
for each. -/
theorem rankCalls_of_obtains {got : Use → Embedding}
    (hfew : (usesOf index target).length ≤ survivorCount limit)
    (hgot : ∀ u ∈ usesOf index target, ix.Obtains w
      ((leftUses (usesOf index target) q weights limit).map fun s => s.1.item) u.item (got u)) :
    ∃ w', ix.rankCalls index target q vector limit o weights w =
      .ok ⟨exhaustive vector got o (usesOf index target) q weights limit,
        (usesOf index target).length⟩ w' := by
  rw [rankCalls_eq]
  dsimp only
  split
  · next hleft =>
    refine ⟨w, ?_⟩
    rcases (leftUses_eq_nil_iff _ q weights limit).mp hleft with hlimit | huses
    · rw [exhaustive, hlimit, List.take_zero]
      rfl
    · rw [exhaustive, huses, scoredUses, List.map_nil, List.map_nil, List.filter_nil,
        List.mergeSort_nil, List.take_nil]
      rfl
  · next hleft =>
    have hlimit : limit ≠ 0 := fun hzero => hleft (by rw [leftUses, if_pos hzero])
    have hall : leftUses (usesOf index target) q weights limit =
        prefilter (usesOf index target) q weights (survivorCount limit) := if_neg hlimit
    have hplaces := nodup_places_usesOf index target
    have hsubperm := subperm_leftUses (usesOf index target) q weights limit
    have hleftPlaces := nodup_places_of_subperm hsubperm hplaces
    rw [List.map_map] at hleftPlaces
    obtain ⟨w', hembed⟩ := embedUses_of_obtains hleftPlaces fun s hs =>
      hgot s.1 (hsubperm.subset (List.mem_map_of_mem hs))
    refine ⟨w', ?_⟩
    simp only [Functor.map, EStateM.map, hembed]
    rw [rankUses_eq, Nat.max_eq_left (Nat.pos_of_ne_zero hlimit), hall,
      rankedSites_eq vector got o hplaces (perm_prefilter _ q weights hfew)
        (pairwise_prefilter _ q weights _)]
    rfl

end Report

/-- **Two stages are bounded, and as good as one.** Not more texts are looked up or sent than
thirty, or four for each use asked for; what is found are different uses, not more than asked for.
When no use is lost in the first stage and a vector comes for each, the answer is that of one stage.
-/
theorem rankCalls_exact (ix : Indexer σ) (index : IdentifierIndex) (target : Identifier) (q : Query)
    (vector : Embedding) (limit : Nat) (o : RankOptions) (weights : KeywordWeights) :
    let uses := usesOf index target
    let left := leftUses uses q weights limit
    (left.length ≤ max 30 (4 * limit) ∧ (limit = 0 → left = []) ∧
      ix.rankCalls index target q vector limit o weights =
        if left = [] then pure ⟨[], uses.length⟩
        else (fun vectors => ⟨rankUses left vectors vector limit o, uses.length⟩) <$>
          ix.embedUses (left.map fun s => s.1.request)) ∧
    (∀ w report w', ix.rankCalls index target q vector limit o weights w = .ok report w' →
      report.total = uses.length ∧ report.sites.length ≤ limit ∧
      (report.sites.map fun s => s.site.place).Nodup ∧ ∀ s ∈ report.sites, s.site ∈ uses) ∧
    -- a number of uses has 64 bits
    (uses.length < UInt64.size → uses.length ≤ max 30 (4 * limit) → ∀ w got,
      (∀ u ∈ uses, ix.Obtains w (left.map fun s => s.1.item) u.item (got u)) →
      ∃ w', ix.rankCalls index target q vector limit o weights w =
        .ok ⟨exhaustive vector got o uses q weights limit, uses.length⟩ w') := by
  refine ⟨⟨length_leftUses_le _ q weights limit, fun hlimit => if_pos hlimit,
    rankCalls_eq ix index target q vector limit o weights⟩, fun w report w' h => ?_,
    fun hsize hfew w got hgot => rankCalls_of_obtains (le_survivorCount hfew hsize) hgot⟩
  obtain ⟨htotal, hlength, hsubperm⟩ := report_of_rankCalls h
  refine ⟨htotal, hlength, ?_, fun s hs => hsubperm.subset (List.mem_map_of_mem hs)⟩
  have hplaces := nodup_places_of_subperm hsubperm (nodup_places_usesOf index target)
  rwa [List.map_map] at hplaces

end Indexer

/-! ## A function that is called three times

The cache knows the vector of the first call. The other two are embedded, and two of the three calls
are asked for. -/

/-- A function that is declared in one file. -/
def greeting : Identifier :=
  ⟨"a.py:greet:1", "a.py", "", ⟨"greet", .function, 1, 1, "def greet():"⟩, none, "greet"⟩

/-- An index of this file and of others that call the function. -/
def greetingIndex : IdentifierIndex where
  identifiers := []
  vectors := []
  sources := .ofList [("a.py", "def greet():\n    pass\n"), ("b.py", "greet()\n"),
    ("c.py", "greet()\n"), ("d.py", "print(greet())\n")]
  stats := default

/-- The calls. -/
def greetingUses : List Use :=
  [⟨"b.py", 1, "greet()", "greet()"⟩, ⟨"c.py", 1, "greet()", "greet()"⟩,
    ⟨"d.py", 1, "print(greet())", "print(greet())"⟩]

/-- The calls are found, and the declaration is not taken for one. -/
theorem usesOf_greeting : usesOf greetingIndex greeting = greetingUses := by
  have hsources : greetingIndex.sources.toList =
      [("a.py", "def greet():\n    pass\n"), ("b.py", "greet()\n"), ("c.py", "greet()\n"),
        ("d.py", "print(greet())\n")] := by cbv
  rw [usesOf, hsources]
  decide

/-- The vectors that the provider gives. -/
def callVector (text : String) : Embedding :=
  if text = "c.py:1\ngreet()" then #[-1.0] else #[0.0]

/-- The vectors of the calls. -/
def greetingVector (u : Use) : Embedding :=
  if u.path = "b.py" then #[2.0] else callVector u.embeddingText

/-- A cache that knows the vector of the first call. -/
def greetingCache : Cache :=
  (∅ : Cache).insert (CacheKey.callSite "b.py" 1)
    ⟨contentHash "b.py:1\ngreet()", #[2.0]⟩

/-- A disk with this cache. -/
def greetingDisk : Disk :=
  (givingIndexer callVector).savedCache .identifiers greetingCache cachesOnly

theorem load_greetingDisk :
    ((givingIndexer callVector).store.load .identifiers greetingDisk).Equiv greetingCache := by
  refine (Indexer.saved_savedCache .identifiers (settled_cachesOnly #[2.0]).opens ?_).loaded
  intro key entry hkey
  rw [greetingCache, Std.TreeMap.getElem?_insert] at hkey
  split_ifs at hkey
  · cases hkey
    exact Embedding.storable_two
  · simp at hkey

/-- Only the first call is known. -/
theorem knows_greetingDisk {u : Use} (hu : u ∈ greetingUses) {v : Embedding} :
    ((givingIndexer callVector).store.load .identifiers greetingDisk).Knows u.item v ↔
      u.path = "b.py" ∧ v = #[2.0] := by
  rw [Cache.Knows, load_greetingDisk.getElem?_eq, greetingCache, Std.TreeMap.getElem?_insert]
  constructor
  · intro hknown
    split_ifs at hknown with hkey
    · have hplace := CacheKey.callSite_inj (Std.LawfulEqCmp.compare_eq_iff_eq.mp hkey)
      exact ⟨hplace.1.symm, (CacheEntry.mk.inj (Option.some.inj hknown)).2.symm⟩
    · simp at hknown
  · rintro ⟨hpath, rfl⟩
    obtain rfl : u = ⟨"b.py", 1, "greet()", "greet()"⟩ := by
      revert hpath
      revert u
      decide
    exact if_pos Std.ReflCmp.compare_self

/-- Each call gets its vector. -/
theorem obtains_greeting {items : List Item} {u : Use} (hu : u ∈ greetingUses)
    (hmem : u.item ∈ items) :
    (givingIndexer callVector).Obtains ⟨greetingDisk, ()⟩ items u.item (greetingVector u) := by
  rw [greetingVector]
  split_ifs with hpath
  · exact .inl ((knows_greetingDisk hu).mpr ⟨hpath, rfl⟩)
  · have hunknown : ∀ v, ¬((givingIndexer callVector).store.load .identifiers greetingDisk).Knows
        u.item v := fun v hv => hpath ((knows_greetingDisk hu).mp hv).1
    obtain ⟨memory, hanswers⟩ := Provider.gives_giving callVector
      (givingIndexer callVector).batching
      ((((givingIndexer callVector).store.load .identifiers greetingDisk).missing items).map
      Item.text) ()
    refine .inr ⟨hunknown, _, memory, hanswers, ?_⟩
    have hmissing : u.item ∈
        ((givingIndexer callVector).store.load .identifiers greetingDisk).missing items := by
      refine List.mem_filter.mpr ⟨hmem, ?_⟩
      rw [Cache.vector?_eq_none_iff_knows.mpr hunknown]
      rfl
    rw [List.map_map, ← List.map_prod_left_eq_zip]
    exact List.mem_map_of_mem hmissing

/-- A call with its scores. -/
def greetingSite (u : Use) : CallSite :=
  scoredSite #[1.0] greetingVector (.weighing 0.7 0.3 2)
    (u, (Query.ofText "print greet").score u.keywordText .standard)

/-- One stage puts the third call between the others. -/
theorem exhaustive_greeting :
    (exhaustive #[1.0] greetingVector (.weighing 0.7 0.3 2) greetingUses (.ofText "print greet")
      .standard 2).map (fun s => s.site.place) = [("b.py", 1), ("d.py", 1)] := by
  have hkept : (greetingUses.map greetingSite).filter
      (fun s => (RankOptions.weighing 0.7 0.3 2).admits s.scores) =
        greetingUses.map greetingSite := List.filter_eq_self.mpr (by decide +kernel)
  have hsorted := @mergeSort_sites_eq (greetingUses.map greetingSite)
    ([greetingUses[0], greetingUses[2], greetingUses[1]].map greetingSite) (by decide +kernel)
    ((List.Perm.cons _ (.swap _ _ _)).map _) (by decide +kernel)
  show ((((greetingUses.map greetingSite).filter _).mergeSort _).take 2).map _ = _
  rw [hkept, hsorted]
  rfl

/-- Of three calls two are reported. The provider prefers the first to the third, although the
keywords do not, and both to the second. -/
theorem Indexer.rankCalls_exact_greeting : ∃ report w',
    (givingIndexer callVector).rankCalls greetingIndex greeting (.ofText "print greet") #[1.0] 2
        (.weighing 0.7 0.3 2) .standard ⟨greetingDisk, ()⟩ = .ok report w' ∧
      report.total = 3 ∧ report.sites.map (fun s => s.site.place) = [("b.py", 1), ("d.py", 1)] := by
  obtain ⟨-, -, hexact⟩ := rankCalls_exact (givingIndexer callVector) greetingIndex greeting
    (.ofText "print greet") #[1.0] 2 (.weighing 0.7 0.3 2) .standard
  rw [usesOf_greeting] at hexact
  have hleft : leftUses greetingUses (.ofText "print greet") .standard 2 =
      prefilter greetingUses (.ofText "print greet") .standard 30 := if_neg two_ne_zero
  have hmem : ∀ u ∈ greetingUses, u.item ∈
      (leftUses greetingUses (.ofText "print greet") .standard 2).map fun s => s.1.item := by
    intro u hu
    have hall : greetingUses.length ≤ 30 := by decide
    rw [hleft, ((perm_prefilter greetingUses _ _ hall).map _).mem_iff, scoredUses, List.map_map]
    exact List.mem_map_of_mem hu
  obtain ⟨w', hreport⟩ := hexact (by decide) (by decide) ⟨greetingDisk, ()⟩ greetingVector
    fun u hu => obtains_greeting hu (hmem u hu)
  exact ⟨_, w', hreport, rfl, exhaustive_greeting⟩

end CodeAtlas
