import CodeAtlas.Proofs.Navigator.Division
import CodeAtlas.Proofs.Navigator.Lookups
import CodeAtlas.Proofs.Navigator.Nearest

/-!
# Clusters that stay

The rounds of a clustering stop early when a round would give every point the cluster that it has
(`Stops`). A round gives clusters first and moves the centroids after that, and the rounds stop in
between. That the centroids are the means of the clusters that are returned is therefore the work of
the round before: after any round a centroid is the mean of the points that are in its cluster by
then (`Meant`), whatever it was before, and a cluster without points is not spoken of. The first
round is never the last one, since no point has a cluster yet.

* `seeded_seedPlaces` — the first centroids are as many different points as are asked for.
* `Stops.meant`, `Stops.steady` — what holds where the rounds stop.
* **`clustering_fixedPoint`** — clusters and centroids belong to each other there, and more rounds
  change nothing.
-/

namespace CodeAtlas.Navigator

variable {points : List Point} {k n : Nat}

/-! ## Seeds -/

section

variable {seeds : List Nat} {count i : Nat}

theorem mem_seedDistances {d : Float} (h : (i, d) ∈ seedDistances points seeds) : i ∉ seeds := by
  obtain ⟨⟨point, p⟩, -, hp⟩ := List.mem_filterMap.mp h
  simp only [Option.ite_none_left_eq_some, Option.some.injEq, Prod.mk.injEq] at hp
  exact hp.2.1 ▸ hp.1

/-- What is farthest is no seed yet. -/
theorem notMem_of_farthest? (h : farthest? (seedDistances points seeds) = some i) : i ∉ seeds := by
  obtain ⟨d, hd⟩ := exists_mem_of_farthest? h
  exact mem_seedDistances hd

/-- As long as there are more points than seeds, there is a farthest one. -/
theorem exists_farthest? (h : seeds.length < points.length) :
    ∃ i, farthest? (seedDistances points seeds) = some i := by
  obtain ⟨p, hp, hnew⟩ : ∃ p < points.length, p ∉ seeds := by
    by_contra hall
    push Not at hall
    have hsubset : List.range points.length ⊆ seeds := fun p hp => hall p (List.mem_range.mp hp)
    have hle := (List.nodup_range.subperm hsubset).length_le
    rw [List.length_range] at hle
    omega
  have hmem : (p, leastDistance ((seeds.filterMap (points[·]?)).map (squaredDistance points[p]))) ∈
      seedDistances points seeds :=
    List.mem_filterMap.mpr
      ⟨(points[p], p), List.mem_zipIdx_iff_getElem?.mpr (List.getElem?_eq_getElem hp),
      if_neg hnew⟩
  cases hdistances : seedDistances points seeds with
  | nil => rw [hdistances] at hmem; cases hmem
  | cons first rest => exact ⟨_, rfl⟩

/-- While there are points enough, every new seed is another point. -/
theorem addSeeds_spec (hseeds : seeds.Nodup) (hcount : seeds.length + count ≤ points.length) :
    (addSeeds points count seeds).length = seeds.length + count ∧
      (addSeeds points count seeds).Nodup ∧
      seeds <+: addSeeds points count seeds := by
  induction count generalizing seeds with
  | zero => exact ⟨rfl, hseeds, List.prefix_rfl⟩
  | succ count ih =>
    have hroom : seeds.length < points.length := by omega
    obtain ⟨i, hi⟩ := exists_farthest? hroom
    have hnodup : (seeds ++ [i]).Nodup := by
      rw [← List.concat_eq_append]
      exact hseeds.concat (notMem_of_farthest? hi)
    have hlength : (seeds ++ [i]).length = seeds.length + 1 := List.length_append
    obtain ⟨hcount', hnodup', hprefix⟩ := ih hnodup (by omega)
    rw [addSeeds, hi]
    refine ⟨?_, hnodup', (List.prefix_append seeds [i]).trans hprefix⟩
    dsimp only
    omega

/-- The places of `count` different points, that of the first point first. -/
structure Seeded (points : List Point) (count : Nat) (seeds : List Nat) : Prop where
  /-- there are so many -/
  length : seeds.length = count
  /-- no place is there twice -/
  distinct : seeds.Nodup
  /-- the first point is the first one -/
  first : seeds.head? = some 0
  /-- they are places of points -/
  lt : ∀ p ∈ seeds, p < points.length

/-- **The first centroids are so many different points**, if there are as many. -/
theorem seeded_seedPlaces (hsome : points ≠ []) (k : Nat) :
    Seeded points (min (max k 1) points.length) (seedPlaces points k) := by
  have hpos : 0 < points.length := List.length_pos_iff.mpr hsome
  have hroom : [0].length + (min (max k 1) points.length - 1) ≤ points.length := by
    rw [List.length_singleton]
    omega
  obtain ⟨hlength, hnodup, ⟨rest, hrest⟩⟩ := addSeeds_spec (List.nodup_singleton 0) hroom
  rw [← seedPlaces] at hlength hnodup hrest
  refine ⟨?_, hnodup, by rw [← hrest]; rfl, fun p => lt_of_mem_seedPlaces hsome⟩
  rw [hlength, List.length_singleton]
  omega

end

/-! ## Rounds -/

/-- What one round comes to: every point goes to its nearest centroid, and the centroids move. -/
def nextRound (points : List Point) (c : Clustering) : Clustering :=
  ⟨moveCentroids points (assign points c.centroids) c.centroids, assign points c.centroids⟩

/-- No point would change its cluster. -/
def Steady (points : List Point) (c : Clustering) : Prop := assign points c.centroids = c.assignment

instance (points : List Point) (c : Clustering) : Decidable (Steady points c) :=
  inferInstanceAs (Decidable (assign points c.centroids = c.assignment))

/-- The rounds from `c` on stop at `d` because no point changes its cluster, in one of the first
`n`. -/
inductive Stops (points : List Point) : Nat → Clustering → Clustering → Prop where
  /-- in this round no point does -/
  | now {n : Nat} {c : Clustering} (h : Steady points c) : Stops points (n + 1) c c
  /-- in this round some point does, and they stop later -/
  | later {n : Nat} {c d : Clustering} (h : ¬ Steady points c)
    (rest : Stops points n (nextRound points c) d) :
    Stops points (n + 1) c d

/-- The centroid of every cluster that has points is their mean. -/
def Meant (points : List Point) (c : Clustering) : Prop :=
  ∀ (i : Nat) (centroid : Point), c.centroids[i]? = some centroid →
    membersOf points c.assignment i ≠ [] →
    centroid = mean (points.headD []).length (membersOf points c.assignment i)

section

variable {c d : Clustering}

/-- A centroid after it moved. -/
theorem getElem?_moveCentroids (points : List Point) (assignment : List (Option Nat))
    (centroids : List Point)
    (i : Nat) : (moveCentroids points assignment centroids)[i]? = centroids[i]?.map fun centroid =>
      if membersOf points assignment i = [] then centroid
      else mean (points.headD []).length (membersOf points assignment i) := by
  simp [moveCentroids, Function.comp_def]

/-- **After any round the centroids are the means of their clusters.** -/
theorem meant_nextRound (points : List Point) (c : Clustering) :
    Meant points (nextRound points c) := by
  intro i centroid hcentroid hsome
  rw [nextRound, getElem?_moveCentroids] at hcentroid
  obtain ⟨old, -, rfl⟩ := Option.map_eq_some_iff.mp hcentroid
  exact if_neg hsome

/-- If no point changes its cluster and the centroids are means already, a round changes nothing. -/
theorem nextRound_eq (hsteady : Steady points c) (hmeant : Meant points c) :
    nextRound points c = c := by
  have hcentroids : moveCentroids points c.assignment c.centroids = c.centroids := by
    refine List.ext_getElem? fun i => ?_
    rw [getElem?_moveCentroids]
    cases hcentroid : c.centroids[i]? with
    | none => rfl
    | some centroid =>
      rw [Option.map_some, Option.some_inj]
      split
      · rfl
      · next hsome => exact (hmeant i centroid hcentroid hsome).symm
  rw [nextRound, hsteady, hcentroids]

namespace Stops

/-- Where the rounds stop is what they come to. -/
theorem rounds_eq (h : Stops points n c d) : rounds points n c = d := by
  induction h with
  | now h => exact if_pos h
  | later h _ ih => exact (if_neg h).trans ih

/-- They stop there too if more rounds may be made. -/
theorem add (h : Stops points n c d) (more : Nat) : Stops points (n + more) c d := by
  induction h with
  | now h =>
    rw [Nat.add_right_comm]
    exact .now h
  | later h _ ih =>
    rw [Nat.add_right_comm]
    exact .later h ih

theorem steady (h : Stops points n c d) : Steady points d := by
  induction h with
  | now h => exact h
  | later _ _ ih => exact ih

/-- A round was made before they stop, unless they stop at once; either way the centroids are means.
-/
theorem meant (h : Stops points n c d) (hc : Steady points c → Meant points c) :
    Meant points d := by
  induction h with
  | now h => exact hc h
  | later _ _ ih => exact ih fun _ => meant_nextRound points _

end Stops

/-! ## Clusters and centroids that belong to each other -/

/-- The members of a cluster are the points at its places. -/
theorem membersOf_eq {assignment : List (Option Nat)} (h : assignment.length = points.length)
    (i : Nat) :
    membersOf points assignment i = (placesOf assignment (some i)).filterMap (points[·]?) := by
  have hlength : (points.zip assignment).length = assignment.length := by
    rw [List.length_zip, h, min_self]
  have hpairs := filterMap_filter_range (points.zip assignment)
    (q := fun p => assignment[p]? = some (some i)) (r := fun pair => pair.2 = some i) fun p hp => by
      rw [hlength] at hp
      simp [List.getElem?_eq_getElem hp]
  have hmembers : membersOf points assignment i =
      ((points.zip assignment).filter fun pair => pair.2 = some i).map (·.1) := by
    rw [membersOf, ← List.filterMap_eq_map, List.filterMap_filter]
    refine List.filterMap_congr fun pair _ => ?_
    simp
  rw [hmembers, ← hpairs, List.map_filterMap, hlength, placesOf]
  refine List.filterMap_congr fun p hp => ?_
  have hp : p < points.length := h ▸ List.mem_range.mp (List.mem_filter.mp hp).1
  rw [List.getElem?_eq_getElem (by rwa [hlength, h]), List.getElem?_eq_getElem hp]
  simp

/-- Centroids and clusters that belong to each other. -/
structure FixedPoint (points : List Point) (c : Clustering) : Prop where
  /-- every point is in the cluster of its nearest centroid, the first one among equals -/
  nearest : ∀ (p : Nat) (point : Point), points[p]? = some point →
    ∃ i value, c.assignment[p]? = some (some i) ∧
    FirstLeast (c.centroids.map (squaredDistance point)) i value
  /-- the centroid of a cluster with points is the mean of the points at its places -/
  means : ∀ (i : Nat) (centroid : Point), c.centroids[i]? = some centroid →
    placesOf c.assignment (some i) ≠ [] →
    centroid =
      mean (points.headD []).length ((placesOf c.assignment (some i)).filterMap (points[·]?))
  /-- one more round changes neither the clusters nor the centroids -/
  still : nextRound points c = c

/-- If no point would change its cluster and the centroids are means, they belong to each other. -/
theorem fixedPoint_of_steady (hsome : c.centroids ≠ []) (hsteady : Steady points c)
    (hmeant : Meant points c) :
    FixedPoint points c := by
  have hlength : c.assignment.length = points.length := by
    rw [← hsteady, assign, List.length_map]
  refine ⟨fun p point hpoint => ?_, fun i centroid hcentroid hplaces => ?_,
    nextRound_eq hsteady hmeant⟩
  · obtain ⟨value, hvalue⟩ := nearest_firstLeast hsome point
    refine ⟨nearest c.centroids point, value, ?_, hvalue⟩
    rw [← hsteady, assign, List.getElem?_map, hpoint]
    rfl
  · rw [← membersOf_eq hlength]
    refine hmeant i centroid hcentroid ?_
    rw [membersOf_eq hlength, ← List.length_pos_iff, length_filterMap_getElem?, List.length_pos_iff]
    · exact hplaces
    · intro p hp
      exact hlength ▸ (mem_placesOf.mp hp).1

end

/-! ## The clustering -/

/-- Before the first round no point has a cluster. -/
def beforeRounds (points : List Point) (k : Nat) : Clustering :=
  ⟨seedCentroids points k, points.map fun _ => none⟩

/-- In the first round every point gets a cluster. -/
theorem not_steady_beforeRounds (hsome : points ≠ []) (k : Nat) :
    ¬ Steady points (beforeRounds points k) := by
  cases points with
  | nil => exact absurd rfl hsome
  | cons first rest => exact fun h => nomatch (List.cons.inj h).1

theorem Stops.length_centroids {c d : Clustering} (h : Stops points n c d) :
    d.centroids.length = c.centroids.length := by
  induction h with
  | now _ => rfl
  | later _ _ ih => exact ih.trans (length_moveCentroids ..)

/-- **Where no point changes its cluster any more, clusters and centroids belong to each other.**
For any points, whose components may be any doubles, at least one of them, any number of clusters
and at least one round:
* the first centroids are different points, as many as are asked for and there are, the first point
  first;
* every point is returned with a cluster, which is that of one of these centroids;
* if the rounds stop because no point changes its cluster, every point is in the cluster of the
  first of the nearest centroids, and the centroid of every cluster with points is their mean
  (`FixedPoint`). One round more changes nothing, and what is returned is the same however many more
  may be made. -/
theorem clustering_fixedPoint (hsome : points ≠ []) (k : Nat) (hrounds : 0 < n) :
    (Seeded points (min (max k 1) points.length) (seedPlaces points k) ∧
      lookUp? points (seedPlaces points k) = some (seedCentroids points k)) ∧
    ((cluster points k n).length = points.length ∧
      Within (min (max k 1) points.length) (cluster points k n)) ∧
    ∀ c, Stops points n (beforeRounds points k) c →
      FixedPoint points c ∧ ∀ more, clustering points k (n + more) = c := by
  obtain ⟨rounds, rfl⟩ := Nat.exists_eq_add_of_lt hrounds
  rw [Nat.zero_add]
  have hseeds := seeded_seedPlaces hsome k
  refine ⟨⟨hseeds, lookUp?_eq hseeds.lt⟩, ⟨length_cluster points k _, within_cluster hsome k _⟩,
    fun c hstops => ?_⟩
  have hcentroids : c.centroids ≠ [] := by
    rw [← List.length_pos_iff, hstops.length_centroids]
    exact (length_seedCentroids hsome k).1
  have hmeant := hstops.meant fun h => absurd h (not_steady_beforeRounds hsome k)
  exact ⟨fixedPoint_of_steady hcentroids hstops.steady hmeant,
    fun more => (hstops.add more).rounds_eq⟩

/-- Four points, one of which is not a number: it becomes a centroid that no point is ever near to,
and makes the mean of its own cluster no number. The rounds stop with the third. -/
theorem clustering_fixedPoint_notANumber :
    let points : List Point := [[0], [0 / 0], [4], [1]]
    points ≠ [] ∧ 0 < 3 ∧ Seeded points 3 (seedPlaces points 3) ∧
      ∃ c, Stops points 3 (beforeRounds points 3) c ∧
        c.assignment = [some 2, some 0, some 2, some 2] ∧
        FixedPoint points c ∧ ∀ more, clustering points 3 (3 + more) = c := by
  intro points
  have hsome : points ≠ [] := List.cons_ne_nil _ _
  obtain ⟨⟨hseeds, -⟩, -, hfixed⟩ := clustering_fixedPoint hsome 3 (n := 3) (by decide)
  have hstops : Stops points 3 (beforeRounds points 3)
      (nextRound points (nextRound points (beforeRounds points 3))) :=
    .later (by decide +kernel) (.later (by decide +kernel) (.now (by decide +kernel)))
  exact ⟨hsome, by decide, hseeds, _, hstops, by decide +kernel, hfixed _ hstops⟩

end CodeAtlas.Navigator
