import CodeAtlas.Proofs.Navigator.Groups

/-!
# The order of groups

Places that are collected by names come in groups that are in order themselves: the group whose
first place is least comes first, and the places of a group ascend. Both are seen by reading the
names one after the other. A name that was there before adds its place to the end of a group that is
there already, and a new name makes a new last group of this one place (`groupPlaces_concat_of_mem`,
`groupPlaces_concat_of_notMem`).

There are no more groups than names (`length_groupPlaces_le`). The clusters of points are named by
numbers below the number of centroids (`within_cluster`), whatever the distances come out as: a
search for the best of some things ends with one of them, even if no two of them can be compared
(`foldl_choose_mem`).

* `Partitions` — groups that part the places below a number, in order.
* **`groupPlaces_partitions`** — groups of places collected by names.
-/

namespace CodeAtlas.Navigator

/-! ## Places of a name -/

section

variable {names : List (Option Nat)} {name last : Option Nat} {p : Nat}

/-- The places of a name, in ascending order. -/
def placesOf (names : List (Option Nat)) (name : Option Nat) : List Nat :=
  (List.range names.length).filter fun p => names[p]? = some name

/-- Each group has the places of one name. -/
theorem groupPlaces_eq_map (names : List (Option Nat)) :
    groupPlaces names = names.eraseDups.map (placesOf names) :=
  groupPlaces_eq names

theorem mem_placesOf : p ∈ placesOf names name ↔ p < names.length ∧ names[p]? = some name := by
  simp [placesOf]

theorem placesOf_ne_nil (h : name ∈ names) : placesOf names name ≠ [] := by
  obtain ⟨p, hp, rfl⟩ := List.getElem_of_mem h
  exact List.ne_nil_of_mem (mem_placesOf.mpr ⟨hp, List.getElem?_eq_getElem hp⟩)

theorem placesOf_eq_nil (h : name ∉ names) : placesOf names name = [] := by
  refine List.eq_nil_iff_forall_not_mem.mpr fun p hp => ?_
  exact h (List.mem_of_getElem? (mem_placesOf.mp hp).2)

/-- One more name adds its place to its own places. -/
theorem placesOf_concat (names : List (Option Nat)) (last name : Option Nat) :
    placesOf (names ++ [last]) name =
      placesOf names name ++ if last = name then [names.length] else [] := by
  simp only [placesOf, ← filterMap_zipIdx_eq, List.zipIdx_append, List.filterMap_append]
  split <;> simp [*]

/-- One more name is new, or it changes nothing about the list of names. -/
theorem eraseDups_concat (names : List (Option Nat)) (last : Option Nat) :
    (names ++ [last]).eraseDups = names.eraseDups ++ if last ∈ names then [] else [last] := by
  rw [List.eraseDups_append]
  congr 1
  split <;> simp [List.removeAll, List.eraseDups_cons, *]

/-! ## One place after the other -/

/-- A name that was there before adds its place to the end of its group. -/
theorem groupPlaces_concat_of_mem (h : last ∈ names) :
    groupPlaces (names ++ [last]) =
      (groupPlaces names).modify (names.eraseDups.idxOf last) (· ++ [names.length]) := by
  have hnodup : names.eraseDups.Nodup := nodup_eraseDups names
  rw [groupPlaces_eq_map, groupPlaces_eq_map, eraseDups_concat, if_pos h, List.append_nil]
  refine List.ext_getElem (by simp) fun j hj _ => ?_
  rw [List.length_map] at hj
  rw [List.getElem_map, List.getElem_modify, List.getElem_map, placesOf_concat]
  by_cases hname : names.eraseDups[j] = last
  · have hidx : names.eraseDups.idxOf last = j := by rw [← hname, hnodup.idxOf_getElem]
    rw [if_pos hname.symm, if_pos hidx]
  · have hidx : names.eraseDups.idxOf last ≠ j := by
      rintro rfl
      exact hname (List.getElem_idxOf hj)
    rw [if_neg (Ne.symm hname), if_neg hidx, List.append_nil]

/-- A new name makes a new last group of its place. -/
theorem groupPlaces_concat_of_notMem (h : last ∉ names) :
    groupPlaces (names ++ [last]) = groupPlaces names ++ [[names.length]] := by
  rw [groupPlaces_eq_map, groupPlaces_eq_map, eraseDups_concat, if_neg h, List.map_append]
  congr 1
  · refine List.map_congr_left fun name hname => ?_
    have hne : last ≠ name := by
      rintro rfl
      exact h (List.mem_eraseDups.mp hname)
    rw [placesOf_concat, if_neg hne, List.append_nil]
  · simp [placesOf_concat, placesOf_eq_nil h]

/-! ## Groups in order -/

/-- The first places of groups. -/
def firstPlaces (groups : List (List Nat)) : List Nat :=
  groups.filterMap List.head?

/-- Groups part the places below `n`: each place is in one of them, none is empty, a group has its
places in ascending order, and the groups come in the order of their first places. -/
structure Partitions (groups : List (List Nat)) (n : Nat) : Prop where
  /-- together they have each place once -/
  covers : groups.flatten.Perm (List.range n)
  /-- no group is empty -/
  inhabited : ∀ group ∈ groups, group ≠ []
  /-- places ascend -/
  ascending : ∀ group ∈ groups, group.Pairwise (· < ·)
  /-- first places ascend -/
  ordered : (firstPlaces groups).Pairwise (· < ·)

/-- A place that is added to the end of a group is not its first one. -/
theorem firstPlaces_groupPlaces_concat (names : List (Option Nat)) (last : Option Nat) :
    firstPlaces (groupPlaces (names ++ [last])) =
      firstPlaces (groupPlaces names) ++ if last ∈ names then [] else [names.length] := by
  by_cases h : last ∈ names
  · rw [if_pos h, List.append_nil, groupPlaces_eq_map, groupPlaces_eq_map, eraseDups_concat,
      if_pos h, List.append_nil, firstPlaces, firstPlaces, List.filterMap_map, List.filterMap_map]
    refine List.filterMap_congr fun name hname => ?_
    have hsome := placesOf_ne_nil (List.mem_eraseDups.mp hname)
    simp only [Function.comp_apply, placesOf_concat, List.head?_append_of_ne_nil _ hsome]
  · rw [if_neg h, groupPlaces_concat_of_notMem h, firstPlaces, List.filterMap_append]
    rfl

theorem lt_of_mem_firstPlaces (h : p ∈ firstPlaces (groupPlaces names)) : p < names.length := by
  rw [groupPlaces_eq_map] at h
  obtain ⟨group, hgroup, hp⟩ := List.mem_filterMap.mp h
  obtain ⟨name, -, rfl⟩ := List.mem_map.mp hgroup
  exact (mem_placesOf.mp (List.mem_of_mem_head? hp)).1

/-- The first places ascend: a new group starts behind all places before it. -/
theorem pairwise_firstPlaces (names : List (Option Nat)) :
    (firstPlaces (groupPlaces names)).Pairwise (· < ·) := by
  induction names using List.reverseRecOn with
  | nil => exact List.Pairwise.nil
  | append_singleton names last ih =>
    rw [firstPlaces_groupPlaces_concat, List.pairwise_append]
    refine ⟨ih, by split <;> simp, fun p hp q hq => ?_⟩
    split at hq
    · cases hq
    · rw [List.mem_singleton.mp hq]
      exact lt_of_mem_firstPlaces hp

/-- **Groups of places that are collected by names part the places**, in the order of their first
places. -/
theorem groupPlaces_partitions (names : List (Option Nat)) :
    Partitions (groupPlaces names) names.length where
  covers := by
    obtain ⟨slots, hslots⟩ := groupPlaces_divides names
    exact hslots.flatten_perm
  inhabited := by
    intro group hgroup
    rw [groupPlaces_eq_map] at hgroup
    obtain ⟨name, hname, rfl⟩ := List.mem_map.mp hgroup
    exact placesOf_ne_nil (List.mem_eraseDups.mp hname)
  ascending := by
    intro group hgroup
    rw [groupPlaces_eq_map] at hgroup
    obtain ⟨name, -, rfl⟩ := List.mem_map.mp hgroup
    exact List.pairwise_lt_range.filter _
  ordered := pairwise_firstPlaces names

/-- Every place has a name, and the names are numbers below `k`. -/
def Within (k : Nat) (names : List (Option Nat)) : Prop :=
  ∀ name ∈ names, ∃ c < k, name = some c

theorem Within.mono {k l : Nat} (h : Within k names) (hkl : k ≤ l) : Within l names := by
  intro name hname
  obtain ⟨c, hc, rfl⟩ := h name hname
  exact ⟨c, Nat.lt_of_lt_of_le hc hkl, rfl⟩

/-- There are no more groups than there can be names. -/
theorem length_groupPlaces_le {k : Nat} (h : Within k names) : (groupPlaces names).length ≤ k := by
  have hsubset : names.eraseDups ⊆ (List.range k).map some := by
    intro name hname
    obtain ⟨c, hc, rfl⟩ := h name (List.mem_eraseDups.mp hname)
    exact List.mem_map_of_mem (List.mem_range.mpr hc)
  have hle := ((nodup_eraseDups names).subperm hsubset).length_le
  rwa [List.length_map, List.length_range, ← List.length_map (placesOf names),
    ← groupPlaces_eq_map] at hle

end

/-! ## The best of some -/

/-- Whatever is preferred to what, the search for the best ends with one of those that were looked
at. -/
theorem foldl_choose_mem {α : Type} (better : α → α → Prop) [∀ x y, Decidable (better x y)]
    (first : α) (rest : List α) :
    rest.foldl (fun best next => if better best next then next else best) first ∈ first ::
      rest := by
  induction rest generalizing first with
  | nil => exact List.mem_singleton_self first
  | cons next rest ih =>
    rw [List.foldl_cons]
    split
    · exact List.mem_cons_of_mem _ (ih next)
    · rcases List.mem_cons.mp (ih first) with heq | hmem
      · rw [heq]
        exact List.mem_cons_self
      · exact List.mem_cons_of_mem _ (List.mem_cons_of_mem _ hmem)

/-- The number of the best of some is one of their numbers. -/
theorem snd_foldl_choose_lt {α : Type} (better : α × Nat → α × Nat → Prop)
    [∀ x y, Decidable (better x y)] (x : α) {xs : List α} (hsome : xs ≠ []) :
    (xs.zipIdx.foldl (fun best next => if better best next then next else best) (x, 0)).2 <
      xs.length := by
  rcases List.mem_cons.mp (foldl_choose_mem better (x, 0) xs.zipIdx) with heq | hmem
  · rw [heq]
    exact List.length_pos_iff.mpr hsome
  · exact (List.mem_zipIdx' hmem).1

/-- The nearest centroid is one of the centroids. -/
theorem nearest_lt {centroids : List Point} (hsome : centroids ≠ []) (point : Point) :
    nearest centroids point < centroids.length := by
  have hmap : centroids.map (squaredDistance point) ≠ [] := by simpa using hsome
  have hlt := snd_foldl_choose_lt (fun best next => next.1 < best.1) infinite hmap
  rwa [List.length_map] at hlt

/-- The nearest landmark is one of the landmarks. -/
theorem nearestLandmark_lt {marks : List Embedding} (hsome : marks ≠ []) (v : Embedding) :
    nearestLandmark marks v < marks.length := by
  have hmap : marks.map (cosine v) ≠ [] := by simpa using hsome
  have hlt :=
    snd_foldl_choose_lt (fun best next => best.1 < next.1) (Float32.ofBits 0xFF800000) hmap
  rwa [List.length_map] at hlt

/-- At least two groups are asked for, and no more than the caller allows, if the caller allows two.
-/
theorem gapCount_bounds (values : List Float) (maxClusters : Nat) :
    2 ≤ gapCount values maxClusters ∧ gapCount values maxClusters ≤ max maxClusters 2 := by
  unfold gapCount
  extract_lets n upper
  split
  · exact ⟨le_rfl, le_max_right ..⟩
  · generalize hgaps : (List.range (upper + 1)).filterMap _ = gaps
    rcases List.mem_cons.mp
      (foldl_choose_mem (fun best gap => best.2 < gap.2) (2, -infinite) gaps) with heq | hmem
    · rw [widestGap, heq]
      exact ⟨le_rfl, le_max_right ..⟩
    · rw [widestGap]
      generalize gaps.foldl _ _ = best at hmem ⊢
      rw [← hgaps] at hmem
      simp only [List.mem_filterMap, List.mem_range, Bool.and_eq_true, decide_eq_true_eq,
        Option.ite_none_right_eq_some, Option.some.injEq] at hmem
      obtain ⟨k, hk, ⟨htwo, -⟩, rfl⟩ := hmem
      have hupper : upper ≤ maxClusters := Nat.min_le_left ..
      exact ⟨htwo, by omega⟩

/-! ## The names of clusters -/

section

variable {points : List Point}

/-- What is farthest is one of those that are looked at. -/
theorem exists_mem_of_farthest? {distances : List (Nat × Float)} {i : Nat}
    (h : farthest? distances = some i) : ∃ d, (i, d) ∈ distances := by
  cases distances with
  | nil => cases h
  | cons first rest =>
    obtain rfl := Option.some.inj h
    exact ⟨_, foldl_choose_mem (fun best next => best.2 < next.2) first rest⟩

/-- The point farthest from some seeds is a point. -/
theorem lt_of_farthest? {seeds : List Nat} {i : Nat}
    (h : farthest? (seedDistances points seeds) = some i) : i < points.length := by
  obtain ⟨d, hd⟩ := exists_mem_of_farthest? h
  obtain ⟨⟨point, k⟩, hmem, hk⟩ := List.mem_filterMap.mp hd
  simp only [Option.ite_none_left_eq_some, Option.some.injEq, Prod.mk.injEq] at hk
  rw [← hk.2.1]
  exact (List.mem_zipIdx' hmem).1

/-- Every seed is a point, if those before were. -/
theorem lt_of_mem_addSeeds {count : Nat} {seeds : List Nat} (h : ∀ i ∈ seeds, i < points.length) :
    ∀ i ∈ addSeeds points count seeds, i < points.length := by
  induction count generalizing seeds with
  | zero => exact h
  | succ count ih =>
    rw [addSeeds]
    split
    · next i hi =>
      refine ih fun j hj => ?_
      rcases List.mem_append.mp hj with hj | hj
      · exact h j hj
      · rw [List.mem_singleton.mp hj]
        exact lt_of_farthest? hi
    · exact h

theorem length_addSeeds_le (points : List Point) (count : Nat) (seeds : List Nat) :
    (addSeeds points count seeds).length ≤ seeds.length + count := by
  induction count generalizing seeds with
  | zero => exact le_rfl
  | succ count ih =>
    rw [addSeeds]
    split
    · next i _ =>
      have hle := ih (seeds ++ [i])
      rw [List.length_append, List.length_singleton] at hle
      omega
    · exact Nat.le_add_right ..

theorem length_le_length_addSeeds (points : List Point) (count : Nat) (seeds : List Nat) :
    seeds.length ≤ (addSeeds points count seeds).length := by
  induction count generalizing seeds with
  | zero => exact le_rfl
  | succ count ih =>
    rw [addSeeds]
    split
    · next i _ =>
      have hle := ih (seeds ++ [i])
      rw [List.length_append, List.length_singleton] at hle
      omega
    · exact le_rfl

/-- Every seed is a point. -/
theorem lt_of_mem_seedPlaces (hsome : points ≠ []) {k i : Nat} (h : i ∈ seedPlaces points k) :
    i < points.length := by
  refine lt_of_mem_addSeeds (fun j hj => ?_) i h
  rw [List.mem_singleton.mp hj]
  exact List.length_pos_iff.mpr hsome

/-- Places that there are have all been looked up. -/
theorem length_filterMap_getElem? {α : Type} {xs : List α} {places : List Nat}
    (h : ∀ p ∈ places, p < xs.length) : (places.filterMap (xs[·]?)).length = places.length := by
  rw [List.length_filterMap_eq_countP, List.countP_eq_length]
  intro p hp
  simpa using h p hp

/-- There is a first centroid, and there are at most as many as are asked for, and as there are
points. -/
theorem length_seedCentroids (hsome : points ≠ []) (k : Nat) :
    0 < (seedCentroids points k).length ∧
      (seedCentroids points k).length ≤ min (max k 1) points.length := by
  have hpoints : 0 < points.length := List.length_pos_iff.mpr hsome
  rw [seedCentroids, length_filterMap_getElem? fun i hi => lt_of_mem_seedPlaces hsome hi]
  have hle := length_addSeeds_le points (min (max k 1) points.length - 1) [0]
  have hge := length_le_length_addSeeds points (min (max k 1) points.length - 1) [0]
  rw [← seedPlaces, List.length_singleton] at hle hge
  omega

theorem within_assign {centroids : List Point} (hsome : centroids ≠ []) :
    Within centroids.length (assign points centroids) := by
  intro name hname
  obtain ⟨point, -, rfl⟩ := List.mem_map.mp hname
  exact ⟨_, nearest_lt hsome point, rfl⟩

theorem length_moveCentroids (points : List Point) (assignment : List (Option Nat))
    (centroids : List Point) :
    (moveCentroids points assignment centroids).length = centroids.length := by
  simp [moveCentroids]

/-- After at least one round every point has a cluster: the rounds stop early only after one in
which each point was given the cluster that it has. -/
theorem within_rounds {n : Nat} {c : Clustering} (hsome : c.centroids ≠ []) :
    Within c.centroids.length (rounds points (n + 1) c).assignment := by
  induction n generalizing c with
  | zero =>
    rw [rounds]
    split
    · next heq =>
      rw [← heq]
      exact within_assign hsome
    · exact within_assign hsome
  | succ n ih =>
    rw [rounds]
    split
    · next heq =>
      rw [← heq]
      exact within_assign hsome
    · have hlength := length_moveCentroids points (assign points c.centroids) c.centroids
      rw [← hlength]
      refine ih (List.length_pos_iff.mp ?_)
      rw [hlength]
      exact List.length_pos_iff.mpr hsome

/-- **Every point is in a cluster**, and the clusters have numbers below the one asked for. -/
theorem within_cluster (hsome : points ≠ []) (k n : Nat) :
    Within (min (max k 1) points.length) (cluster points k (n + 1)) := by
  obtain ⟨hpos, hle⟩ := length_seedCentroids hsome k
  exact (within_rounds (List.length_pos_iff.mp hpos)).mono hle

end

end CodeAtlas.Navigator
