import CodeAtlas.Proofs.Navigator.Order

/-!
# Every lookup succeeds

The division of vectors goes through many lists by number: eigenvalues by the number of groups, rows
by seeds, vectors by the places of landmarks, a table of groups by landmarks, and slots by the names
of clusters. Here it is carried out once more with each of these a lookup that may fail, and a
failure of one a failure of all (`partition?`), with tables that are written place by place. None of
it can fail, whatever the numbers are: neither the vectors matter nor what is found for eigenvalues
and eigenvectors (`Solver`).

A table that is written step by step is known at each step: after some names the slots and the
groups are those of these names (`Collecting.after`), and after some groups the table has the group
of each place (`groupTable?_eq`).

* `partition?` — the division with lookups that may fail.
* **`spectralPartition_found`** — it succeeds with any solver, its groups part the places, and with
  rotations as the solver it gives the groups of `spectralPartition`.
-/

namespace CodeAtlas.Navigator

/-! ## Lookups -/

/-- The elements at some places. -/
def lookUp? {α : Type} (xs : List α) (places : List Nat) : Option (List α) :=
  places.mapM fun p => xs[p]?

/-- All steps succeed together if and only if each of them does. -/
theorem mapM_eq_some_iff {α β : Type} {f : α → Option β} {xs : List α} {ys : List β} :
    xs.mapM f = some ys ↔ xs.map f = ys.map some := by
  induction xs generalizing ys with
  | nil => cases ys <;> simp
  | cons x xs ih =>
    rw [List.mapM_cons]
    cases ys with
    | nil => simp [Option.bind_eq_bind, Option.bind_eq_some_iff]
    | cons y ys =>
      simp only [Option.bind_eq_bind, Option.bind_eq_some_iff, Option.pure_def, Option.some.injEq,
        List.cons.injEq, List.map_cons, ← ih]
      constructor
      · rintro ⟨z, hz, zs, hzs, rfl, rfl⟩
        exact ⟨hz, hzs⟩
      · rintro ⟨hy, hys⟩
        exact ⟨y, hy, ys, hys, rfl, rfl⟩

theorem mapM_eq_some {α β : Type} {f : α → Option β} {g : α → β} {xs : List α}
    (h : ∀ x ∈ xs, f x = some (g x)) : xs.mapM f = some (xs.map g) := by
  refine mapM_eq_some_iff.mpr ?_
  rw [List.map_map]
  exact List.map_congr_left h

theorem lookUp?_eq {α : Type} {xs : List α} {places : List Nat} (h : ∀ p ∈ places, p < xs.length) :
    lookUp? xs places = some (places.filterMap fun p => xs[p]?) := by
  refine mapM_eq_some_iff.mpr ?_
  induction places with
  | nil => rfl
  | cons p places ih =>
    have hlt : p < xs.length := h p List.mem_cons_self
    have hp : xs[p]? = some xs[p] := List.getElem?_eq_getElem hlt
    rw [List.filterMap_cons_some hp, List.map_cons, List.map_cons, hp,
      ih fun q hq => h q (List.mem_cons_of_mem _ hq)]

/-- The elements at the first places. -/
theorem lookUp?_range {α : Type} (xs : List α) (k : Nat) :
    lookUp? xs (List.range (min k xs.length)) = some (xs.take k) := by
  refine mapM_eq_some_iff.mpr (List.ext_getElem (by simp) fun i hi _ => ?_)
  rw [List.length_map, List.length_range] at hi
  simp [List.getElem?_eq_getElem (show i < xs.length by omega)]

/-! ## The number of groups -/

/-- A gap between two eigenvalues that follow each other, with its number. -/
def gap? (values : List Float) (k : Nat) : Option (Nat × Float) := do
  let above ← values[k]?
  let below ← values[k - 1]?
  return (k, above - below)

/-- The number of groups that eigenvalues suggest. -/
def gapCount? (values : List Float) (maxClusters : Nat) : Option Nat :=
  let n := values.length
  if n < 3 then some 2
  else
    let upper := min maxClusters (floorSqrt n)
    (((List.range (upper + 1)).filter fun k => 2 ≤ k && k < n).mapM (gap? values)).map widestGap

theorem gapCount?_eq (values : List Float) (maxClusters : Nat) :
    gapCount? values maxClusters = some (gapCount values maxClusters) := by
  unfold gapCount? gapCount
  extract_lets n upper
  split
  · rfl
  · have hgap : ∀ k ∈ (List.range (upper + 1)).filter (fun k => 2 ≤ k && k < n),
        gap? values k = some (k, values.getD k 0 - values.getD (k - 1) 0) := by
      intro k hk
      have hlt : 2 ≤ k ∧ k < values.length := by simpa using (List.mem_filter.mp hk).2
      simp [gap?, List.getElem?_eq_getElem hlt.2,
        List.getElem?_eq_getElem (show k - 1 < values.length by omega)]
    rw [mapM_eq_some hgap, Option.map_some, ← List.filterMap_eq_map, List.filterMap_filter]
    rfl

/-! ## Clusters of points -/

/-- The first entries of a row, brought to length one. -/
def normalizedRow? (k : Nat) (row : List Float) : Option Point :=
  (lookUp? row (List.range (min k row.length))).map (normalizedRow k)

theorem normalizedRow?_eq (k : Nat) (row : List Float) :
    normalizedRow? k row = some (normalizedRow k row) := by
  rw [normalizedRow?, lookUp?_range, Option.map_some, normalizedRow, List.take_take, min_self]
  rfl

/-- The points that are not seeds yet, with their distances to the nearest seed. -/
def seedDistances? (points : List Point) (seeds : List Nat) : Option (List (Nat × Float)) :=
  (lookUp? points seeds).map fun centroids =>
    points.zipIdx.filterMap fun (point, i) =>
      if i ∈ seeds then none else some (i, leastDistance (centroids.map (squaredDistance point)))

/-- Adds seeds, each as far as possible from those before it. -/
def addSeeds? (points : List Point) : Nat → List Nat → Option (List Nat)
  | 0, seeds => some seeds
  | count + 1, seeds => do
    match farthest? (← seedDistances? points seeds) with
    | some i => addSeeds? points count (seeds ++ [i])
    | none => some seeds

/-- The cluster of each point. -/
def cluster? (points : List Point) (k maxRounds : Nat) : Option (List (Option Nat)) :=
  if points.isEmpty then some []
  else do
    let seeds ← addSeeds? points (min (max k 1) points.length - 1) [0]
    let centroids ← lookUp? points seeds
    return (rounds points maxRounds ⟨centroids, points.map fun _ => none⟩).assignment

theorem addSeeds?_eq {points : List Point} {count : Nat} {seeds : List Nat}
    (h : ∀ i ∈ seeds, i < points.length) :
    addSeeds? points count seeds = some (addSeeds points count seeds) := by
  induction count generalizing seeds with
  | zero => rfl
  | succ count ih =>
    have hdistances : seedDistances? points seeds = some (seedDistances points seeds) := by
      rw [seedDistances?, lookUp?_eq h]
      rfl
    rw [addSeeds?, addSeeds, hdistances, Option.bind_eq_bind, Option.bind_some]
    cases hi : farthest? (seedDistances points seeds) with
    | none => rfl
    | some i =>
      refine ih fun j hj => ?_
      rcases List.mem_append.mp hj with hj | hj
      · exact h j hj
      · rw [List.mem_singleton.mp hj]
        exact lt_of_farthest? hi

theorem cluster?_eq {points : List Point} (hsome : points ≠ []) (k maxRounds : Nat) :
    cluster? points k maxRounds = some (cluster points k maxRounds) := by
  have hfirst : ∀ i ∈ [0], i < points.length := by
    intro i hi
    rw [List.mem_singleton.mp hi]
    exact List.length_pos_iff.mpr hsome
  have hseeds : ∀ i ∈ seedPlaces points k, i < points.length := fun i => lt_of_mem_seedPlaces hsome
  rw [cluster?, if_neg (by simpa using hsome), addSeeds?_eq hfirst, ← seedPlaces,
    Option.bind_eq_bind, Option.bind_some, lookUp?_eq hseeds]
  rfl

/-! ## Collecting places by names -/

/-- Places on their way into groups: for each name the slot of its group, if it has one, and the
groups. -/
structure Collecting where
  /-- the slots -/
  slots : List (Option Nat)
  /-- the groups -/
  groups : List (List Nat)

namespace Collecting

/-- Adds a place to the group in a slot. -/
def push? (c : Collecting) (slot place : Nat) : Option Collecting :=
  c.groups[slot]?.map fun group => { c with groups := c.groups.set slot (group ++ [place]) }

/-- Adds a place by its name. A name without a slot gets one, with a new group. -/
def add? (c : Collecting) (place name : Nat) : Option Collecting := do
  match ← c.slots[name]? with
  | some slot => c.push? slot place
  | none =>
    push? ⟨c.slots.set name (some c.groups.length), c.groups ++ [[]]⟩ c.groups.length place

variable {names : List (Option Nat)} {k m : Nat}

/-- The slot of a name after some names. -/
def slotOf (names : List (Option Nat)) (m : Nat) : Option Nat :=
  if some m ∈ names then some (names.eraseDups.idxOf (some m)) else none

/-- What has been collected after some names, all of them below `k`. -/
def after (k : Nat) (names : List (Option Nat)) : Collecting :=
  ⟨(List.range k).map (slotOf names), groupPlaces names⟩

theorem after_nil : after k [] = ⟨List.replicate k none, []⟩ := by
  have hnone : slotOf [] = fun _ => none := by
    funext m
    simp [slotOf]
  simp [after, hnone, groupPlaces, List.map_const']

/-- A name that was there before changes no slot. -/
theorem slotOf_concat_of_mem (h : some m ∈ names) : slotOf (names ++ [some m]) = slotOf names := by
  funext l
  by_cases hl : l = m
  · subst hl
    simp [slotOf, eraseDups_concat, h]
  · simp [slotOf, eraseDups_concat, h, hl]

/-- A new name gets the slot behind all others. -/
theorem slotOf_concat_of_notMem (h : some m ∉ names) (l : Nat) :
    slotOf (names ++ [some m]) l = if l =
      m then some (groupPlaces names).length else slotOf names l := by
  have hnew : some m ∉ names.eraseDups := mt List.mem_eraseDups.mp h
  rw [slotOf, eraseDups_concat, if_neg h, groupPlaces_eq_map, List.length_map]
  by_cases hl : l = m
  · subst hl
    rw [if_pos (by simp), if_pos rfl, List.idxOf_append_of_notMem hnew]
    simp
  · rw [if_neg hl]
    by_cases hmem : some l ∈ names
    · rw [if_pos (by simp [hmem]), slotOf, if_pos hmem,
        List.idxOf_append_of_mem (List.mem_eraseDups.mpr hmem)]
    · rw [if_neg (by simp [hmem, hl]), slotOf, if_neg hmem]

/-- One more name below `k` finds its slot, and the slot its group. -/
theorem after_add? (names : List (Option Nat)) (hm : m < k) :
    (after k names).add? names.length m = some (after k (names ++ [some m])) := by
  have hslot : (after k names).slots[m]? = some (slotOf names m) := by
    rw [after, List.getElem?_map, List.getElem?_range hm]
    rfl
  rw [add?, hslot, Option.bind_eq_bind, Option.bind_some]
  by_cases h : some m ∈ names
  · have hj : names.eraseDups.idxOf (some m) < (groupPlaces names).length := by
      rw [groupPlaces_eq_map, List.length_map]
      exact List.idxOf_lt_length_of_mem (List.mem_eraseDups.mpr h)
    rw [slotOf, if_pos h]
    simp only [push?, after, List.getElem?_eq_getElem hj, Option.map_some, slotOf_concat_of_mem h,
      groupPlaces_concat_of_mem h, List.modify_eq_set_getElem?]
    rfl
  · rw [slotOf, if_neg h]
    have hslots : ((List.range k).map (slotOf names)).set m (some (groupPlaces names).length) =
        (List.range k).map (slotOf (names ++ [some m])) := by
      refine List.ext_getElem (by simp) fun l hl _ => ?_
      rw [List.length_set, List.length_map, List.length_range] at hl
      simp [List.getElem_set, slotOf_concat_of_notMem h, eq_comm]
    simp [push?, after, hslots, groupPlaces_concat_of_notMem h]

end Collecting

/-- The places of points by their names, which are below `k`. -/
def collect? (names : List (Option Nat)) (k : Nat) : Option (List (List Nat)) :=
  (names.zipIdx.foldlM (fun (c : Collecting) (entry : Option Nat × Nat) =>
    entry.1.bind (c.add? entry.2)) ⟨List.replicate k none, []⟩).map (·.groups)

/-- Names below `k` are all collected. The induction adds one name at the end, as the collecting
does. -/
theorem collect?_eq {names : List (Option Nat)} {k : Nat} (h : Within k names) :
    collect? names k = some (groupPlaces names) := by
  have hrun : names.zipIdx.foldlM (fun (c : Collecting) (entry : Option Nat × Nat) =>
      entry.1.bind (c.add? entry.2)) (Collecting.after k []) = some (Collecting.after k names) := by
    induction names using List.reverseRecOn with
    | nil => rfl
    | append_singleton names last ih =>
      obtain ⟨m, hm, rfl⟩ := h last (by simp)
      have hstep := Collecting.after_add? names hm
      rw [List.zipIdx_append, List.foldlM_append,
        ih fun name hname => h name (List.mem_append_left _ hname)]
      simp [hstep]
  rw [collect?, ← Collecting.after_nil, hrun]
  rfl

/-! ## The table of landmarks -/

/-- Writes a group at a place of a table. -/
def write? (g : Nat) (table : List Nat) (place : Nat) : Option (List Nat) :=
  if place < table.length then some (table.set place g) else none

/-- The group of each place below `size`, written group by group. -/
def groupTable? (groups : List (List Nat)) (size : Nat) : Option (List Nat) :=
  groups.zipIdx.foldlM (fun table (members, g) => members.foldlM (write? g) table)
    (List.replicate size 0)

/-- The members of a group have it in the table, and no other place has changed. -/
theorem foldlM_write? {members : List Nat} {size : Nat} (h : ∀ p ∈ members, p < size) (g : Nat)
    (f : Nat → Nat) : members.foldlM (write? g) ((List.range size).map f) =
      some ((List.range size).map fun p => if p ∈ members then g else f p) := by
  induction members generalizing f with
  | nil => simp
  | cons p members ih =>
    have hp : p < size := h p List.mem_cons_self
    have hset : ((List.range size).map f).set p g =
        (List.range size).map fun q => if q = p then g else f q := by
      refine List.ext_getElem (by simp) fun q hq _ => ?_
      simp [List.getElem_set, eq_comm]
    rw [List.foldlM_cons, write?, if_pos (by simpa using hp), hset, Option.bind_eq_bind,
      Option.bind_some, ih fun q hq => h q (List.mem_cons_of_mem _ hq)]
    refine congrArg some (List.map_congr_left fun q _ => ?_)
    by_cases hmem : q ∈ members <;> simp [hmem]

/-- One more group is that of its own members. -/
theorem groupOf_concat {groups : List (List Nat)} {members : List Nat}
    (h : ∀ p ∈ members, p ∉ groups.flatten) (p : Nat) :
    groupOf (groups ++ [members]) p = if p ∈ members then groups.length else groupOf groups p := by
  have hfound : groups.findIdx (·.contains p) < groups.length ↔ p ∈ groups.flatten := by
    simp [List.findIdx_lt_length]
  rw [groupOf, groupOf, List.findIdx_append, List.length_append, List.length_singleton]
  by_cases hflat : p ∈ groups.flatten
  · have hmem : p ∉ members := fun hp => h p hp hflat
    have hlt := hfound.mpr hflat
    simp only [if_pos hlt, if_neg hmem, if_pos (Nat.lt_succ_of_lt hlt)]
  · have hlt := mt hfound.mp hflat
    by_cases hmem : p ∈ members
    · have hcontains : members.contains p = true := List.contains_iff_mem.mpr hmem
      simp [-List.contains_eq_mem, List.findIdx_cons, hlt, hmem, hcontains]
    · have hcontains : members.contains p = false := by simpa using hmem
      simp [-List.contains_eq_mem, List.findIdx_cons, hlt, hmem, hcontains]

/-- The group of a place is one of the groups, if there is one. -/
theorem groupOf_lt {groups : List (List Nat)} (hsome : groups ≠ []) (p : Nat) :
    groupOf groups p < groups.length := by
  rw [groupOf]
  split
  · assumption
  · exact List.length_pos_iff.mpr hsome

/-- **The table is written**, and has the group of each place, if no place is in two groups. -/
theorem groupTable?_eq {groups : List (List Nat)} {size : Nat} (hnodup : groups.flatten.Nodup)
    (hlt : ∀ p ∈ groups.flatten, p < size) :
    groupTable? groups size = some ((List.range size).map (groupOf groups)) := by
  induction groups using List.reverseRecOn with
  | nil =>
    have hzero : groupOf [] = fun _ => 0 := by
      funext p
      simp [groupOf]
    simp [groupTable?, hzero, List.map_const']
  | append_singleton groups members ih =>
    rw [List.flatten_append, List.flatten_singleton] at hnodup hlt
    obtain ⟨hgroups, -, hapart⟩ := List.nodup_append.mp hnodup
    have hbefore := ih hgroups fun p hp => hlt p (List.mem_append_left _ hp)
    rw [groupTable?] at hbefore
    rw [groupTable?, List.zipIdx_append, List.foldlM_append, hbefore]
    have hwritten := foldlM_write? (fun p hp => hlt p (List.mem_append_right _ hp)) groups.length
      (groupOf groups)
    simp only [List.zipIdx_singleton, List.foldlM_cons, List.foldlM_nil, Option.bind_eq_bind,
      Option.bind_some, zero_add, hwritten]
    refine congrArg some (List.map_congr_left fun p _ => (groupOf_concat ?_ p).symm)
    intro q hq hmem
    exact hapart q hmem q hq rfl

/-- The group of the nearest landmark stands in the table. -/
theorem mapM_nearestLandmark {marks : List Embedding} (hsome : marks ≠ [])
    (vectors : List Embedding) (group : Nat → Nat) :
    (vectors.mapM fun v => ((List.range marks.length).map group)[nearestLandmark marks v]?) =
      some (vectors.map fun v => group (nearestLandmark marks v)) := by
  refine mapM_eq_some fun v _ => ?_
  rw [List.getElem?_map, List.getElem?_range (nearestLandmark_lt hsome v)]
  rfl

/-! ## Groups of vectors -/

/-- A way to find eigenvalues and eigenvectors of matrices. Nothing is said about the numbers, nor
about how many are found. -/
structure Solver where
  /-- eigenvalues with their eigenvectors -/
  pairs : {n : Nat} → Square Float n → List (Float × Vector Float n)

/-- Eigenvalues and eigenvectors by rotations. -/
def Solver.jacobi : Solver := ⟨eigenPairs⟩

/-- The groups of some vectors by the eigenvectors of their Laplacian. -/
def dividedBySpectrum? (solver : Solver) (vectors : List Embedding) (maxClusters : Nat) :
    Option (List (List Nat)) := do
  let pairs := solver.pairs (laplacian (affinity vectors.toArray.toVector))
  let k := min (← gapCount? (pairs.map (·.1)) (max maxClusters 2)) vectors.length
  let rows ← (rowsOf (pairs.map (·.2))).mapM (normalizedRow? k)
  collect? (← cluster? rows k maxRounds) k

/-- Evenly spaced vectors. -/
def landmarks? (vectors : List Embedding) : Option (List Embedding) :=
  lookUp? vectors
    ((List.range maxSpectralPoints).map fun i => i * vectors.length / maxSpectralPoints)

theorem landmarks?_eq {vectors : List Embedding} (hsome : vectors ≠ []) :
    landmarks? vectors = some (landmarks vectors) := by
  rw [landmarks?, lookUp?_eq, landmarks, List.filterMap_map]
  · simp
  · intro p hp
    obtain ⟨i, hi, rfl⟩ := List.mem_map.mp hp
    have hpos : 0 < vectors.length := List.length_pos_iff.mpr hsome
    exact (Nat.div_lt_iff_lt_mul (by decide)).mpr
      (by rw [Nat.mul_comm]; exact Nat.mul_lt_mul_of_pos_left (List.mem_range.mp hi) hpos)

theorem length_landmarks? {vectors marks : List Embedding} (h : landmarks? vectors = some marks) :
    marks.length = maxSpectralPoints := by
  have hlength := congrArg List.length (mapM_eq_some_iff.mp h)
  simpa using hlength.symm

/-- The groups of some vectors. Of many vectors the landmarks are divided first. -/
def partition? (solver : Solver) (vectors : List Embedding) (maxClusters : Nat) :
    Option (List (List Nat)) :=
  if vectors.length < 2 then some [List.range vectors.length]
  else if _hmany : maxSpectralPoints < vectors.length then
    match _hmarks : landmarks? vectors with
    | none => none
    | some marks => do
      let groups ← partition? solver marks maxClusters
      let table ← groupTable? groups marks.length
      let names ← vectors.mapM fun v => table[nearestLandmark marks v]?
      collect? (names.map some) groups.length
  else dividedBySpectrum? solver vectors maxClusters
termination_by vectors.length
decreasing_by exact length_landmarks? _hmarks ▸ _hmany

/-! ## What is found -/

namespace Solver

/-- Eigenvalues and eigenvectors of the Laplacian of some vectors. -/
def spectrum (solver : Solver) (vectors : List Embedding) :
    List (Float × Vector Float vectors.toArray.size) :=
  solver.pairs (laplacian (affinity vectors.toArray.toVector))

/-- The number of groups that are looked for. -/
def groupCount (solver : Solver) (vectors : List Embedding) (maxClusters : Nat) : Nat :=
  min (gapCount ((solver.spectrum vectors).map (·.1)) (max maxClusters 2)) vectors.length

/-- The cluster of each vector. -/
def clusters (solver : Solver) (vectors : List Embedding) (maxClusters : Nat) : List (Option Nat) :=
  let k := solver.groupCount vectors maxClusters
  cluster ((rowsOf ((solver.spectrum vectors).map (·.2))).map (normalizedRow k)) k maxRounds

/-- The cluster of each vector, or the group of its landmark. -/
def names (solver : Solver) (vectors : List Embedding) (maxClusters : Nat) : List (Option Nat) :=
  if maxSpectralPoints < vectors.length then
    let marks := landmarks vectors
    let groups := groupPlaces (solver.clusters marks maxClusters)
    vectors.map fun v => some (groupOf groups (nearestLandmark marks v))
  else solver.clusters vectors maxClusters

variable (solver : Solver) {vectors : List Embedding} (maxClusters : Nat)

/-- The points that stand for vectors. -/
theorem length_rows (vectors : List Embedding) (k : Nat) :
    ((rowsOf ((solver.spectrum vectors).map (·.2))).map (normalizedRow k)).length =
      vectors.length := by
  rw [List.length_map, length_rowsOf, List.size_toArray]

theorem length_clusters : (solver.clusters vectors maxClusters).length = vectors.length := by
  rw [clusters, length_cluster, length_rows]

theorem length_names : (solver.names vectors maxClusters).length = vectors.length := by
  rw [names]
  split
  · exact List.length_map ..
  · exact length_clusters solver maxClusters

theorem groupCount_le : solver.groupCount vectors maxClusters ≤ max 2 maxClusters := by
  have hle := (gapCount_bounds ((solver.spectrum vectors).map (·.1)) (max maxClusters 2)).2
  rw [groupCount]
  omega

/-- Each cluster has a number below the number of groups that are looked for. -/
theorem within_clusters (hsome : vectors ≠ []) :
    Within (solver.groupCount vectors maxClusters) (solver.clusters vectors maxClusters) := by
  have hpos : 0 < vectors.length := List.length_pos_iff.mpr hsome
  have htwo := (gapCount_bounds ((solver.spectrum vectors).map (·.1)) (max maxClusters 2)).1
  have hlength := solver.length_rows vectors (solver.groupCount vectors maxClusters)
  refine (within_cluster ?_ (solver.groupCount vectors maxClusters) 49).mono ?_
  · rw [← List.length_pos_iff, hlength]
    exact hpos
  · rw [hlength, groupCount]
    omega

theorem dividedBySpectrum?_eq (hsome : vectors ≠ []) :
    dividedBySpectrum? solver vectors maxClusters =
    some (groupPlaces (solver.clusters vectors maxClusters)) := by
  have hrows : (rowsOf ((solver.spectrum vectors).map (·.2))).map
      (normalizedRow (solver.groupCount vectors maxClusters)) ≠ [] := by
    rw [← List.length_pos_iff, length_rows]
    exact List.length_pos_iff.mpr hsome
  have hfound := mapM_eq_some fun row (_ : row ∈ rowsOf ((solver.spectrum vectors).map (·.2))) =>
    normalizedRow?_eq (solver.groupCount vectors maxClusters) row
  rw [dividedBySpectrum?, gapCount?_eq, Option.bind_eq_bind, Option.bind_some, ← spectrum,
    ← groupCount]
  extract_lets k
  rw [hfound, Option.bind_eq_bind, Option.bind_some, cluster?_eq hrows, Option.bind_eq_bind,
    Option.bind_some]
  exact collect?_eq (solver.within_clusters maxClusters hsome)

/-- A few vectors are divided by their spectrum at once. -/
theorem partition?_eq_of_few (htwo : 2 ≤ vectors.length)
    (hfew : vectors.length ≤ maxSpectralPoints) :
    partition? solver vectors maxClusters =
      some (groupPlaces (solver.clusters vectors maxClusters)) := by
  rw [partition?, if_neg (by omega), dif_neg (by omega)]
  exact dividedBySpectrum?_eq solver maxClusters (List.length_pos_iff.mp (by omega))

/-- Of many vectors there are landmarks, as many as can be divided by their spectrum. -/
theorem landmarks_spec (hmany : maxSpectralPoints < vectors.length) :
    landmarks? vectors = some (landmarks vectors) ∧
      (landmarks vectors).length = maxSpectralPoints := by
  have hmarks := landmarks?_eq (List.length_pos_iff.mp (Nat.zero_lt_of_lt hmany))
  exact ⟨hmarks, length_landmarks? hmarks⟩

/-- Each vector gets the name of a group of landmarks. -/
theorem within_names_of_many (hmany : maxSpectralPoints < vectors.length) :
    Within (groupPlaces (solver.clusters (landmarks vectors) maxClusters)).length
      (solver.names vectors maxClusters) := by
  have hlength := (landmarks_spec hmany).2
  have hcovers := (groupPlaces_partitions (solver.clusters (landmarks vectors) maxClusters)).covers
  have hgroups : groupPlaces (solver.clusters (landmarks vectors) maxClusters) ≠ [] := by
    intro hnone
    have hsize := hcovers.length_eq
    rw [hnone, List.length_range, length_clusters, hlength] at hsize
    cases hsize
  intro name hname
  rw [names, if_pos hmany] at hname
  obtain ⟨v, -, rfl⟩ := List.mem_map.mp hname
  exact ⟨_, groupOf_lt hgroups _, rfl⟩

/-- **Nothing is looked up where there is nothing.** The places come in the groups of their names.
-/
theorem partition?_eq (htwo : 2 ≤ vectors.length) :
    partition? solver vectors maxClusters =
      some (groupPlaces (solver.names vectors maxClusters)) := by
  by_cases hmany : maxSpectralPoints < vectors.length
  · obtain ⟨hmarks, hlength⟩ := landmarks_spec hmany
    rw [partition?, if_neg (by omega), dif_pos hmany]
    split
    · next hnone =>
      rw [hmarks] at hnone
      cases hnone
    · next marks hfound =>
      obtain rfl : landmarks vectors = marks := Option.some.inj (hmarks.symm.trans hfound)
      have hgroups := partition?_eq_of_few solver maxClusters (by rw [hlength]; decide)
        (Nat.le_of_eq hlength)
      have hcovers :=
        (groupPlaces_partitions (solver.clusters (landmarks vectors) maxClusters)).covers
      rw [length_clusters] at hcovers
      have htable := groupTable?_eq (hcovers.nodup_iff.mpr List.nodup_range)
        fun p hp => List.mem_range.mp (hcovers.mem_iff.mp hp)
      have hmarksSome : landmarks vectors ≠ [] := List.length_pos_iff.mp (by rw [hlength]; decide)
      have hcollect := collect?_eq (solver.within_names_of_many maxClusters hmany)
      rw [names, if_pos hmany] at hcollect ⊢
      rw [hgroups, Option.bind_eq_bind, Option.bind_some, htable, Option.bind_eq_bind,
        Option.bind_some, mapM_nearestLandmark hmarksSome, Option.bind_some, List.map_map]
      exact hcollect
  · rw [names, if_neg hmany]
    exact partition?_eq_of_few solver maxClusters htwo (by omega)

/-- No more groups are found than are allowed. -/
theorem length_groupPlaces_names_le (hsome : vectors ≠ []) :
    (groupPlaces (solver.names vectors maxClusters)).length ≤ max 2 maxClusters := by
  by_cases hmany : maxSpectralPoints < vectors.length
  · have hmarks : landmarks vectors ≠ [] :=
      List.length_pos_iff.mp (by rw [(landmarks_spec hmany).2]; decide)
    calc (groupPlaces (solver.names vectors maxClusters)).length
        ≤ (groupPlaces (solver.clusters (landmarks vectors) maxClusters)).length :=
          length_groupPlaces_le (solver.within_names_of_many maxClusters hmany)
      _ ≤ solver.groupCount (landmarks vectors) maxClusters :=
          length_groupPlaces_le (solver.within_clusters maxClusters hmarks)
      _ ≤ max 2 maxClusters := solver.groupCount_le maxClusters
  · rw [names, if_neg hmany]
    exact (length_groupPlaces_le (solver.within_clusters maxClusters hsome)).trans
      (solver.groupCount_le maxClusters)

/-- With rotations as the solver the names are those of the division. -/
theorem spectralPartition_eq (htwo : 2 ≤ vectors.length) :
    spectralPartition vectors maxClusters = groupPlaces (jacobi.names vectors maxClusters) := by
  rw [spectralPartition, if_neg (by omega), names]
  split <;> rfl

end Solver

/-- A single vector is a group. -/
theorem partitions_singleton : Partitions [[0]] 1 where
  covers := List.Perm.refl _
  inhabited := by simp
  ascending := by simp
  ordered := by simp [firstPlaces]

/-- **The division of vectors finds what it looks up, and gives groups in order.** Whatever numbers
the vectors have, however many groups are allowed, and whatever a solver takes for the eigenvalues
and eigenvectors: no lookup fails, the groups part the places of the vectors, and there are no more
of them than are allowed, or two. With rotations as the solver they are the groups of the division.
-/
theorem spectralPartition_found {vectors : List Embedding} (hsome : vectors ≠ [])
    (maxClusters : Nat) :
    partition? .jacobi vectors maxClusters = some (spectralPartition vectors maxClusters) ∧
      ∀ solver : Solver, ∃ groups, partition? solver vectors maxClusters = some groups ∧
        Partitions groups vectors.length ∧ groups.length ≤ max 2 maxClusters := by
  by_cases htwo : 2 ≤ vectors.length
  · constructor
    · rw [Solver.partition?_eq _ _ htwo, Solver.spectralPartition_eq _ htwo]
    · intro solver
      have hpartitions := groupPlaces_partitions (solver.names vectors maxClusters)
      rw [Solver.length_names] at hpartitions
      exact ⟨_, solver.partition?_eq maxClusters htwo, hpartitions,
        solver.length_groupPlaces_names_le maxClusters hsome⟩
  · have hone : vectors.length = 1 := by
      have := List.length_pos_iff.mpr hsome
      omega
    have hfound : ∀ solver : Solver, partition? solver vectors maxClusters = some [[0]] := by
      intro solver
      rw [partition?, if_pos (by omega), hone]
      rfl
    constructor
    · rw [hfound, spectralPartition, if_pos (by omega), hone]
      rfl
    · intro solver
      rw [hone]
      exact ⟨_, hfound solver, partitions_singleton, by simp⟩

/-- A hundred times the same vector, of which landmarks are divided; no groups are asked for. -/
theorem spectralPartition_found_replicate :
    List.replicate 100 (#[1] : Embedding) ≠ [] ∧
      ∃ groups, partition? .jacobi (List.replicate 100 #[1]) 0 = some groups ∧
        Partitions groups 100 ∧ groups.length ≤ 2 := by
  have hsome : List.replicate 100 (#[1] : Embedding) ≠ [] := by simp
  refine ⟨hsome, ?_⟩
  have hfound := (spectralPartition_found hsome 0).2 .jacobi
  rwa [List.length_replicate] at hfound

end CodeAtlas.Navigator
