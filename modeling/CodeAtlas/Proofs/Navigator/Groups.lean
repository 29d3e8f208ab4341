import CodeAtlas.Navigator.Spectral
import Mathlib.Tactic

/-!
# Groups divide the places

Whatever the numbers come out as, vectors that are divided end up in groups that have each of their
places exactly once. This rests on nothing about the numbers: the clustering names a cluster for
every point, and the groups collect the places by these names.

Groups are told apart by a *slot* for each place; a group has the places of its slot in ascending
order (`placesIn`). That such groups have each place once is said for any slots
(`flatMap_placesIn_perm`).

* **`groupPlaces_divides`** — places that are collected by any names are divided.
* **`spectralPartition_divides`** — the groups of some vectors divide their places.
-/

namespace CodeAtlas.Navigator

/-! ## Places by where they belong -/

/-- The places below `n` that belong to `home`, in ascending order. -/
def placesIn (homes : Nat → Nat) (n home : Nat) : List Nat :=
  (List.range n).filter fun p => homes p = home

theorem mem_placesIn {homes : Nat → Nat} {n home p : Nat} :
    p ∈ placesIn homes n home ↔ p < n ∧ homes p = home := by
  simp [placesIn]

theorem nodup_placesIn (homes : Nat → Nat) (n home : Nat) : (placesIn homes n home).Nodup :=
  List.nodup_range.filter _

/-- If there is one home only, all places belong to it. -/
theorem placesIn_const (n home : Nat) : placesIn (fun _ => home) n home = List.range n := by
  simp [placesIn]

/-- All homes together have each place once, in some order. -/
theorem flatMap_placesIn_perm {homes : Nat → Nat} {n : Nat} {ids : List Nat} (hids : ids.Nodup)
    (hhomes : ∀ p < n, homes p ∈ ids) : (ids.flatMap (placesIn homes n)).Perm (List.range n) := by
  have hnodup : (ids.flatMap (placesIn homes n)).Nodup := by
    refine List.nodup_flatMap.mpr ⟨fun id _ => nodup_placesIn homes n id, hids.imp fun hne => ?_⟩
    -- a place has one home only
    intro p hp hp'
    exact hne ((mem_placesIn.mp hp).2.symm.trans (mem_placesIn.mp hp').2)
  refine (List.perm_ext_iff_of_nodup hnodup List.nodup_range).mpr fun p => ?_
  rw [List.mem_flatMap, List.mem_range]
  constructor
  · rintro ⟨id, -, hp⟩
    exact (mem_placesIn.mp hp).1
  · intro hp
    exact ⟨homes p, hhomes p hp, mem_placesIn.mpr ⟨hp, rfl⟩⟩

/-- The homes after those who belong to `home` have moved to new ones, by their slots, from `first`
on. -/
def rehome (homes : Nat → Nat) (home first : Nat) (slots : Nat → Nat) (p : Nat) : Nat :=
  if homes p = home then first + slots p else homes p

/-- Who lived elsewhere stays. -/
theorem placesIn_rehome_of_lt {homes slots : Nat → Nat} {n home first other : Nat}
    (hother : other < first) (hne : other ≠ home) :
    placesIn (rehome homes home first slots) n other = placesIn homes n other := by
  refine List.filter_congr fun p _ => ?_
  rw [decide_eq_decide, rehome]
  split
  · next heq => constructor <;> intro h <;> omega
  · rfl

/-- The new homes are shared by slots. -/
theorem placesIn_rehome_add {homes slots : Nat → Nat} {n home first : Nat}
    (hfirst : ∀ p < n, homes p < first)
    (j : Nat) : placesIn (rehome homes home first slots) n (first + j) =
      (placesIn homes n home).filter fun p => slots p = j := by
  rw [placesIn, placesIn, List.filter_filter]
  refine List.filter_congr fun p hp => ?_
  have hlt := hfirst p (List.mem_range.mp hp)
  rw [← Bool.decide_and, decide_eq_decide, rehome]
  split
  · next heq => constructor <;> intro h <;> omega
  · next hne => constructor <;> intro h <;> omega

/-- Groups divide the places below `n`: every place has a slot among them, each group has the places
of its slot, and no group is empty. -/
structure Divides (groups : List (List Nat)) (n : Nat) (slots : Nat → Nat) : Prop where
  /-- every place has a slot -/
  slot : ∀ p < n, slots p < groups.length
  /-- the groups are the places by their slots -/
  places : groups = (List.range groups.length).map (placesIn slots n)
  /-- every slot has a place -/
  inhabited : ∀ j < groups.length, ∃ p < n, slots p = j

namespace Divides

variable {groups : List (List Nat)} {n : Nat} {slots : Nat → Nat}

theorem getElem? (h : Divides groups n slots) {j : Nat} (hj : j < groups.length) :
    groups[j]? = some (placesIn slots n j) := by
  rw [h.places, List.getElem?_map, List.getElem?_range hj]
  rfl

/-- The groups have each place once. -/
theorem flatten_perm (h : Divides groups n slots) : groups.flatten.Perm (List.range n) := by
  rw [h.places, ← List.flatMap_def]
  exact flatMap_placesIn_perm List.nodup_range fun p hp => List.mem_range.mpr (h.slot p hp)

end Divides

/-! ## Places collected by names -/

/-- No name is left twice. -/
theorem nodup_eraseDups {α : Type} [BEq α] [LawfulBEq α] (names : List α) :
    names.eraseDups.Nodup := by
  induction h : names.length using Nat.strong_induction_on generalizing names with
  | _ n ih =>
    cases names with
    | nil => simp
    | cons first rest =>
      rw [List.eraseDups_cons, List.nodup_cons]
      refine ⟨by simp [List.mem_eraseDups], ih _ ?_ _ rfl⟩
      rw [← h]
      exact Nat.lt_succ_of_le (List.length_filter_le ..)

/-- The places of a name. -/
theorem filterMap_zipIdx_eq {α : Type} [DecidableEq α] (names : List α) (name : α) :
    (names.zipIdx.filterMap fun (a, i) => if a = name then some i else none) =
      (List.range names.length).filter fun i => names[i]? = some name := by
  induction names using List.reverseRecOn with
  | nil => rfl
  | append_singleton names last ih =>
    rw [List.zipIdx_append, List.filterMap_append, ih, List.length_append, List.length_singleton,
      List.range_succ, List.filter_append]
    congr 1
    · refine List.filter_congr fun i hi => ?_
      rw [List.getElem?_append_left (List.mem_range.mp hi)]
    · by_cases hlast : last = name <;> simp [hlast]

/-- The groups are the places of each name. -/
theorem groupPlaces_eq (assignment : List (Option Nat)) :
    groupPlaces assignment = assignment.eraseDups.map fun name =>
      (List.range assignment.length).filter fun p => assignment[p]? = some name := by
  unfold groupPlaces
  exact List.map_congr_left fun name _ => filterMap_zipIdx_eq assignment name

/-- **Places that are collected by names are divided**: the slot of a place is where its name stands
among the names without repetitions. -/
theorem groupPlaces_divides (assignment : List (Option Nat)) :
    ∃ slots, Divides (groupPlaces assignment) assignment.length slots := by
  have hnodup : assignment.eraseDups.Nodup := nodup_eraseDups assignment
  have hmem : ∀ name, name ∈ assignment.eraseDups ↔ name ∈ assignment := fun _ => List.mem_eraseDups
  rw [groupPlaces_eq]
  generalize assignment.eraseDups = names at hnodup hmem
  have hget : ∀ p < assignment.length, assignment[p]? = some (assignment.getD p none) := by
    intro p hp
    rw [List.getD_eq_getElem?_getD, List.getElem?_eq_getElem hp]
    rfl
  have hname : ∀ p < assignment.length, assignment.getD p none ∈ names :=
    fun p hp => (hmem _).mpr (List.mem_of_getElem? (hget p hp))
  refine ⟨fun p => names.idxOf (assignment.getD p none), fun p hp => ?_, ?_, fun j hj => ?_⟩
  · rw [List.length_map]
    exact List.idxOf_lt_length_of_mem (hname p hp)
  · refine List.ext_getElem (by simp) fun j hj _ => ?_
    rw [List.length_map] at hj
    rw [List.getElem_map, List.getElem_map, List.getElem_range]
    refine List.filter_congr fun p hp => ?_
    have hp : p < assignment.length := List.mem_range.mp hp
    have hslot : names.idxOf (assignment.getD p none) = j ↔ assignment.getD p none = names[j] := by
      -- no name stands at two slots
      rw [← List.idxOf_inj (hname p hp), hnodup.idxOf_getElem]
    rw [hget p hp, decide_eq_decide, Option.some_inj, hslot]
  · rw [List.length_map] at hj
    obtain ⟨p, hp, hpj⟩ := List.getElem_of_mem ((hmem _).mp (List.getElem_mem hj))
    refine ⟨p, hp, ?_⟩
    rw [List.getD_eq_getElem?_getD, List.getElem?_eq_getElem hp, Option.getD_some, hpj,
      hnodup.idxOf_getElem]

/-! ## The clusters of points -/

/-- Rounds give every point a cluster. -/
theorem length_assignment_rounds {points : List Point} {n : Nat} {c : Clustering}
    (hc : c.assignment.length = points.length) :
    (rounds points n c).assignment.length = points.length := by
  induction n generalizing c with
  | zero => exact hc
  | succ n ih =>
    rw [rounds]
    split
    · exact hc
    · exact ih (List.length_map ..)

/-- Every point has one cluster. -/
theorem length_cluster (points : List Point) (k maxRounds : Nat) :
    (cluster points k maxRounds).length = points.length :=
  length_assignment_rounds (List.length_map ..)

/-! ## The groups of vectors -/

/-- A matrix has as many rows as its columns are long. -/
theorem length_rowsOf {n : Nat} (columns : List (Vector Float n)) :
    (rowsOf columns).length = n := by
  rw [rowsOf, List.length_map, List.length_finRange]

/-- The spectrum of some vectors divides their places. -/
theorem dividedBySpectrum_divides (vectors : List Embedding) (maxClusters : Nat) :
    ∃ slots, Divides (dividedBySpectrum vectors maxClusters) vectors.length slots := by
  unfold dividedBySpectrum
  extract_lets pairs k rows
  have hlength : (cluster (rows.map (normalizedRow k)) k maxRounds).length = vectors.length := by
    rw [length_cluster, List.length_map, length_rowsOf, List.size_toArray]
  rw [← hlength]
  exact groupPlaces_divides _

/-- The landmarks of some vectors divide their places. -/
theorem dividedByLandmarks_divides (vectors : List Embedding) (maxClusters : Nat) :
    ∃ slots, Divides (dividedByLandmarks vectors maxClusters) vectors.length slots := by
  obtain ⟨slots, hslots⟩ := groupPlaces_divides
    (vectors.map fun v => some (groupOf (dividedBySpectrum (landmarks vectors) maxClusters)
      (nearestLandmark (landmarks vectors) v)))
  rw [List.length_map] at hslots
  exact ⟨slots, hslots⟩

/-- **The groups of some vectors divide their places**, whatever the vectors are. -/
theorem spectralPartition_divides {vectors : List Embedding} (hsome : vectors ≠ [])
    (maxClusters : Nat) :
    ∃ slots, Divides (spectralPartition vectors maxClusters) vectors.length slots := by
  unfold spectralPartition
  split
  · next hshort =>
    have hone : vectors.length = 1 := by
      have := List.length_pos_iff.mpr hsome
      omega
    rw [hone]
    exact ⟨fun _ => 0, fun p _ => Nat.one_pos, rfl,
      fun j hj => ⟨0, Nat.one_pos, (Nat.lt_one_iff.mp hj).symm⟩⟩
  · split
    · exact dividedByLandmarks_divides vectors maxClusters
    · exact dividedBySpectrum_divides vectors maxClusters

end CodeAtlas.Navigator
