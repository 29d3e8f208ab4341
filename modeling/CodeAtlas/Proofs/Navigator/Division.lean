import CodeAtlas.Navigator.Build
import CodeAtlas.Proofs.Navigator.Groups
import CodeAtlas.Proofs.Navigator.Labels
import CodeAtlas.Proofs.Navigator.Tree

/-!
# Dividing a cluster

A cluster that is divided is followed by places: its members are those at some places among all
members, and so are the members of its groups. The groups, what they look like and their names are
put together one by one, so it matters that there are as many of each; a labeler cannot change that
(`length_labelSiblings`).

* **`Shape.divide_places`** — the places of the groups of a cluster.
* **`addGroups_eq`** — what stands at each place of a tree after the groups were added.
* `Shape.step_of_lt_two`, `Shape.step_of_two_le` — the two things that a task can do.
-/

namespace CodeAtlas.Navigator

/-! ## Members by their places -/

/-- The members at some places, looked up one by one. -/
theorem membersAt_eq (members : List Member) (places : List Nat) :
    membersAt members places = places.filterMap (members[·]?) := by
  simp [membersAt]

/-- Members are found in the order of their places. -/
theorem getElem?_membersAt {members : List Member} {places : List Nat}
    (hplaces : ∀ p ∈ places, p < members.length) (i : Nat) :
    (membersAt members places)[i]? = places[i]?.bind (members[·]?) := by
  rw [membersAt_eq]
  induction places generalizing i with
  | nil => rfl
  | cons first rest ih =>
    have hfirst := List.getElem?_eq_getElem (hplaces first (List.mem_cons_self ..))
    rw [List.filterMap_cons_some hfirst]
    cases i with
    | zero => exact hfirst.symm
    | succ i => exact ih (fun p hp => hplaces p (List.mem_cons_of_mem _ hp)) i

theorem length_membersAt {members : List Member} {places : List Nat}
    (hplaces : ∀ p ∈ places, p < members.length) :
    (membersAt members places).length = places.length := by
  rw [membersAt_eq, List.length_filterMap_eq_countP, List.countP_eq_length]
  intro p hp
  simp [hplaces p hp]

/-- Members of members are members. -/
theorem membersAt_membersAt {members : List Member} {places : List Nat}
    (hplaces : ∀ p ∈ places, p < members.length) (inner : List Nat) :
    membersAt (membersAt members places) inner =
      membersAt members (inner.filterMap (places[·]?)) := by
  rw [membersAt_eq _ inner, membersAt_eq members (inner.filterMap _), List.filterMap_filterMap]
  exact List.filterMap_congr fun i _ => getElem?_membersAt hplaces i

/-- The places of those entries of a list that have a property lead to these entries. -/
theorem filterMap_filter_range {α : Type} (xs : List α) {q : Nat → Bool} {r : α → Bool}
    (h : ∀ (i : Nat) (hi : i < xs.length), q i = r xs[i]) :
    ((List.range xs.length).filter q).filterMap (xs[·]?) = xs.filter r := by
  induction xs using List.reverseRecOn with
  | nil => rfl
  | append_singleton xs last ih =>
    have hxs : ∀ (i : Nat) (hi : i < xs.length), q i = r xs[i] := by
      intro i hi
      rw [h i (by simp; omega), List.getElem_append_left hi]
    have hlast : q xs.length = r last := by
      rw [h xs.length (by simp), List.getElem_concat_length rfl]
    rw [List.length_append, List.length_singleton, List.range_succ, List.filter_append,
      List.filterMap_append, List.filter_append, ← ih hxs]
    congr 1
    · refine List.filterMap_congr fun i hi => ?_
      rw [List.getElem?_append_left (List.mem_range.mp (List.mem_filter.mp hi).1)]
    · cases hr : r last <;> simp [hlast, hr]

/-- All places together have all members. -/
theorem membersAt_range (members : List Member) :
    membersAt members (List.range members.length) = members := by
  have hall := filterMap_filter_range members (q := fun _ => true) (r := fun _ => true)
    fun _ _ => rfl
  rw [List.filter_true, List.filter_true] at hall
  rw [membersAt_eq, hall]

/-! ## Dividing a cluster -/

section

variable {s : Shape} {task : Task}

/-- A cluster that is divided was too large and not too deep, and its groups are those of its
vectors. -/
theorem Shape.divide_of_two_le (h : 2 ≤ (s.divide task).length) :
    max s.leafSize 1 < task.members.length ∧ task.depth < s.maxDepth ∧
      s.divide task =
        (spectralPartition (task.members.map (·.2)) s.maxClusters).map
          (membersAt task.members) := by
  unfold Shape.divide at h ⊢
  split at h
  · simp at h
  · next hlarge =>
    rw [if_neg hlarge]
    simp only [Bool.or_eq_true, decide_eq_true_eq, not_or, not_le] at hlarge
    exact ⟨hlarge.1, hlarge.2, rfl⟩

/-- A cluster that is not divided is small enough or too deep, or its vectors are not divided. -/
theorem Shape.of_divide_lt_two (h : (s.divide task).length < 2)
    (hlarge : max s.leafSize 1 < task.members.length) :
    s.maxDepth ≤ task.depth ∨ (spectralPartition (task.members.map (·.2)) s.maxClusters).length <
      2 := by
  unfold Shape.divide at h
  split at h
  · next hwhole =>
    simp only [Bool.or_eq_true, decide_eq_true_eq] at hwhole
    exact .inl (hwhole.resolve_left (not_le.mpr hlarge))
  · rw [List.length_map] at h
    exact .inr h

/-- The slots of the groups of a cluster. -/
theorem Shape.divide_divides (h : 2 ≤ (s.divide task).length) :
    ∃ groups slots, Divides groups task.members.length slots ∧
      s.divide task = groups.map (membersAt task.members) := by
  obtain ⟨hlarge, -, hdivide⟩ := Shape.divide_of_two_le h
  have hsome : task.members.map (·.2) ≠ [] := by
    rw [ne_eq, List.map_eq_nil_iff]
    rintro hnil
    rw [hnil] at hlarge
    exact absurd hlarge (Nat.not_lt_zero _)
  obtain ⟨slots, hslots⟩ := spectralPartition_divides hsome s.maxClusters
  rw [List.length_map] at hslots
  exact ⟨_, slots, hslots, hdivide⟩

/-- Every group of a cluster that is divided has members. -/
theorem Shape.ne_nil_of_mem_divide (h : 2 ≤ (s.divide task).length) {group : List Member}
    (hgroup : group ∈ s.divide task) : group ≠ [] := by
  obtain ⟨groups, slots, hslots, hdivide⟩ := Shape.divide_divides h
  rw [hdivide] at hgroup
  obtain ⟨places, hplaces, rfl⟩ := List.mem_map.mp hgroup
  obtain ⟨j, hj, rfl⟩ := List.getElem_of_mem hplaces
  obtain ⟨p, hp, hslot⟩ := hslots.inhabited j hj
  have hget := hslots.getElem? hj
  rw [List.getElem?_eq_getElem hj, Option.some_inj] at hget
  rw [hget, ← List.length_pos_iff, length_membersAt fun p hp => (mem_placesIn.mp hp).1,
    List.length_pos_iff]
  exact List.ne_nil_of_mem (mem_placesIn.mpr ⟨hp, hslot⟩)

/-- The groups of a cluster that is divided have all of its members. -/
theorem Shape.sum_length_divide (h : 2 ≤ (s.divide task).length) :
    ((s.divide task).map List.length).sum = task.members.length := by
  obtain ⟨groups, slots, hslots, hdivide⟩ := Shape.divide_divides h
  have hperm := hslots.flatten_perm
  have hlengths : groups.map (List.length ∘ membersAt task.members) = groups.map List.length := by
    refine List.map_congr_left fun places hplaces => length_membersAt fun p hp => ?_
    exact List.mem_range.mp (hperm.subset (List.mem_flatten_of_mem hplaces hp))
  rw [hdivide, List.map_map, hlengths, ← List.length_flatten, hperm.length_eq, List.length_range]

/-- The groups of a cluster by the places of its members among all members. -/
theorem Shape.divide_places {members : List Member} {places : List Nat} (hnodup : places.Nodup)
    (hplaces : ∀ p ∈ places, p < members.length) (htask : task.members = membersAt members places)
    (h : 2 ≤ (s.divide task).length) :
    ∃ slots : Nat → Nat, (∀ p ∈ places, slots p < (s.divide task).length) ∧
      ∀ j < (s.divide task).length, (∃ p ∈ places, slots p = j) ∧
        (s.divide task)[j]? = some (membersAt members (places.filter fun p => slots p = j)) := by
  obtain ⟨groups, slots, hslots, hdivide⟩ := Shape.divide_divides h
  rw [hdivide, List.length_map]
  rw [htask, length_membersAt hplaces] at hslots
  refine ⟨fun p => slots (places.idxOf p), fun p hp => ?_, fun j hj => ⟨?_, ?_⟩⟩
  · exact hslots.slot _ (List.idxOf_lt_length_of_mem hp)
  · obtain ⟨i, hi, hslot⟩ := hslots.inhabited j hj
    refine ⟨places[i], List.getElem_mem hi, ?_⟩
    simp only [hnodup.idxOf_getElem, hslot]
  · rw [List.getElem?_map, hslots.getElem? hj, Option.map_some, htask, membersAt_membersAt hplaces,
      placesIn, filterMap_filter_range places (r := fun p => slots (places.idxOf p) = j)]
    intro i hi
    rw [hnodup.idxOf_getElem]

end

/-! ## Naming the groups -/

/-- An answer is only used if it has as many names as expected. -/
theorem length_of_parseLabels {text : String} {expected : Nat} {labels : List String}
    (h : parseLabels text expected = some labels) : labels.length = expected := by
  obtain ⟨found, rfl, hcount, -⟩ := parseLabels_eq_some h
  rw [List.length_map, hcount]

/-- Every cluster gets a name, whatever the labeler answers. -/
theorem length_labelSiblings {σ : Type} (labeler : Option (Labeler σ)) (groups : List SiblingGroup)
    (state : σ) : (labelSiblings labeler groups state).1.length = groups.length := by
  have hfallback : (fallbackLabels groups).length = groups.length := by
    simp [fallbackLabels]
  unfold labelSiblings
  split
  · exact hfallback
  · split
    · exact hfallback
    · split
      · next text _ _ =>
        cases h : parseLabels text groups.length with
        | none => exact hfallback
        | some labels => exact length_of_parseLabels h
      · exact hfallback

/-! ## Adding the groups -/

/-- What stands at each place after groups were added below a node, and the tasks that they are. -/
theorem addGroups_eq {tree : ClusterTree} {up : Nat} {node : ClusterNode}
    (hup : tree.node? up = some node)
    (depth : Nat) (groups : List (List Member × SiblingGroup × String)) :
    let grown := (addGroups up depth groups tree).1
    grown.size = tree.size + groups.length ∧
    (∀ id < tree.size, id ≠ up → grown.node? id = tree.node? id) ∧
    grown.node? up =
      some { node with children := node.children ++ List.range' tree.size groups.length } ∧
    (∀ j < groups.length, ∃ label pattern,
      grown.node? (tree.size + j) = some ⟨label, pattern, [], [], some up, node.depth + 1⟩) ∧
    (tree.Rooted → grown.Rooted) ∧
    (addGroups up depth groups tree).2 =
      (groups.map (·.1)).mapIdx fun j members => ⟨tree.size + j, depth, members⟩ := by
  induction groups generalizing tree node with
  | nil =>
    refine ⟨rfl, fun _ _ _ => rfl, ?_, fun j hj => absurd hj (Nat.not_lt_zero j), id, rfl⟩
    simp [addGroups, hup]
  | cons group rest ih =>
    obtain ⟨members, sibling, label⟩ := group
    obtain ⟨t, hadd, hsize, hnode⟩ := ClusterTree.addChild?_eq hup label sibling.pattern
    have hlt : up < tree.size := ClusterTree.lt_size_of_node? hup
    have hup' : t.node? up = some { node with children := node.children ++ [tree.size] } := by
      rw [hnode, if_neg hlt.ne, if_pos rfl]
    obtain ⟨ihsize, ihkept, ihup, ihnew, ihrooted, ihtasks⟩ := ih hup'
    have hgrown : addGroups up depth ((members, sibling, label) :: rest) tree =
        ((addGroups up depth rest t).1,
          ⟨tree.size, depth, members⟩ :: (addGroups up depth rest t).2) := by
      simp only [addGroups, hadd]
    rw [hgrown]
    refine ⟨?_, fun id hid hne => ?_, ?_, fun j hj => ?_, fun hrooted => ?_, ?_⟩
    · rw [ihsize, hsize, List.length_cons]
      omega
    · rw [ihkept id (by omega) hne, hnode, if_neg hid.ne, if_neg hne]
    · rw [ihup, hsize, List.length_cons, List.range'_succ]
      simp
    · cases j with
      | zero =>
        refine ⟨label, sibling.pattern, ?_⟩
        rw [Nat.add_zero, ihkept tree.size (by omega) hlt.ne', hnode, if_pos rfl]
      | succ j =>
        rw [List.length_cons] at hj
        obtain ⟨label', pattern', h⟩ := ihnew j (by omega)
        refine ⟨label', pattern', ?_⟩
        rw [hsize] at h
        rw [show tree.size + (j + 1) = tree.size + 1 + j by omega]
        exact h
    · exact ihrooted (hrooted.addChild? hup hadd)
    · have hshift : (fun j members => (⟨tree.size + 1 + j, depth, members⟩ : Task)) =
          fun j members => ⟨tree.size + (j + 1), depth, members⟩ := by
        funext j members
        rw [Nat.add_assoc, Nat.add_comm 1]
      rw [ihtasks, List.map_cons, List.mapIdx_cons, hsize, hshift]
      rfl

section

variable {σ : Type} {s : Shape} {task : Task} (labeler : Option (Labeler σ)) (tree : ClusterTree)
    (state : σ)

/-- A task whose cluster stays whole fills its node. -/
theorem Shape.step_of_lt_two (h : (s.divide task).length < 2) :
    s.step labeler task tree state =
      ((tree.setFiles? task.node (task.members.map (·.1))).getD tree, [], state) := by
  simp only [Shape.step, if_pos h]

/-- A task whose cluster is divided adds all of the groups. -/
theorem Shape.step_of_two_le (h : 2 ≤ (s.divide task).length) :
    ∃ (groups : List (List Member × SiblingGroup × String)) (state' : σ),
      groups.map (·.1) = s.divide task ∧
      s.step labeler task tree state =
        ((addGroups task.node (task.depth + 1) groups tree).1,
          (addGroups task.node (task.depth + 1) groups tree).2, state') := by
  have hlabels := length_labelSiblings labeler ((s.divide task).map siblingOf) state
  rw [List.length_map] at hlabels
  refine ⟨_, _, ?_, by simp only [Shape.step, if_neg (not_lt.mpr h)]; rfl⟩
  refine List.map_fst_zip ?_
  rw [List.length_zip, List.length_map, hlabels, min_self]

end

end CodeAtlas.Navigator
