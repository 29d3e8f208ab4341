import CodeAtlas.Proofs.Navigator.Division

/-!
# Every file has its place in a cluster tree

The headline theorem is **`build_covers`**: whatever the vectors are and whatever a labeler answers,
building a tree comes to an end, every file is in exactly one cluster that is not divided, and these
clusters are neither empty nor too deep, and too large only if they cannot be divided.

The invariant follows the members by their places: a ghost says which node the member at each place
belongs to (`Grown`). A task whose cluster stays whole fills its node (`Grown.whole`). A task whose
cluster is divided lets those who belong to it move into the new nodes (`Grown.divided`). That the
tasks come to an end is a matter of their weight, which every task takes something away from
(`Grown.weight_step_lt`).
-/

namespace CodeAtlas.Navigator

/-! ## The invariant -/

/-- The members that belong to a node. -/
def inside (members : List Member) (homes : Nat → Nat) (id : Nat) : List Member :=
  membersAt members (placesIn homes members.length id)

/-- A cluster is as it should be in the end, `own` being the members that belong to it. -/
structure Settled (s : Shape) (own : List Member) (node : ClusterNode) : Prop where
  /-- it does not lie too deep -/
  depth : node.depth ≤ s.maxDepth
  /-- if it is not divided, it has the files that belong to it; too many of them only if it lies as
  deep as it may or its vectors are not divided -/
  leaf : node.isLeaf = true → node.files = own.map (·.1) ∧
    (max s.leafSize 1 < node.files.length →
      node.depth = s.maxDepth ∨ (spectralPartition (own.map (·.2)) s.maxClusters).length < 2)
  /-- if it is divided, it has no files itself and two parts at least -/
  inner : node.isLeaf = false → node.files = [] ∧ 2 ≤ node.children.length

/-- A tree on its way: `homes` says which node the member at each place belongs to. -/
structure Grown (s : Shape) (members : List Member) (homes : Nat → Nat) (tree : ClusterTree)
    (waiting : List Task) : Prop where
  /-- the nodes are a tree -/
  rooted : tree.Rooted
  /-- every member belongs to a cluster that is not divided -/
  housed : ∀ p < members.length, ∃ node, tree.node? (homes p) = some node ∧ node.isLeaf = true
  /-- no cluster that is not divided is empty -/
  inhabited : members ≠ [] → ∀ id node, tree.node? id = some node → node.isLeaf = true →
    ∃ p < members.length, homes p = id
  /-- no node waits twice -/
  distinct : (waiting.map Task.node).Nodup
  /-- a task is about the members that belong to its node -/
  tasks : ∀ task ∈ waiting, ∃ node, tree.node? task.node = some node ∧ node.isLeaf = true ∧
    node.files = [] ∧ node.depth = task.depth ∧ task.depth ≤ s.maxDepth ∧
    task.members = inside members homes task.node
  /-- the other nodes are as they should be -/
  settled : ∀ id node, tree.node? id = some node → id ∉ waiting.map Task.node →
    Settled s (inside members homes id) node

section

variable {σ : Type} {s : Shape} (labeler : Option (Labeler σ)) {members : List Member}
  {homes : Nat → Nat} {tree : ClusterTree} {task : Task} {waiting : List Task} (state : σ)

/-- At the start every member belongs to the root. -/
theorem grown_start (s : Shape) (members : List Member) (label : String) (pattern : Option String) :
    Grown s members (fun _ => 0) (.ofRoot label pattern) [⟨0, 0, members⟩] where
  rooted := ClusterTree.rooted_ofRoot label pattern
  housed p hp := ⟨_, rfl, rfl⟩
  inhabited hsome id node hnode _ :=
    ⟨0, List.length_pos_iff.mpr hsome,
      (Nat.lt_one_iff.mp (ClusterTree.lt_size_of_node? hnode)).symm⟩
  distinct := List.nodup_singleton 0
  tasks task htask := by
    rw [List.mem_singleton.mp htask]
    refine ⟨_, rfl, rfl, rfl, rfl, Nat.zero_le _, ?_⟩
    rw [inside, placesIn_const, membersAt_range]
  settled id node hnode hid := by
    refine absurd ?_ hid
    rw [Nat.lt_one_iff.mp (ClusterTree.lt_size_of_node? hnode)]
    exact List.mem_singleton_self 0

/-- A task whose cluster stays whole. -/
theorem Grown.whole (h : Grown s members homes tree (task :: waiting))
    (hwhole : (s.divide task).length < 2) :
    Grown s members homes (s.step labeler task tree state).1 waiting := by
  rw [Shape.step_of_lt_two labeler tree state hwhole]
  obtain ⟨node, hnode, hleaf, hfiles, hdepth, hle, hmembers⟩ := h.tasks task (List.mem_cons_self ..)
  obtain ⟨filled, hfilled, hsize, hget⟩ := ClusterTree.setFiles?_eq hnode (task.members.map (·.1))
  rw [hfilled, Option.getD_some]
  obtain ⟨hnew, hdistinct⟩ := List.nodup_cons.mp h.distinct
  refine ⟨h.rooted.setFiles? hnode hfilled, fun p hp => ?_, fun hsome id old hold hleaf' => ?_,
    hdistinct, fun other hother => ?_, fun id old hold hid => ?_⟩
  · rw [hget]
    split
    · exact ⟨_, rfl, hleaf⟩
    · exact h.housed p hp
  · rw [hget] at hold
    split at hold
    · next heq => exact h.inhabited hsome id node (heq ▸ hnode) hleaf
    · exact h.inhabited hsome id old hold hleaf'
  · have hne : other.node ≠ task.node := fun heq => hnew (heq ▸ List.mem_map_of_mem hother)
    rw [hget, if_neg hne]
    exact h.tasks other (List.mem_cons_of_mem _ hother)
  · rw [hget] at hold
    split at hold
    · next heq =>
      cases hold
      rw [heq, ← hmembers]
      refine ⟨hdepth.trans_le hle, fun _ => ⟨rfl, fun hlarge => ?_⟩, fun hinner => ?_⟩
      · rw [List.length_map] at hlarge
        refine (Shape.of_divide_lt_two hwhole hlarge).imp_left fun hdeep => ?_
        exact hdepth.trans (le_antisymm hle hdeep)
      · cases hleaf.symm.trans hinner
    · next hne =>
      exact h.settled id old hold fun hmem => (List.mem_cons.mp hmem).elim hne hid

/-- A cluster was divided into `count` parts: their nodes come at the end of the tree, and those who
belong to the cluster have moved there. -/
structure Parted (members : List Member) (task : Task) (tree grown : ClusterTree)
    (tasks : List Task) (homes homes' : Nat → Nat) (count : Nat) : Prop where
  /-- the nodes are a tree still -/
  rooted : grown.Rooted
  /-- so many parts have come -/
  size : grown.size = tree.size + count
  /-- the cluster has no files itself, and these parts -/
  above : ∃ node, grown.node? task.node = some node ∧ node.depth = task.depth ∧
    node.isLeaf = false ∧
    node.files = [] ∧ count ≤ node.children.length
  /-- other clusters are what they were -/
  kept : ∀ id < tree.size, id ≠ task.node →
    grown.node? id = tree.node? id ∧ inside members homes' id = inside members homes id
  /-- the parts are a level deeper, and not filled yet -/
  added : ∀ j < count, ∃ node, grown.node? (tree.size + j) = some node ∧ node.isLeaf = true ∧
    node.files = [] ∧ node.depth = task.depth + 1
  /-- every part waits -/
  nodes : tasks.map Task.node = List.range' tree.size count
  /-- the parts are tasks -/
  tasks : ∀ part ∈ tasks, part.depth = task.depth + 1 ∧
    part.members = inside members homes' part.node
  /-- who did not belong to the cluster stays -/
  stayed : ∀ p, homes p ≠ task.node → homes' p = homes p
  /-- who did belongs to one of the parts -/
  moved : ∀ p < members.length, homes p = task.node → ∃ j < count, homes' p = tree.size + j
  /-- every part has a member -/
  inhabited : ∀ j < count, ∃ p < members.length, homes' p = tree.size + j

namespace Parted

variable {grown : ClusterTree} {tasks : List Task} {homes' : Nat → Nat} {count : Nat}

/-- A node is that of the cluster, or was there, or is that of a part. -/
theorem cases (h : Parted members task tree grown tasks homes homes' count) {id : Nat}
    {node : ClusterNode} (hget : grown.node? id = some node) :
    id = task.node ∨ (id < tree.size ∧ id ≠ task.node ∧ tree.node? id = some node) ∨
      ∃ j < count, id = tree.size + j := by
  by_cases hid : id = task.node
  · exact .inl hid
  · by_cases hsmall : id < tree.size
    · exact .inr (.inl ⟨hsmall, hid, (h.kept id hsmall hid).1 ▸ hget⟩)
    · have hlt := ClusterTree.lt_size_of_node? hget
      rw [h.size] at hlt
      exact .inr (.inr ⟨id - tree.size, by omega, by omega⟩)

/-- A new task is about one of the parts. -/
theorem exists_part (h : Parted members task tree grown tasks homes homes' count) {part : Task}
    (hpart : part ∈ tasks) : ∃ node, grown.node? part.node = some node ∧ node.isLeaf = true ∧
      node.files = [] ∧ node.depth = part.depth ∧ part.depth = task.depth + 1 ∧
      part.members = inside members homes' part.node := by
  obtain ⟨hdepth, hmembers⟩ := h.tasks part hpart
  have hmem : part.node ∈ List.range' tree.size count := h.nodes ▸ List.mem_map_of_mem hpart
  obtain ⟨j, hj, hnode⟩ := List.mem_range'.mp hmem
  obtain ⟨node, hget, hleaf, hfiles, hdepth'⟩ := h.added j hj
  rw [one_mul] at hnode
  exact ⟨node, hnode ▸ hget, hleaf, hfiles, hdepth'.trans hdepth.symm, hdepth, hmembers⟩

end Parted

/-- What the task of a cluster does that is divided. -/
theorem Grown.parted (h : Grown s members homes tree (task :: waiting))
    (hdivided : 2 ≤ (s.divide task).length) :
    ∃ homes',
      Parted members task tree (s.step labeler task tree state).1
      (s.step labeler task tree state).2.1 homes homes' (s.divide task).length := by
  obtain ⟨node, hnode, -, hfiles, hdepth, -, hmembers⟩ := h.tasks task (List.mem_cons_self ..)
  obtain ⟨slots, hslot, hgroup⟩ := Shape.divide_places
    (nodup_placesIn homes members.length task.node)
    (fun p hp => (mem_placesIn.mp hp).1) hmembers hdivided
  obtain ⟨groups, state', hgroups, hstep⟩ :=
    Shape.step_of_two_le labeler tree state hdivided
  obtain ⟨hsize, hkept, hup, hadded, hrooted, htasks⟩ := addGroups_eq hnode (task.depth + 1) groups
  have hcount : groups.length = (s.divide task).length := by rw [← hgroups, List.length_map]
  rw [hgroups] at htasks
  rw [hcount] at hsize hup hadded
  rw [hstep, htasks]
  have hlt : ∀ p < members.length, homes p < tree.size := by
    intro p hp
    obtain ⟨_, hget, -⟩ := h.housed p hp
    exact ClusterTree.lt_size_of_node? hget
  refine ⟨rehome homes task.node tree.size slots, hrooted h.rooted, hsize,
    ⟨_, hup, hdepth, ?_, hfiles, ?_⟩,
    fun id hid hne => ⟨hkept id hid hne, ?_⟩, fun j hj => ?_, ?_, fun part hpart => ?_,
    fun p hp => ?_, fun p hp hhome => ?_, fun j hj => ?_⟩
  · rw [ClusterNode.isLeaf, List.isEmpty_eq_false_iff, ne_eq, List.append_eq_nil_iff,
      List.range'_eq_nil_iff]
    omega
  · simp
  · rw [inside, inside, placesIn_rehome_of_lt hid hne]
  · obtain ⟨label, pattern, hget⟩ := hadded j hj
    exact ⟨_, hget, rfl, rfl, by rw [hdepth]⟩
  · refine List.ext_getElem (by simp) fun j hj _ => by simp
  · obtain ⟨j, hj, rfl⟩ := List.mem_mapIdx.mp hpart
    have hget := (hgroup j hj).2
    rw [List.getElem?_eq_getElem hj, Option.some_inj] at hget
    refine ⟨rfl, ?_⟩
    rw [inside, placesIn_rehome_add hlt]
    exact hget
  · rw [rehome, if_neg hp]
  · refine ⟨slots p, hslot p (mem_placesIn.mpr ⟨hp, hhome⟩), ?_⟩
    rw [rehome, if_pos hhome]
  · obtain ⟨p, hp, hslot⟩ := (hgroup j hj).1
    obtain ⟨hp, hhome⟩ := mem_placesIn.mp hp
    refine ⟨p, hp, ?_⟩
    rw [rehome, if_pos hhome, hslot]

/-- A task whose cluster is divided. -/
theorem Grown.divided (h : Grown s members homes tree (task :: waiting))
    (hdivided : 2 ≤ (s.divide task).length) :
    ∃ homes', Grown s members homes' (s.step labeler task tree state).1
      (waiting ++ (s.step labeler task tree state).2.1) := by
  obtain ⟨homes', hparted⟩ := h.parted labeler state hdivided
  obtain ⟨hnew, hdistinct⟩ := List.nodup_cons.mp h.distinct
  obtain ⟨-, hdeep, -⟩ := Shape.divide_of_two_le hdivided
  obtain ⟨above, habove, hdepth, hinner, hfiles, hchildren⟩ := hparted.above
  generalize (s.step labeler task tree state).1 = grown at *
  generalize (s.step labeler task tree state).2.1 = tasks at *
  refine ⟨homes', hparted.rooted, fun p hp => ?_, fun hsome id node hget hleaf => ?_, ?_,
    fun other hother => ?_, fun id node hget hid => ?_⟩
  · by_cases hhome : homes p = task.node
    · obtain ⟨j, hj, hhome'⟩ := hparted.moved p hp hhome
      obtain ⟨part, hpart, hleaf, -⟩ := hparted.added j hj
      exact ⟨part, hhome' ▸ hpart, hleaf⟩
    · obtain ⟨node, hget, hleaf⟩ := h.housed p hp
      refine ⟨node, ?_, hleaf⟩
      rw [hparted.stayed p hhome, (hparted.kept _ (ClusterTree.lt_size_of_node? hget) hhome).1,
        hget]
  · rcases hparted.cases hget with rfl | ⟨hid, hne, hget⟩ | ⟨j, hj, rfl⟩
    · cases habove.symm.trans hget
      cases hinner.symm.trans hleaf
    · obtain ⟨p, hp, rfl⟩ := h.inhabited hsome id node hget hleaf
      exact ⟨p, hp, hparted.stayed p hne⟩
    · exact hparted.inhabited j hj
  · rw [List.map_append, hparted.nodes]
    refine List.nodup_append'.mpr ⟨hdistinct, List.nodup_range', fun id hid hid' => ?_⟩
    -- whoever waits was there before
    obtain ⟨other, hother, rfl⟩ := List.mem_map.mp hid
    obtain ⟨node, hget, -⟩ := h.tasks other (List.mem_cons_of_mem _ hother)
    have hlt := ClusterTree.lt_size_of_node? hget
    exact absurd (List.mem_range'_1.mp hid').1 (not_le.mpr hlt)
  · rcases List.mem_append.mp hother with hother | hother
    · have hne : other.node ≠ task.node := fun heq => hnew (heq ▸ List.mem_map_of_mem hother)
      obtain ⟨node, hget, hrest⟩ := h.tasks other (List.mem_cons_of_mem _ hother)
      obtain ⟨hsame, hsame'⟩ := hparted.kept _ (ClusterTree.lt_size_of_node? hget) hne
      rw [hsame, hsame']
      exact ⟨node, hget, hrest⟩
    · obtain ⟨node, hget, hleaf, hempty, hlevel, hlevel', hmembers⟩ := hparted.exists_part hother
      exact ⟨node, hget, hleaf, hempty, hlevel, hlevel' ▸ hdeep, hmembers⟩
  · rw [List.map_append, hparted.nodes, List.mem_append, not_or] at hid
    rcases hparted.cases hget with rfl | ⟨hlt, hne, hget⟩ | ⟨j, hj, rfl⟩
    · cases habove.symm.trans hget
      refine ⟨hdepth.trans_le hdeep.le, fun hleaf => ?_,
        fun _ => ⟨hfiles, hdivided.trans hchildren⟩⟩
      cases hinner.symm.trans hleaf
    · rw [(hparted.kept id hlt hne).2]
      exact h.settled id node hget fun hmem => (List.mem_cons.mp hmem).elim hne hid.1
    · refine absurd (List.mem_range'_1.mpr ?_) hid.2
      omega

/-! ## Every task is done -/

/-- How many tasks may come of a cluster with so many members: a tree in which every division gives
two parts at least has fewer than twice as many nodes as leaves. -/
def weightOf (group : List Member) : Nat := 2 * max 1 group.length - 1

/-- Groups with members weigh less together than what they are parts of. -/
theorem sum_weightOf {groups : List (List Member)} (hgroups : ∀ group ∈ groups, group ≠ []) :
    (groups.map weightOf).sum + groups.length = 2 * (groups.map List.length).sum := by
  induction groups with
  | nil => rfl
  | cons group rest ih =>
    have hgroup := List.length_pos_iff.mpr (hgroups group (List.mem_cons_self ..))
    have hrest := ih fun group hgroup => hgroups group (List.mem_cons_of_mem _ hgroup)
    simp only [List.map_cons, List.sum_cons, List.length_cons, weightOf] at hrest ⊢
    omega

/-- How many tasks may come of some tasks. -/
def weight (waiting : List Task) : Nat := (waiting.map fun task => weightOf task.members).sum

theorem weight_cons (task : Task) (waiting : List Task) :
    weight (task :: waiting) = weightOf task.members + weight waiting := rfl

theorem weight_append (waiting tasks : List Task) :
    weight (waiting ++ tasks) = weight waiting + weight tasks := by
  rw [weight, List.map_append, List.sum_append]
  rfl

theorem weightOf_pos (group : List Member) : 0 < weightOf group := by
  rw [weightOf]
  omega

/-- The tasks that come of a task weigh less together. -/
theorem Grown.weight_step_lt (h : Grown s members homes tree (task :: waiting)) :
    weight (s.step labeler task tree state).2.1 < weightOf task.members := by
  rcases lt_or_ge (s.divide task).length 2 with hwhole | hdivided
  · rw [Shape.step_of_lt_two labeler tree state hwhole]
    exact weightOf_pos task.members
  · obtain ⟨node, hnode, -⟩ := h.tasks task (List.mem_cons_self ..)
    obtain ⟨groups, state', hgroups, hstep⟩ :=
      Shape.step_of_two_le labeler tree state hdivided
    obtain ⟨-, -, -, -, -, htasks⟩ := addGroups_eq hnode (task.depth + 1) groups
    have hweight :
        weight (s.step labeler task tree state).2.1 = ((s.divide task).map weightOf).sum := by
      rw [hstep, htasks, hgroups, weight]
      exact congrArg List.sum (List.ext_getElem (by simp) fun j hj _ => by simp)
    have hsum := sum_weightOf fun group => Shape.ne_nil_of_mem_divide hdivided
    rw [Shape.sum_length_divide hdivided] at hsum
    rw [hweight, weightOf]
    omega

/-- **The tasks that wait are all done**, and more fuel would change nothing. -/
theorem Grown.grow {fuel : Nat} (h : Grown s members homes tree waiting)
    (hfuel : weight waiting ≤ fuel) :
    (∃ homes', Grown s members homes' (s.grow labeler fuel waiting tree state).1 []) ∧
      ∀ more, s.grow labeler (fuel + more) waiting tree state =
        s.grow labeler fuel waiting tree state := by
  induction fuel generalizing waiting tree homes state with
  | zero =>
    cases waiting with
    | nil =>
      refine ⟨⟨homes, h⟩, fun more => ?_⟩
      cases more <;> rfl
    | cons task waiting =>
      have hpos := weightOf_pos task.members
      rw [weight_cons] at hfuel
      omega
  | succ fuel ih =>
    cases waiting with
    | nil =>
      refine ⟨⟨homes, h⟩, fun more => ?_⟩
      rw [Nat.add_right_comm]
      rfl
    | cons task waiting =>
      have hless := h.weight_step_lt labeler state
      have hrest : weight (waiting ++ (s.step labeler task tree state).2.1) ≤ fuel := by
        rw [weight_cons] at hfuel
        rw [weight_append]
        omega
      obtain ⟨homes', h'⟩ : ∃ homes', Grown s members homes' (s.step labeler task tree state).1
          (waiting ++ (s.step labeler task tree state).2.1) := by
        rcases lt_or_ge (s.divide task).length 2 with hwhole | hdivided
        · refine ⟨homes, ?_⟩
          have h' := h.whole labeler state hwhole
          rw [Shape.step_of_lt_two labeler tree state hwhole] at h' ⊢
          rwa [List.append_nil]
        · exact h.divided labeler state hdivided
      obtain ⟨hdone, hmore⟩ := ih (s.step labeler task tree state).2.2 h' hrest
      refine ⟨hdone, fun more => ?_⟩
      rw [Nat.add_right_comm]
      exact hmore more

end

/-! ## Coverage -/

/-- Whether there is a cluster at a place that is not divided. -/
def isLeafAt (tree : ClusterTree) (id : Nat) : Bool := (tree.node? id).any ClusterNode.isLeaf

theorem isLeafAt_iff {tree : ClusterTree} {id : Nat} :
    isLeafAt tree id = true ↔ ∃ node, tree.node? id = some node ∧ node.isLeaf = true := by
  rw [isLeafAt, Option.any_eq_true]

/-- The clusters that are not divided, by their places. -/
theorem leaves_eq (tree : ClusterTree) :
    tree.leaves = ((List.range tree.size).filter (isLeafAt tree)).filterMap fun id =>
      tree.node? id := by
  have hleaves := filterMap_filter_range tree.nodes.toList (q := isLeafAt tree)
    (r := ClusterNode.isLeaf) fun id hid => by
      rw [isLeafAt, ClusterTree.node?, Array.getElem?_eq_getElem hid]
      rfl
  rw [ClusterTree.leaves, ← hleaves]
  simp [ClusterTree.node?, ClusterTree.size]

/-- Clusters that are not divided have the files of the members that belong to them. -/
theorem Grown.files_of_leaves {s : Shape} {members : List Member} {homes : Nat → Nat}
    {tree : ClusterTree} (h : Grown s members homes tree []) {ids : List Nat}
    (hids : ∀ id ∈ ids, isLeafAt tree id = true) :
    (ids.filterMap fun id => tree.node? id).flatMap ClusterNode.files =
      (membersAt members (ids.flatMap (placesIn homes members.length))).map (·.1) := by
  induction ids with
  | nil => rfl
  | cons id ids ih =>
    obtain ⟨node, hget, hleaf⟩ := isLeafAt_iff.mp (hids id (List.mem_cons_self ..))
    have hfiles := ((h.settled id node hget List.not_mem_nil).leaf hleaf).1
    have hrest := ih fun id hid => hids id (List.mem_cons_of_mem _ hid)
    rw [List.filterMap_cons_some hget, List.flatMap_cons, List.flatMap_cons, hrest, hfiles, inside,
      membersAt_eq, membersAt_eq, membersAt_eq, List.filterMap_append, List.map_append]

/-- The files of all clusters that are not divided are the files of all members, in some order. -/
theorem Grown.files_perm {s : Shape} {members : List Member} {homes : Nat → Nat}
    {tree : ClusterTree} (h : Grown s members homes tree []) :
    (tree.leaves.flatMap ClusterNode.files).Perm (members.map (·.1)) := by
  have hids : ∀ p < members.length, homes p ∈ (List.range tree.size).filter (isLeafAt tree) := by
    intro p hp
    obtain ⟨node, hget, hleaf⟩ := h.housed p hp
    rw [List.mem_filter, List.mem_range]
    exact ⟨ClusterTree.lt_size_of_node? hget, isLeafAt_iff.mpr ⟨node, hget, hleaf⟩⟩
  have hperm := flatMap_placesIn_perm (List.nodup_range.filter (isLeafAt tree)) hids
  have hfiles : tree.leaves.flatMap ClusterNode.files =
      (membersAt members (((List.range tree.size).filter (isLeafAt tree)).flatMap
        (placesIn homes members.length))).map (·.1) := by
    rw [leaves_eq]
    exact h.files_of_leaves fun id hid => (List.mem_filter.mp hid).2
  rw [hfiles]
  refine List.Perm.map _ ?_
  have hall := hperm.filterMap (members[·]?)
  rwa [← membersAt_eq, ← membersAt_eq, membersAt_range] at hall

/-- **Every file has its place in the tree.** Whatever the vectors, the shape and the labeler, the
nodes of a tree that was built are a tree; its clusters that are not divided have the files, each as
often as it is among those that have a vector; and every place in the list of files belongs to one
of these clusters, which are as they should be (`Settled`) and are not empty unless there are no
files. The tasks of the building come to an end: more of them would change nothing. -/
theorem build_covers {σ : Type} (s : Shape) (labeler : Option (Labeler σ)) (label : String)
    (files : List String) (vectors : List Embedding) (state : σ) :
    let n := min files.length vectors.length
    let members := files.zip vectors
    let tree := (build s labeler label members state).1
    tree.Rooted ∧
    (tree.leaves.flatMap ClusterNode.files).Perm (files.take n) ∧
    (∃ homes : Nat → Nat,
      (∀ p < n, ∃ node, tree.node? (homes p) = some node ∧ node.isLeaf = true) ∧
      ∀ id node, tree.node? id = some node → Settled s (inside members homes id) node ∧
        (node.isLeaf = true → 0 < n → node.files ≠ [])) ∧
    ∀ more, s.grow labeler (2 * n + 1 + more) [⟨0, 0, members⟩]
      (.ofRoot label (pathPattern? (members.map (·.1)))) state =
        build s labeler label members state := by
  intro n members tree
  have hlength : members.length = n := List.length_zip
  have hfuel : weight [⟨0, 0, members⟩] ≤ 2 * members.length + 1 := by
    rw [weight_cons, weightOf, weight, List.map_nil, List.sum_nil]
    dsimp only
    omega
  obtain ⟨⟨homes, h⟩, hmore⟩ :=
    (grown_start s members label (pathPattern? (members.map (·.1)))).grow labeler state hfuel
  have hnames : files.take n = members.map (·.1) := by
    have htake : members = (files.take n).zip (vectors.take n) := List.zip_eq_zip_take_min
    rw [htake, List.map_fst_zip (by simp [n])]
  rw [hnames, ← hlength]
  refine ⟨h.rooted, h.files_perm, ⟨homes, h.housed, fun id node hget => ?_⟩, hmore⟩
  have hsettled : Settled s (inside members homes id) node :=
    h.settled id node hget List.not_mem_nil
  refine ⟨hsettled, fun hleaf hsome => ?_⟩
  obtain ⟨p, hp, hhome⟩ := h.inhabited (List.length_pos_iff.mp hsome) id node hget hleaf
  rw [(hsettled.leaf hleaf).1, inside, ne_eq, List.map_eq_nil_iff, ← ne_eq, ← List.length_pos_iff,
    length_membersAt fun p hp => (mem_placesIn.mp hp).1, List.length_pos_iff]
  exact List.ne_nil_of_mem (mem_placesIn.mpr ⟨hp, hhome⟩)

end CodeAtlas.Navigator
