import CodeAtlas.Proofs.Navigator.Tree
import Mathlib

/-!
# Traversals of a cluster tree

A node refers to its children by their places, so nothing in the data says that following them comes
to an end. What says it is how a tree grows: a child always stands behind its parent
(`Rooted.lt_of_mem_children`). This makes the recursion over the children of a node well founded,
and the nodes from a node on are listed by it (`Rooted.preorder`): each before what lies in it, the
children one after the other.

A tree is walked through with a stack instead. A turn takes the last node from the stack and puts
its children there in reverse order (`Walk.turn?`); nothing keeps track of the nodes that were
visited. From a stack that ends with a node, as many turns as there are nodes from it on visit these
nodes in their order, and leave the rest of the stack (`Rooted.turns?_preorder`).

* `Rooted.induction` — from the children to the node.
* `Rooted.mem_preorder_iff`, `Rooted.nodup_preorder` — the nodes from a node on are those that lie
  in it, each once.
* **`traversals_agree`** — whatever tree was built, the files, their numbers and the text that is
  shown are read off its nodes in this order.
-/

namespace CodeAtlas.ClusterTree

variable {t t' : ClusterTree} {id : Nat} {node : ClusterNode}

/-! ## Trees that are built -/

/-- A change of a tree. -/
inductive Change where
  /-- a node more, below a node -/
  | child (up : Nat) (label : String) (pattern : Option String)
  /-- other files at a node -/
  | files (id : Nat) (files : List String)

/-- The tree with a change. -/
def change? (t : ClusterTree) : Change → Option ClusterTree
  | .child up label pattern => (t.addChild? up label pattern).map (·.1)
  | .files id files => t.setFiles? id files

/-- The tree with changes, one after the other. -/
def changes? (t : ClusterTree) (changes : List Change) : Option ClusterTree :=
  changes.foldlM change? t

/-- Every change is about a node that is there when its turn comes, `size` being the number of nodes
before all of them. -/
def Valid : Nat → List Change → Prop
  | _, [] => True
  | size, .child up _ _ :: rest => up < size ∧ Valid (size + 1) rest
  | size, .files id _ :: rest => id < size ∧ Valid size rest

theorem exists_node? (h : id < t.size) : ∃ node, t.node? id = some node :=
  ⟨t.nodes[id], Array.getElem?_eq_getElem h⟩

/-- Changes that are about nodes that are there can all be made, and leave the nodes a tree. -/
theorem Rooted.exists_changes? {changes : List Change} (ht : t.Rooted) (h : Valid t.size changes) :
    ∃ t', t.changes? changes = some t' ∧ t'.Rooted := by
  induction changes generalizing t with
  | nil => exact ⟨t, rfl, ht⟩
  | cons first rest ih =>
    cases first with
    | child up label pattern =>
      obtain ⟨above, hup⟩ := exists_node? h.1
      obtain ⟨grown, hadd, hsize, -⟩ := addChild?_eq hup label pattern
      obtain ⟨t', hrest, ht'⟩ := ih (ht.addChild? hup hadd) (hsize ▸ h.2)
      refine ⟨t', ?_, ht'⟩
      rw [changes?, List.foldlM_cons, change?, hadd]
      exact hrest
    | files id files =>
      obtain ⟨node, hnode⟩ := exists_node? h.1
      obtain ⟨filled, hset, hsize, -⟩ := setFiles?_eq hnode files
      obtain ⟨t', hrest, ht'⟩ := ih (ht.setFiles? hnode hset) (hsize ▸ h.2)
      refine ⟨t', ?_, ht'⟩
      rw [changes?, List.foldlM_cons, change?, hset]
      exact hrest

/-! ## Children stand behind their parents -/

/-- A child has its node as its parent, and stands behind it. -/
theorem Rooted.child (ht : t.Rooted) (hnode : t.node? id = some node) {c : Nat}
    (hc : c ∈ node.children) :
    id < c ∧ ∃ child, t.node? c = some child ∧ child.parent = some id := by
  obtain ⟨child, hchild, hparent⟩ := (ht.children id node hnode).2 c hc
  refine ⟨?_, child, hchild, hparent⟩
  rcases Nat.eq_zero_or_pos c with rfl | hpos
  · -- the root is no child
    obtain ⟨root, hroot, hnone, -⟩ := ht.root
    rw [Option.some.inj (hchild.symm.trans hroot), hnone] at hparent
    cases hparent
  · obtain ⟨up, -, hup, hlt, -⟩ := ht.below c child hpos hchild
    rwa [Option.some.inj (hparent.symm.trans hup)]

theorem Rooted.lt_of_mem_children (ht : t.Rooted) (hnode : t.node? id = some node) {c : Nat}
    (hc : c ∈ node.children) : id < c ∧ c < t.size := by
  obtain ⟨hlt, child, hchild, -⟩ := ht.child hnode hc
  exact ⟨hlt, lt_size_of_node? hchild⟩

/-- **What passes from the children of a node to the node** holds of every node. -/
theorem Rooted.induction (ht : t.Rooted) {P : Nat → Prop}
    (step : ∀ id node, t.node? id = some node → (∀ c ∈ node.children, P c) → P id) :
    ∀ id < t.size, P id := by
  intro id hid
  induction h : t.size - id using Nat.strong_induction_on generalizing id with
  | _ n ih =>
    obtain ⟨node, hnode⟩ := exists_node? hid
    refine step id node hnode fun c hc => ?_
    obtain ⟨hlt, hsize⟩ := ht.lt_of_mem_children hnode hc
    exact ih (t.size - c) (by omega) c hsize rfl

/-! ## The nodes from a node on -/

/-- The nodes from a node on, each before what lies in it. The recursion ends because children stand
behind their parents. -/
def Rooted.preorder (ht : t.Rooted) (id : Nat) : List Nat :=
  match h : t.node? id with
  | none => []
  | some node => id :: node.children.attach.flatMap fun ⟨c, hc⟩ =>
    have := ht.lt_of_mem_children h hc
    ht.preorder c
termination_by t.size - id

theorem Rooted.preorder_eq (ht : t.Rooted) (hnode : t.node? id = some node) :
    ht.preorder id = id :: node.children.flatMap ht.preorder := by
  rw [Rooted.preorder]
  split
  · next hnone => cases hnone.symm.trans hnode
  · next found hfound =>
    obtain rfl := Option.some.inj (hfound.symm.trans hnode)
    simp

/-- The node `d` refers to `up` as its parent. -/
def ParentOf (t : ClusterTree) (d up : Nat) : Prop :=
  ∃ node, t.node? d = some node ∧ node.parent = some up

/-- The node `d` lies in the node `id`: from `d` the parents lead there. A node lies in itself. -/
def LiesIn (t : ClusterTree) (d id : Nat) : Prop :=
  Relation.ReflTransGen t.ParentOf d id

variable {d up : Nat}

theorem ParentOf.rightUnique (t : ClusterTree) : Relator.RightUnique t.ParentOf := by
  rintro d up up' ⟨node, hnode, hup⟩ ⟨node', hnode', hup'⟩
  obtain rfl := Option.some.inj (hnode.symm.trans hnode')
  exact Option.some.inj (hup.symm.trans hup')

/-- A node that has a parent is a child of it. -/
theorem Rooted.of_parentOf (ht : t.Rooted) (h : t.ParentOf d up) :
    up < d ∧ ∃ above, t.node? up = some above ∧ d ∈ above.children := by
  obtain ⟨node, hnode, hparent⟩ := h
  rcases Nat.eq_zero_or_pos d with rfl | hpos
  · obtain ⟨root, hroot, hnone, -⟩ := ht.root
    rw [Option.some.inj (hnode.symm.trans hroot), hnone] at hparent
    cases hparent
  · obtain ⟨up', above, hup', hlt, habove, hmem, -⟩ := ht.below d node hpos hnode
    obtain rfl := Option.some.inj (hparent.symm.trans hup')
    exact ⟨hlt, above, habove, hmem⟩

theorem Rooted.parentOf_of_mem (ht : t.Rooted) (hnode : t.node? id = some node) {c : Nat}
    (hc : c ∈ node.children) : t.ParentOf c id :=
  (ht.child hnode hc).2

/-- A node stands behind those that it lies in. -/
theorem Rooted.le_of_liesIn (ht : t.Rooted) (h : t.LiesIn d id) : id ≤ d := by
  induction h with
  | refl => exact le_rfl
  | tail _ hparent ih => exact (ht.of_parentOf hparent).1.le.trans ih

/-- Every node lies in the root. -/
theorem Rooted.liesIn_root (ht : t.Rooted) (h : d < t.size) : t.LiesIn d 0 := by
  induction d using Nat.strong_induction_on with
  | _ d ih =>
    rcases Nat.eq_zero_or_pos d with rfl | hpos
    · exact .refl
    · obtain ⟨node, hnode⟩ := exists_node? h
      obtain ⟨up, -, hparent, hlt, -⟩ := ht.below d node hpos hnode
      exact .head ⟨node, hnode, hparent⟩ (ih up hlt (hlt.trans h))

/-- **The nodes from a node on are those that lie in it.** -/
theorem Rooted.mem_preorder_iff (ht : t.Rooted) :
    ∀ id < t.size, ∀ d, d ∈ ht.preorder id ↔ t.LiesIn d id := by
  refine ht.induction fun id node hnode ih d => ?_
  rw [ht.preorder_eq hnode, List.mem_cons, List.mem_flatMap]
  constructor
  · rintro (rfl | ⟨c, hc, hd⟩)
    · exact .refl
    · exact .tail ((ih c hc d).mp hd) (ht.parentOf_of_mem hnode hc)
  · intro h
    rcases h.cases_tail with rfl | ⟨c, hd, hparent⟩
    · exact .inl rfl
    · obtain ⟨-, above, habove, hc⟩ := ht.of_parentOf hparent
      obtain rfl := Option.some.inj (habove.symm.trans hnode)
      exact .inr ⟨c, hc, (ih c hc d).mpr hd⟩

/-- Nothing lies in two children of a node. -/
theorem Rooted.eq_of_liesIn (ht : t.Rooted) (hnode : t.node? id = some node) {c c' : Nat}
    (hc : c ∈ node.children) (hc' : c' ∈ node.children) (hd : t.LiesIn d c) (hd' : t.LiesIn d c') :
    c = c' := by
  -- one of them would lie in the other, hence in the node that both are behind
  have hnot : ∀ {x y}, x ∈ node.children → y ∈ node.children → t.LiesIn x y → x = y := by
    intro x y hx hy hxy
    rcases hxy.cases_head with rfl | ⟨up, hparent, hup⟩
    · rfl
    · obtain rfl := ParentOf.rightUnique t hparent (ht.parentOf_of_mem hnode hx)
      exact absurd (ht.le_of_liesIn hup) (not_le.mpr (ht.lt_of_mem_children hnode hy).1)
  rcases Relation.ReflTransGen.total_of_right_unique (ParentOf.rightUnique t) hd hd' with h | h
  · exact hnot hc hc' h
  · exact (hnot hc' hc h).symm

/-- **No node comes twice** from a node on. -/
theorem Rooted.nodup_preorder (ht : t.Rooted) : ∀ id < t.size, (ht.preorder id).Nodup := by
  refine ht.induction fun id node hnode ih => ?_
  have hmem : ∀ c ∈ node.children, ∀ d, d ∈ ht.preorder c ↔ t.LiesIn d c := fun c hc =>
    ht.mem_preorder_iff c (ht.lt_of_mem_children hnode hc).2
  rw [ht.preorder_eq hnode, List.nodup_cons, List.nodup_flatMap]
  refine ⟨fun h => ?_, ih, (ht.children id node hnode).1.imp_of_mem fun hc hc' hne d hd hd' => ?_⟩
  · obtain ⟨c, hc, hid⟩ := List.mem_flatMap.mp h
    exact absurd (ht.le_of_liesIn ((hmem c hc id).mp hid))
      (not_le.mpr (ht.lt_of_mem_children hnode hc).1)
  · exact hne (ht.eq_of_liesIn hnode hc hc' ((hmem _ hc d).mp hd) ((hmem _ hc' d).mp hd'))

theorem Rooted.size_pos (ht : t.Rooted) : 0 < t.size := by
  obtain ⟨root, hroot, -⟩ := ht.root
  exact lt_size_of_node? hroot

/-- From the root on there are all nodes. -/
theorem Rooted.preorder_root_perm (ht : t.Rooted) : (ht.preorder 0).Perm (List.range t.size) := by
  refine (List.perm_ext_iff_of_nodup (ht.nodup_preorder 0 ht.size_pos) List.nodup_range).mpr
    fun d => ?_
  rw [ht.mem_preorder_iff 0 ht.size_pos, List.mem_range]
  constructor
  · intro h
    rcases h.cases_head with rfl | ⟨up, ⟨node, hnode, -⟩, -⟩
    · exact ht.size_pos
    · exact lt_size_of_node? hnode
  · exact ht.liesIn_root

/-! ## All children -/

theorem mem_childrenOf {c : Nat} :
    c ∈ t.childrenOf id ↔ ∃ node, t.node? id = some node ∧ c ∈ node.children := by
  rw [childrenOf]
  cases t.node? id <;> simp

/-- **Every node but the root is a child once**, of a single node. -/
theorem Rooted.children_perm (ht : t.Rooted) :
    ((List.range t.size).flatMap t.childrenOf).Perm (List.range' 1 (t.size - 1)) := by
  have hnodup : ((List.range t.size).flatMap t.childrenOf).Nodup := by
    refine List.nodup_flatMap.mpr ⟨fun id hid => ?_, List.nodup_range.imp fun hne c hc hc' => ?_⟩
    · obtain ⟨node, hnode⟩ := exists_node? (List.mem_range.mp hid)
      rw [childrenOf, hnode]
      exact (ht.children id node hnode).1
    · obtain ⟨node, hnode, hc⟩ := mem_childrenOf.mp hc
      obtain ⟨node', hnode', hc'⟩ := mem_childrenOf.mp hc'
      exact hne
        (ParentOf.rightUnique t (ht.parentOf_of_mem hnode hc) (ht.parentOf_of_mem hnode' hc'))
  refine (List.perm_ext_iff_of_nodup hnodup List.nodup_range').mpr fun c => ?_
  rw [List.mem_flatMap, List.mem_range'_1]
  constructor
  · rintro ⟨id, -, hc⟩
    obtain ⟨node, hnode, hc⟩ := mem_childrenOf.mp hc
    have := ht.lt_of_mem_children hnode hc
    omega
  · rintro ⟨hpos, hlt⟩
    obtain ⟨node, hnode⟩ := exists_node? (show c < t.size by omega)
    obtain ⟨up, above, -, -, habove, hmem, -⟩ := ht.below c node hpos hnode
    exact ⟨up, List.mem_range.mpr (lt_size_of_node? habove),
      mem_childrenOf.mpr ⟨above, habove, hmem⟩⟩

/-! ## Walking with a stack -/

/-- A walk on its way: what it has come to so far, and the stack, whose last node is the next one.
-/
structure Walk (α : Type) where
  /-- what it has come to -/
  out : α
  /-- the nodes that are still to be visited -/
  stack : List Nat

section

variable {α : Type} (t : ClusterTree) (visit : α → Nat → α)

/-- A turn of a walk: the last node on the stack is visited, and its children come there in its
place, the last one first. There is no turn if the stack is empty, or if there is no such node. -/
def Walk.turn? (w : Walk α) : Option (Walk α) := do
  let id ← w.stack.getLast?
  let node ← t.node? id
  return ⟨visit w.out id, w.stack.dropLast ++ node.children.reverse⟩

/-- So many turns of a walk. -/
def Walk.turns? : Nat → Walk α → Option (Walk α)
  | 0, w => some w
  | n + 1, w => (w.turn? t visit).bind (turns? n)

/-- The start of a walk: only the root is on the stack. -/
def Walk.start (out : α) : Walk α := ⟨out, [0]⟩

end

section

variable {α : Type} {visit : α → Nat → α}

theorem Walk.turns?_succ (hnode : t.node? id = some node) (n : Nat) (out : α) (stack : List Nat) :
    turns? t visit (n + 1) ⟨out, stack ++ [id]⟩ =
      turns? t visit n ⟨visit out id, stack ++ node.children.reverse⟩ := by
  simp [turns?, turn?, hnode]

/-- **A walk visits the nodes from the last one on**, and leaves the rest of the stack. The children
are dealt with one after the other, by the induction over the list of them. -/
theorem Rooted.turns?_preorder (ht : t.Rooted) :
    ∀ id < t.size, ∀ (n : Nat) (out : α) (stack : List Nat),
    Walk.turns? t visit ((ht.preorder id).length + n) ⟨out, stack ++ [id]⟩ =
      Walk.turns? t visit n ⟨(ht.preorder id).foldl visit out, stack⟩ := by
  refine ht.induction fun id node hnode ih n out stack => ?_
  have hchildren : ∀ children ⊆ node.children, ∀ out,
      Walk.turns? t visit ((children.flatMap ht.preorder).length + n)
        ⟨out, stack ++ children.reverse⟩ =
        Walk.turns? t visit n ⟨(children.flatMap ht.preorder).foldl visit out, stack⟩ := by
    intro children hsubset out
    induction children generalizing out with
    | nil => simp
    | cons c rest ihrest =>
      obtain ⟨hc, hrest⟩ := List.cons_subset.mp hsubset
      rw [List.flatMap_cons, List.length_append, Nat.add_assoc, List.reverse_cons,
        ← List.append_assoc, ih c hc, ihrest hrest, List.foldl_append]
  rw [ht.preorder_eq hnode, List.length_cons, Nat.add_right_comm, Walk.turns?_succ hnode,
    hchildren node.children (List.Subset.refl _), List.foldl_cons]

/-- **A walk from the root ends after as many turns as there are nodes.** -/
theorem Rooted.turns?_root (ht : t.Rooted) (out : α) :
    Walk.turns? t visit t.size (.start out) = some ⟨(ht.preorder 0).foldl visit out, []⟩ := by
  have hsize : (ht.preorder 0).length = t.size := by
    rw [ht.preorder_root_perm.length_eq, List.length_range]
  have hturns : Walk.turns? t visit ((ht.preorder 0).length + 0) ⟨out, [] ++ [0]⟩ = _ :=
    ht.turns?_preorder 0 ht.size_pos 0 out []
  rwa [hsize] at hturns

end

/-- The nodes that are shown are those that a walk visits. -/
theorem outlineFrom_of_turns? {n : Nat} {w w' : Walk (List Nat)}
    (h : w.turns? t (fun out id => out ++ [id]) n = some w') :
    w'.out = w.out ++ t.outlineFrom n w.stack.reverse := by
  induction n generalizing w with
  | zero =>
    obtain rfl := Option.some.inj h
    exact (List.append_nil _).symm
  | succ n ih =>
    obtain ⟨next, hturn, hrest⟩ := Option.bind_eq_some_iff.mp h
    obtain ⟨id, hlast, hturn⟩ := Option.bind_eq_some_iff.mp hturn
    obtain ⟨node, hnode, hturn⟩ := Option.bind_eq_some_iff.mp hturn
    obtain rfl := Option.some.inj hturn
    obtain ⟨stack, hstack⟩ := List.getLast?_eq_some_iff.mp hlast
    have hchildren : t.childrenOf id = node.children := by rw [childrenOf, hnode]
    rw [ih hrest, hstack]
    simp [outlineFrom, hchildren]

theorem Rooted.outline_eq (ht : t.Rooted) : t.outline = ht.preorder 0 := by
  have hwalk : _ = [] ++ t.outlineFrom t.size [0] := outlineFrom_of_turns? (ht.turns?_root [])
  rw [← List.flatMap_eq_foldl, List.flatMap_singleton'] at hwalk
  exact hwalk.symm

/-! ## What is read off a tree -/

/-- The files of a node itself. -/
def filesAt (t : ClusterTree) (id : Nat) : List String := ((t.node? id).map (·.files)).getD []

theorem filesAt_eq (hnode : t.node? id = some node) : t.filesAt id = node.files := by
  rw [filesAt, hnode]
  rfl

/-- The files from a node on are its own and those from its children on. -/
theorem Rooted.length_flatMap_preorder (ht : t.Rooted) (hnode : t.node? id = some node) :
    ((ht.preorder id).flatMap t.filesAt).length =
      node.files.length +
        (node.children.map fun c => ((ht.preorder c).flatMap t.filesAt).length).sum := by
  rw [ht.preorder_eq hnode, List.flatMap_cons, filesAt_eq hnode, List.length_append,
    List.flatMap_assoc, List.length_flatMap]

/-- The files in a node are its own and those in its children, a level less deep. -/
theorem fileCountDown_succ (t : ClusterTree) (fuel id : Nat) : t.fileCountDown (fuel + 1) id =
    match t.node? id with
    | none => 0
    | some n => n.files.length + (n.children.map (t.fileCountDown fuel)).sum :=
  rfl

/-- **The files in a node are counted**, however many levels more would be looked at. -/
theorem Rooted.fileCountDown_eq (ht : t.Rooted) : ∀ id < t.size, ∀ fuel, t.size - id ≤ fuel →
    t.fileCountDown fuel id = ((ht.preorder id).flatMap t.filesAt).length := by
  refine ht.induction fun id node hnode ih fuel hfuel => ?_
  obtain ⟨fuel, rfl⟩ : ∃ less, fuel = less + 1 := by
    have := lt_size_of_node? hnode
    exact ⟨fuel - 1, by omega⟩
  have hchildren : node.children.map (t.fileCountDown fuel) =
      node.children.map fun c => ((ht.preorder c).flatMap t.filesAt).length := by
    refine List.map_congr_left fun c hc => ih c hc fuel ?_
    have := ht.lt_of_mem_children hnode hc
    omega
  rw [ht.length_flatMap_preorder hnode, ← hchildren, fileCountDown_succ, hnode]

/-- What the traversals of a tree come to, the nodes from each node on being listed by `preorder`.
-/
structure Traversed (t : ClusterTree) (preorder : Nat → List Nat) : Prop where
  /-- a node comes before what lies in it, and its children come one after the other -/
  recursive : ∀ id node, t.node? id = some node → preorder id = id :: node.children.flatMap preorder
  /-- the list has what lies in the node, each once -/
  subtree : ∀ id < t.size, (preorder id).Nodup ∧ ∀ d, d ∈ preorder id ↔ t.LiesIn d id
  /-- from the root on, it has all nodes -/
  whole : (preorder 0).Perm (List.range t.size)
  /-- the walk that collects files ends, and finds those of the nodes in this order -/
  allFiles : Walk.turns? t (fun out id => out ++ t.filesAt id) t.size (.start []) =
    some ⟨t.allFiles, []⟩ ∧
    t.allFiles = (preorder 0).flatMap t.filesAt
  /-- the walk that writes the text ends, and writes that of each node once in this order -/
  render : ∀ limit, Walk.turns? t (fun out id => out ++ t.nodeText limit id) t.size (.start "") =
      some ⟨t.render limit, []⟩ ∧
    t.render limit = String.join ((preorder 0).map (t.nodeText limit))
  /-- the files in a node are those of the nodes that lie in it -/
  fileCount : ∀ id < t.size, t.fileCount id = ((preorder id).flatMap t.filesAt).length
  /-- they are counted by the recursion over the children -/
  counted : ∀ id node, t.node? id = some node →
    t.fileCount id = node.files.length + (node.children.map t.fileCount).sum
  /-- this recursion ends: no more levels are needed than there are nodes -/
  ended : ∀ id < t.size, ∀ more, t.fileCountDown (t.size + more) id = t.fileCount id
  /-- all files are counted at the root -/
  total : t.fileCount 0 = t.allFiles.length

theorem Rooted.traversed (ht : t.Rooted) : Traversed t ht.preorder := by
  have hfiles : t.allFiles = (ht.preorder 0).flatMap t.filesAt := by
    rw [allFiles, ht.outline_eq]
    rfl
  have hcount : ∀ id < t.size, t.fileCount id = ((ht.preorder id).flatMap t.filesAt).length :=
    fun id hid =>
    ht.fileCountDown_eq id hid t.size (Nat.sub_le ..)
  refine ⟨fun id node => ht.preorder_eq,
    fun id hid => ⟨ht.nodup_preorder id hid, ht.mem_preorder_iff id hid⟩,
    ht.preorder_root_perm, ⟨?_, hfiles⟩, fun limit => ⟨?_, ?_⟩, hcount, fun id node hnode => ?_,
    fun id hid more => ?_, ?_⟩
  · rw [ht.turns?_root, ← List.flatMap_eq_foldl, hfiles]
  · rw [ht.turns?_root, ClusterTree.render, ht.outline_eq, String.join, List.foldl_map]
  · rw [ClusterTree.render, ht.outline_eq]
  · have hchildren : node.children.map t.fileCount =
        node.children.map fun c => ((ht.preorder c).flatMap t.filesAt).length :=
      List.map_congr_left fun c hc => hcount c (ht.lt_of_mem_children hnode hc).2
    rw [hcount id (lt_size_of_node? hnode), hchildren, ht.length_flatMap_preorder hnode]
  · rw [hcount id hid]
    exact ht.fileCountDown_eq id hid _ (by omega)
  · rw [hcount 0 ht.size_pos, hfiles]

/-- **The traversals of a tree agree.** However a tree was built from its root, by nodes below nodes
that are there and by files at nodes that are there, in whatever order: its nodes are a tree, in
which a node stands behind its parent and a level deeper; every node but the root is a child of one
node only, and once; and what is read off the tree is read off its nodes in the order of the
recursion over the children. -/
theorem traversals_agree (label : String) (pattern : Option String) {changes : List Change}
    (hvalid : Valid 1 changes) :
    ∃ t, (ofRoot label pattern).changes? changes = some t ∧
      ∃ ht : t.Rooted, Traversed t ht.preorder ∧
        ((List.range t.size).flatMap t.childrenOf).Perm (List.range' 1 (t.size - 1)) := by
  obtain ⟨t, hbuilt, ht⟩ := (rooted_ofRoot label pattern).exists_changes? hvalid
  exact ⟨t, hbuilt, ht, ht.traversed, ht.children_perm⟩

/-- A tree of two levels that grows level by level, whose nodes are not shown in the order of their
places. -/
theorem traversals_agree_byLevels :
    let changes : List
      Change := [.child 0 "auth" (some "src/auth/**"), .child 0 "docs" none, .child 1 "jwt" none,
      .child 2 "api" none, .child 1 "login" none, .files 3 ["src/auth/jwt.rs"],
      .files 4 ["api.md", "errors.md"], .files 5 ["src/auth/login.rs"]]
    Valid 1 changes ∧ ∃ t, (ofRoot "repo" none).changes? changes = some t ∧
      t.outline = [0, 1, 3, 5, 2, 4] ∧
      ∃ ht : t.Rooted, Traversed t ht.preorder ∧
        ((List.range t.size).flatMap t.childrenOf).Perm (List.range' 1 (t.size - 1)) := by
  intro changes
  have hvalid : Valid 1 changes := by simp [changes, Valid]
  obtain ⟨t, hbuilt, hagree⟩ := traversals_agree "repo" none hvalid
  have houtline :
      ((ofRoot "repo" none).changes? changes).map outline = some [0, 1, 3, 5, 2, 4] := by decide
  rw [hbuilt] at houtline
  exact ⟨hvalid, t, hbuilt, Option.some.inj houtline, hagree⟩

end CodeAtlas.ClusterTree
