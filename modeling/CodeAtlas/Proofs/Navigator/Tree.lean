import CodeAtlas.Navigator.Tree
import Mathlib.Tactic

/-!
# How cluster trees grow

A tree is only ever changed in two ways: a node comes at the end, below a node that is there, or
files are put into a node. Both are said here by what stands at each place afterwards
(`addChild?_eq`, `setFiles?_eq`), and both keep the list of nodes a tree (`ClusterTree.Rooted`):
every node but the root is below one that came before it, one level deeper, and it is a child of
that one only.
-/

namespace CodeAtlas.ClusterTree

/-- The nodes are a tree whose root is the first one. -/
structure Rooted (t : ClusterTree) : Prop where
  /-- the first node lies in no other -/
  root : ∃ node, t.node? 0 = some node ∧ node.parent = none ∧ node.depth = 0
  /-- every other node is a child of one that came before it -/
  below : ∀ id node, 0 < id → t.node? id = some node → ∃ up above, node.parent = some up ∧ up < id ∧
    t.node? up = some above ∧ id ∈ above.children ∧ node.depth = above.depth + 1
  /-- children are told apart, and have the node as their parent -/
  children : ∀ id node, t.node? id = some node →
    node.children.Nodup ∧ ∀ c ∈ node.children, ∃ child, t.node? c = some child ∧
      child.parent = some id

variable {t t' : ClusterTree} {id up : Nat} {node : ClusterNode}

theorem lt_size_of_node? (h : t.node? id = some node) : id < t.size :=
  (Array.getElem?_eq_some_iff.mp h).1

/-- The tree that is only a root. -/
theorem rooted_ofRoot (label : String) (pattern : Option String) :
    (ofRoot label pattern).Rooted where
  root := ⟨_, rfl, rfl, rfl⟩
  below id node hid h := by
    have := lt_size_of_node? h
    exact absurd this (by simp [ofRoot, size]; omega)
  children id node h := by
    have hid : id = 0 := Nat.lt_one_iff.mp (lt_size_of_node? h)
    subst hid
    cases h
    exact ⟨List.nodup_nil, fun c hc => absurd hc List.not_mem_nil⟩

/-! ## Trees that contain another -/

/-- Every node of a tree is in another one, with its parent and its depth, and with its children at
least. -/
def Within (t t' : ClusterTree) : Prop :=
  ∀ id old, t.node? id = some old → ∃ new, t'.node? id = some new ∧ new.parent = old.parent ∧
    new.depth = old.depth ∧ old.children ⊆ new.children

theorem Rooted.root_of_within (ht : t.Rooted) (h : t.Within t') :
    ∃ node, t'.node? 0 = some node ∧ node.parent = none ∧ node.depth = 0 := by
  obtain ⟨root, hroot, hparent, hdepth⟩ := ht.root
  obtain ⟨root', hroot', hparent', hdepth', -⟩ := h 0 root hroot
  exact ⟨root', hroot', hparent'.trans hparent, hdepth'.trans hdepth⟩

theorem Rooted.below_of_within (ht : t.Rooted) (h : t.Within t') (hid : 0 < id)
    (hnode : t.node? id = some node) : ∃ up above, node.parent = some up ∧ up < id ∧
      t'.node? up = some above ∧ id ∈ above.children ∧ node.depth = above.depth + 1 := by
  obtain ⟨up, above, hparent, hup, habove, hmem, hdepth⟩ := ht.below id node hid hnode
  obtain ⟨above', habove', -, hdepth', hchildren⟩ := h up above habove
  exact ⟨up, above', hparent, hup, habove', hchildren hmem, hdepth'.symm ▸ hdepth⟩

theorem Rooted.children_of_within (ht : t.Rooted) (h : t.Within t')
    (hnode : t.node? id = some node) :
    ∀ c ∈ node.children, ∃ child, t'.node? c = some child ∧ child.parent = some id := by
  intro c hc
  obtain ⟨child, hchild, hparent⟩ := (ht.children id node hnode).2 c hc
  obtain ⟨child', hchild', hparent', -⟩ := h c child hchild
  exact ⟨child', hchild', hparent'.trans hparent⟩

/-! ## A node more -/

/-- What stands at each place after a node was added. -/
theorem addChild?_eq (hup : t.node? up = some node) (label : String) (pattern : Option String) :
    ∃ t', t.addChild? up label pattern = some (t', t.size) ∧ t'.size = t.size + 1 ∧
      ∀ id, t'.node? id =
        if id = t.size then some ⟨label, pattern, [], [], some up, node.depth + 1⟩
        else if id = up then some { node with children := node.children ++ [t.size] }
        else t.node? id := by
  refine ⟨_, by simp only [addChild?, hup]; rfl, by simp [size], fun id => ?_⟩
  simp only [node?, Array.getElem?_push, Array.size_modify, Array.getElem?_modify,
    eq_comm (b := id)]
  refine if_congr Iff.rfl rfl ?_
  split
  · next heq =>
    rw [heq, ← node?, hup]
    rfl
  · rfl

/-- A node more leaves the nodes a tree. -/
theorem Rooted.addChild? (ht : t.Rooted) (hup : t.node? up = some node) {label : String}
    {pattern : Option String} (h : t.addChild? up label pattern = some (t', id)) : t'.Rooted := by
  obtain ⟨t'', h', -, hnode⟩ := addChild?_eq hup label pattern
  cases h.symm.trans h'
  have hlt : up < t.size := lt_size_of_node? hup
  have hwithin : t.Within t' := by
    intro i old hold
    rw [hnode, if_neg (lt_size_of_node? hold).ne]
    split
    · next heq =>
      rw [heq, hup] at hold
      cases hold
      exact ⟨_, rfl, rfl, rfl, List.subset_append_left _ _⟩
    · exact ⟨old, hold, rfl, rfl, List.Subset.refl _⟩
  refine ⟨ht.root_of_within hwithin, fun i new hi hnew => ?_, fun i new hnew => ?_⟩
  · rw [hnode] at hnew
    split at hnew
    · next hlast =>
      cases hnew
      refine ⟨up, { node with children := node.children ++ [t.size] }, rfl, hlast ▸ hlt,
        ?_, by simp [hlast], rfl⟩
      rw [hnode, if_neg hlt.ne, if_pos rfl]
    · split at hnew
      · next heq =>
        cases hnew
        subst heq
        have hbelow := ht.below_of_within hwithin hi hup
        exact hbelow
      · exact ht.below_of_within hwithin hi hnew
  · rw [hnode] at hnew
    split at hnew
    · cases hnew
      exact ⟨List.nodup_nil, fun c hc => absurd hc List.not_mem_nil⟩
    · split at hnew
      · next heq =>
        cases hnew
        subst heq
        -- the node that came is none of the children that were there
        have hfresh : t.size ∉ node.children := by
          intro hmem
          obtain ⟨child, hchild, -⟩ := (ht.children i node hup).2 _ hmem
          exact (lt_size_of_node? hchild).false
        have hnodup : (node.children ++ [t.size]).Nodup := by
          rw [← List.concat_eq_append]
          exact (ht.children i node hup).1.concat hfresh
        refine ⟨hnodup, fun c hc => ?_⟩
        rcases List.mem_append.mp hc with hc | hc
        · exact ht.children_of_within hwithin hup c hc
        · rw [List.mem_singleton.mp hc, hnode, if_pos rfl]
          exact ⟨_, rfl, rfl⟩
      · exact ⟨(ht.children i new hnew).1, ht.children_of_within hwithin hnew⟩

/-! ## Files in a node -/

/-- What stands at each place after files were put into a node. -/
theorem setFiles?_eq (h : t.node? id = some node) (files : List String) :
    ∃ t', t.setFiles? id files = some t' ∧ t'.size = t.size ∧
      ∀ i, t'.node? i = if i = id then some { node with files } else t.node? i := by
  have hlt : id < t.nodes.size := lt_size_of_node? h
  refine ⟨_, by simp only [setFiles?, update?, if_pos hlt]; rfl, by simp [size], fun i => ?_⟩
  simp only [node?, Array.getElem?_modify, eq_comm (b := i)]
  split
  · next heq =>
    rw [heq, ← node?, h]
    rfl
  · rfl

/-- Files in a node leave the nodes a tree. -/
theorem Rooted.setFiles? (ht : t.Rooted) (hnode : t.node? id = some node) {files : List String}
    (h : t.setFiles? id files = some t') : t'.Rooted := by
  obtain ⟨t'', h', -, hget⟩ := setFiles?_eq hnode files
  cases h.symm.trans h'
  have hwithin : t.Within t' := by
    intro i old hold
    rw [hget]
    split
    · next heq =>
      rw [heq, hnode] at hold
      cases hold
      exact ⟨_, rfl, rfl, rfl, List.Subset.refl _⟩
    · exact ⟨old, hold, rfl, rfl, List.Subset.refl _⟩
  -- nothing but files has changed
  have hback : ∀ i new, t'.node? i = some new → ∃ old, t.node? i = some old ∧
      new.parent = old.parent ∧ new.depth = old.depth ∧ new.children = old.children := by
    intro i new hnew
    rw [hget] at hnew
    split at hnew
    · next heq =>
      cases hnew
      exact ⟨node, heq ▸ hnode, rfl, rfl, rfl⟩
    · exact ⟨new, hnew, rfl, rfl, rfl⟩
  refine ⟨ht.root_of_within hwithin, fun i new hi hnew => ?_, fun i new hnew => ?_⟩
  · obtain ⟨old, hold, hparent, hdepth, -⟩ := hback i new hnew
    rw [hparent, hdepth]
    exact ht.below_of_within hwithin hi hold
  · obtain ⟨old, hold, -, -, hchildren⟩ := hback i new hnew
    rw [hchildren]
    exact ⟨(ht.children i old hold).1, ht.children_of_within hwithin hold⟩

end CodeAtlas.ClusterTree
