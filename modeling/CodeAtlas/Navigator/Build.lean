import CodeAtlas.Navigator.Label
import CodeAtlas.Navigator.Pattern
import CodeAtlas.Navigator.Spectral
import CodeAtlas.Navigator.Tree
import CodeAtlas.Settings.Basic

/-!
# Building cluster trees

Files are divided by the similarity of their vectors, level by level, until a cluster is small
enough or deep enough, or cannot be divided. The clusters of one level are divided in turn, and
those that a cluster is divided into are named together.

* `Navigator.build` — the tree of some files.
-/

namespace CodeAtlas

namespace Navigator

/-- The shape of a tree. -/
structure Shape where
  /-- how deep a cluster may lie -/
  maxDepth : Nat
  /-- how many clusters one may be divided into -/
  maxClusters : Nat
  /-- how many files a cluster may have without being divided -/
  leafSize : Nat
  deriving DecidableEq, Inhabited

/-- A shape with some of its numbers replaced. A cluster is divided into two at least, and a leaf
has room for one file. -/
def Shape.override (s : Shape) (maxDepth maxClusters leafSize : Option Nat) : Shape where
  maxDepth := maxDepth.getD s.maxDepth
  maxClusters := max (maxClusters.getD s.maxClusters) 2
  leafSize := max (leafSize.getD s.leafSize) 1

/-- A file with its vector. -/
abbrev Member := String × Embedding

/-- A cluster that waits to be divided: its node and its members. -/
structure Task where
  /-- the node -/
  node : Nat
  /-- how many clusters it lies in -/
  depth : Nat
  /-- its members -/
  members : List Member

/-- The members at some places. -/
def membersAt (members : List Member) (places : List Nat) : List Member :=
  let array := members.toArray
  places.filterMap fun i => array[i]?

/-- The groups that a cluster is divided into; a single group if it stays whole. -/
def Shape.divide (s : Shape) (task : Task) : List (List Member) :=
  if task.members.length ≤ max s.leafSize 1 || s.maxDepth ≤ task.depth then [task.members]
  else (spectralPartition (task.members.map (·.2)) s.maxClusters).map (membersAt task.members)

/-- The group of some members, as it is shown when it is to be named. -/
def siblingOf (members : List Member) : SiblingGroup :=
  let files := members.map (·.1)
  ⟨pathPattern? files, files⟩

/-- Adds a node for each group below a node, and gives the tasks that they are. -/
def addGroups (parent depth : Nat) :
    List (List Member × SiblingGroup × String) → ClusterTree → ClusterTree × List Task
  | [], tree => (tree, [])
  | (members, sibling, label) :: rest, tree =>
    match tree.addChild? parent label sibling.pattern with
    | none => (tree, [])
    | some (tree, id) =>
      let (tree, tasks) := addGroups parent depth rest tree
      (tree, ⟨id, depth, members⟩ :: tasks)

/-- Divides the cluster of a task, or fills its node with its files. The tasks that come of it are
the second part. -/
def Shape.step {σ : Type} (s : Shape) (labeler : Option (Labeler σ)) (task : Task)
    (tree : ClusterTree) (state : σ) : ClusterTree × List Task × σ :=
  let groups := s.divide task
  if groups.length < 2 then
    ((tree.setFiles? task.node (task.members.map (·.1))).getD tree, [], state)
  else
    let siblings := groups.map siblingOf
    let (labels, state) := labelSiblings labeler siblings state
    let (tree, tasks) :=
      addGroups task.node (task.depth + 1) (groups.zip (siblings.zip labels)) tree
    (tree, tasks, state)

/-- Does one task after the other; those that come of one are done after those that wait already.
`fuel` bounds the number of tasks. -/
def Shape.grow {σ : Type} (s : Shape) (labeler : Option (Labeler σ)) :
    Nat → List Task → ClusterTree → σ → ClusterTree × σ
  | 0, _, tree, state => (tree, state)
  | _ + 1, [], tree, state => (tree, state)
  | fuel + 1, task :: waiting, tree, state =>
    let (tree, tasks, state) := s.step labeler task tree state
    s.grow labeler fuel (waiting ++ tasks) tree state

/-- The tree of some files. Every file is in one cluster that is not divided. A tree in which every
division gives at least two parts has fewer than twice as many nodes as files, which bounds the
tasks. -/
def build {σ : Type} (s : Shape) (labeler : Option (Labeler σ)) (label : String)
    (members : List Member) (state : σ) : ClusterTree × σ :=
  s.grow labeler (2 * members.length + 1) [⟨0, 0, members⟩]
    (.ofRoot label (pathPattern? (members.map (·.1)))) state

end Navigator

/-- The shape of trees that settings give. -/
def Settings.shape (s : Settings) : Navigator.Shape :=
  ⟨s.treeDepth, s.treeClusters, s.leafSize⟩

end CodeAtlas
