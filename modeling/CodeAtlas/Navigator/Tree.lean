/-!
# Cluster trees

A tree of clusters is a list of nodes; a node refers to its parent and its children by their places
in that list, and the first one is the root. Nodes are only ever added at the end, below a node that
is there already.

* `ClusterTree.addChild?`, `ClusterTree.update?` — how a tree grows and is filled.
* `ClusterTree.outline` — the nodes in the order in which they are shown: each before what is below
  it.
* `ClusterTree.allFiles`, `ClusterTree.fileCount`, `ClusterTree.render` — what is read off a tree.
-/

namespace CodeAtlas

/-- A cluster of files. -/
structure ClusterNode where
  /-- its name -/
  label : String
  /-- what its files have in common -/
  pattern : Option String
  /-- its files, if it is not divided further -/
  files : List String
  /-- the clusters that it is divided into -/
  children : List Nat
  /-- the cluster that it is a part of -/
  parent : Option Nat
  /-- how many clusters it lies in -/
  depth : Nat
  deriving DecidableEq, Inhabited

/-- Whether a cluster is not divided. -/
def ClusterNode.isLeaf (n : ClusterNode) : Bool := n.children.isEmpty

/-- A tree of clusters. -/
structure ClusterTree where
  /-- its nodes, the root first -/
  nodes : Array ClusterNode

namespace ClusterTree

/-- The tree that is only a root. -/
def ofRoot (label : String) (pattern : Option String) : ClusterTree :=
  ⟨#[⟨label, pattern, [], [], none, 0⟩]⟩

/-- A node. -/
def node? (t : ClusterTree) (id : Nat) : Option ClusterNode := t.nodes[id]?

/-- The number of nodes. -/
def size (t : ClusterTree) : Nat := t.nodes.size

/-- The tree with a node changed. -/
def update? (t : ClusterTree) (id : Nat) (f : ClusterNode → ClusterNode) : Option ClusterTree :=
  if id < t.nodes.size then some ⟨t.nodes.modify id f⟩ else none

/-- The tree with a node more, and the place of that node. -/
def addChild? (t : ClusterTree) (parent : Nat) (label : String) (pattern : Option String) :
    Option (ClusterTree × Nat) :=
  match t.node? parent with
  | none => none
  | some p =>
    let id := t.nodes.size
    let nodes := t.nodes.modify parent fun n => { n with children := n.children ++ [id] }
    some (⟨nodes.push ⟨label, pattern, [], [], some parent, p.depth + 1⟩⟩, id)

/-- The tree with other files at a node. -/
def setFiles? (t : ClusterTree) (id : Nat) (files : List String) : Option ClusterTree :=
  t.update? id fun n => { n with files }

/-- The tree with another name for a node. -/
def setLabel? (t : ClusterTree) (id : Nat) (label : String) : Option ClusterTree :=
  t.update? id fun n => { n with label }

/-- The children of a node. -/
def childrenOf (t : ClusterTree) (id : Nat) : List Nat :=
  match t.node? id with
  | some n => n.children
  | none => []

/-- The clusters that are not divided. -/
def leaves (t : ClusterTree) : List ClusterNode :=
  t.nodes.toList.filter ClusterNode.isLeaf

/-- The greatest depth of a node. -/
def maxDepth (t : ClusterTree) : Nat :=
  t.nodes.toList.foldl (fun d n => max d n.depth) 0

/-- Takes the nodes that are still to be shown one by one, and shows what is below a node right
after it. `fuel` bounds the number of nodes. -/
def outlineFrom (t : ClusterTree) : Nat → List Nat → List Nat
  | 0, _ => []
  | _ + 1, [] => []
  | fuel + 1, id :: waiting => id :: outlineFrom t fuel (t.childrenOf id ++ waiting)

/-- The nodes in the order in which they are shown. -/
def outline (t : ClusterTree) : List Nat :=
  t.outlineFrom t.size [0]

/-- The files of all clusters in the order in which they are shown. -/
def allFiles (t : ClusterTree) : List String :=
  t.outline.flatMap fun id => ((t.node? id).map (·.files)).getD []

/-- The number of files in a cluster and all below it, down to `fuel` levels. -/
def fileCountDown (t : ClusterTree) : Nat → Nat → Nat
  | 0, _ => 0
  | fuel + 1, id =>
    match t.node? id with
    | none => 0
    | some n => n.files.length + (n.children.map (t.fileCountDown fuel)).sum

/-- The number of files in a cluster and all below it. -/
def fileCount (t : ClusterTree) (id : Nat) : Nat :=
  t.fileCountDown t.size id

/-- The line of a cluster: its name, the number of its files, and what they have in common. -/
def headLine (t : ClusterTree) (id : Nat) (n : ClusterNode) : String :=
  s!"- {n.label} ({t.fileCount id} files)" ++
    match n.pattern with
    | some pattern => if pattern = n.label then "" else s!" [{pattern}]"
    | none => ""

/-- The lines of the files of a cluster that is not divided, at most `limit` of them. -/
def fileLines (n : ClusterNode) (limit : Nat) : List String :=
  if n.isLeaf then
    (n.files.take limit).map ("    " ++ ·) ++
      (if limit < n.files.length then [s!"    ... {n.files.length - limit} more"] else [])
  else []

/-- The lines of a cluster, indented by its depth. -/
def nodeText (t : ClusterTree) (limit id : Nat) : String :=
  match t.node? id with
  | none => ""
  | some n =>
    let indent := String.ofList (List.replicate (2 * n.depth) ' ')
    String.join ((t.headLine id n :: fileLines n limit).map fun line => s!"{indent}{line}\n")

/-- The tree as an indented outline, with at most `limit` files for each cluster. -/
def render (t : ClusterTree) (limit : Nat) : String :=
  String.join (t.outline.map (t.nodeText limit))

end ClusterTree

end CodeAtlas
