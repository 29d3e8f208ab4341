import CodeAtlas.Service.Basic

/-!
# Navigating

The files in a scope as a tree of clusters.
-/

namespace CodeAtlas

open CodeAtlas.Path

/-- What is to be shown as a tree, and in which shape. -/
structure NavigateRequest where
  /-- where the files are -/
  scope : Option String
  /-- how deep a cluster may lie -/
  maxDepth : Option Nat
  /-- how many clusters one may be divided into -/
  maxClusters : Option Nat
  /-- how many files a cluster may have without being divided -/
  leafSize : Option Nat

namespace Service

variable {σ ℓ : Type}

/-- The name of a base directory when it has none of its own. -/
def unnamedBase : String := "repository"

/-- The label of the whole tree: the scope, or the name of the base directory. -/
def treeLabel (service : Service σ ℓ) (scope : Option String) : String :=
  match scope.filter fun s => s ≠ "" && s ≠ "." with
  | some s => String.ofList (dropEndSlashes (s.toList.dropWhile (· = '/')))
  | none => (fileName? service.settings.baseDirectory).getD unnamedBase

/-- The files in a scope with their vectors. -/
def membersIn (index : FileIndex) (scope : Option String) : List Navigator.Member :=
  index.entries.filterMap fun (document, v) =>
    if inScope document.path scope then some (document.path, v) else none

/-- The tree of the files in a scope. -/
def navigateTree (service : Service σ ℓ) (r : NavigateRequest) : Answer σ ℓ ClusterTree := do
  let index ← service.fileIndex
  let shape := service.settings.shape.override r.maxDepth r.maxClusters r.leafSize
  let s ← get
  let (tree, labels) := Navigator.build shape service.labeler (service.treeLabel r.scope)
    (membersIn index r.scope) s.labels
  set { s with labels := labels }
  return tree

/-- The report of the tree of the files in a scope. -/
def navigate (service : Service σ ℓ) (r : NavigateRequest) : Answer σ ℓ String :=
  orUnavailable "Navigation" Report.navigation (service.navigateTree r)

end Service

end CodeAtlas
