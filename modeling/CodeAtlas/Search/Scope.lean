import CodeAtlas.Path.Root

/-!
# Scopes

A search may be confined to a directory or a file, named by its path under the root. An empty path,
and the path `.`, confine nothing.
-/

namespace CodeAtlas

open CodeAtlas.Path

/-- Whether a path is the scope or lies in it. -/
def inScope (path : String) (scope : Option String) : Bool :=
  match scope with
  | none => true
  | some written =>
    let scope := dropEndSlashes (written.toList.dropWhile (· = '/'))
    scope.isEmpty || scope = ['.'] || (below? scope path.toList).isSome

end CodeAtlas
