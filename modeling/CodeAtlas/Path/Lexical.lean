import CodeAtlas.Text.Basic

/-!
# Paths as texts

A path is a text whose components are separated by slashes. Empty components and the component `.`
name nothing; `..` names the parent. Nothing here looks at a disk.

* `join` — a path taken under a directory, unless it is absolute.
* `components` — the components that name something.
* `fileName?`, `extension?` — the last component, and what follows the last dot in it.
-/

namespace CodeAtlas.Path

open CodeAtlas.Text

/-- Whether a path starts at the top of the disk. -/
def isAbsolute (p : String) : Bool :=
  p.toList.head? = some '/'

/-- The path `p` taken under `directory`; an absolute path stands for itself. -/
def join (directory p : String) : String :=
  if isAbsolute p then p
  else if directory.toList.getLast?.all (· = '/') then directory ++ p
  else directory ++ "/" ++ p

/-- Whether a component names something. -/
def isNaming (component : String) : Bool :=
  component ≠ "" && component ≠ "."

/-- The components of a path that name something, `..` included. -/
def components (p : String) : List String :=
  (splitOn '/' p).filter isNaming

/-- The components joined by slashes. -/
def ofComponents (components : List String) : String :=
  "/".intercalate components

/-- The absolute path of these components. -/
def absoluteOf (components : List String) : String :=
  "/" ++ ofComponents components

/-- The last component, unless it is `..`. -/
def fileName? (p : String) : Option String :=
  (components p).getLast?.filter (· ≠ "..")

/-- Splits a file name at its last dot. A dot in front is part of the name. -/
def splitName (name : String) : String × Option String :=
  match (splitOn '.' name).reverse with
  | [] => (name, none)
  | [_] => (name, none)
  | last :: before =>
    let stem := ".".intercalate before.reverse
    if stem = "" then (name, none) else (stem, some last)

/-- The extension of the file name: what follows its last dot. -/
def extension? (p : String) : Option String :=
  (fileName? p).bind fun name => (splitName name).2

/-- The pieces of a path without those at its end that name nothing. -/
def dropIdleEnd (pieces : List String) : List String :=
  (pieces.reverse.dropWhile fun piece => !isNaming piece).reverse

/-- The path of the directory that a path lies in: the text in front of its last component, without
what names nothing at its end. The top of the disk and the empty path lie nowhere. -/
def parent? (p : String) : Option String :=
  let pieces := splitOn '/' p
  match dropIdleEnd pieces with
  | [] => if isAbsolute p || p = "" then none else some ""
  | kept =>
    match dropIdleEnd kept.dropLast with
    | [] => some (if isAbsolute p then "/" else if kept.length = 1 then "" else ".")
    | [""] => some "/"
    | rest => some ("/".intercalate rest)

/-- The path with a slash for each backslash. -/
def slashed (p : String) : String :=
  p.map fun c => if c = '\\' then '/' else c

end CodeAtlas.Path
