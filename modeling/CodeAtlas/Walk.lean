import CodeAtlas.Disk.Basic
import CodeAtlas.Path.Root

/-!
# Walking a directory tree

A walk reaches the files below a directory. A place is passed when the ignore rules do not skip it
and its name under the root is not ignored; a file is reached when every place on the way to it, the
file included, is passed, and all but the last are directories. Links are not followed. Which places
the rules skip is for whoever reads the rules to say.

* `SkipRules` — the verdict of the rules on a disk.
* `Disk.reached?` — what a walk reports about a place, if it reaches it.
* `Disk.walk` — what a walk reaches, in the order of the names.
-/

namespace CodeAtlas

open CodeAtlas.Path

/-- The verdict of ignore rules: whether they skip a place, which may be that of a directory. -/
abbrev Skips := Place → Bool → Bool

/-- How rules are read: the verdict of those on a disk. -/
abbrev SkipRules := Disk → Skips

/-- What to walk, and what to report. -/
structure WalkOptions where
  /-- the name of the directory to start in, in place of the root -/
  target : Option String := none
  /-- how many names below the start a walk goes -/
  depthLimit : Option Nat := none
  /-- whether directories are reported too -/
  directories : Bool := false

/-- Something that a walk reaches. -/
structure Reached where
  /-- its path -/
  path : String
  /-- its name under the root -/
  name : String
  /-- whether it is a directory -/
  isDirectory : Bool
  /-- the number of names that lead to it from the start -/
  depth : Nat

namespace Disk

/-- The path where a walk starts. -/
def walkStart (root : Root) (o : WalkOptions) : String :=
  match o.target with
  | none => root.directory
  | some target => if target = "" || target = "." then root.directory else root.absolute target

/-- The path reached from `start` through these names. -/
def pathBelow (start : String) (names : List String) : String :=
  names.foldl join start

/-- Whether a root takes in a path: it has a name, and the name is not ignored. -/
def takesIn (root : Root) (path : String) : Bool :=
  match root.relative path with
  | .ok name => name == "." || !root.isIgnored name
  | .error _ => false

/-- Whether a walk passes the place that `names` lead to from its start. -/
def passes (skips : Skips) (root : Root) (start : String) (origin : Place) (names : List String)
    (isDirectory : Bool) : Bool :=
  !skips (origin ++ names) isDirectory && takesIn root (pathBelow start names)

/-- The proper initial parts of a list of names, without the empty one. -/
def onTheWay (names : List String) : List (List String) :=
  (List.range (names.length - 1)).map fun n => names.take (n + 1)

/-- Whether a walk goes through every place on the way that `names` lead. -/
def goesThrough (d : Disk) (skips : Skips) (root : Root) (start : String) (origin : Place)
    (names : List String) : Bool :=
  (onTheWay names).all fun way =>
    d.lookup (origin ++ way) == some .directory && passes skips root start origin way true

/-- What a walk reports about a place that it reaches. -/
def report? (root : Root) (o : WalkOptions) (start : String) (names : List String) (entry : Entry) :
    Option Reached :=
  let path := pathBelow start names
  let found (isDirectory : Bool) : Option Reached :=
    (root.relative path).toOption.map fun name => ⟨path, name, isDirectory, names.length⟩
  match entry with
  | .file _ => found false
  | .directory => if o.directories then found true else none
  | .link _ => none

/-- What a walk reports about an entry of the disk. -/
def reached? (d : Disk) (skips : Skips) (root : Root) (o : WalkOptions) (start : String)
    (origin place : Place) (entry : Entry) : Option Reached :=
  if origin.isPrefixOf place && place.length ≠ origin.length then
    let names := place.drop origin.length
    if o.depthLimit.all (names.length ≤ ·) &&
        passes skips root start origin names (entry == .directory) &&
        d.goesThrough skips root start origin names then
      report? root o start names entry
    else none
  else none

/-- The order of what a walk reports. -/
def byName (a b : Reached) : Bool :=
  a.name ≤ b.name

/-- What a walk of a root directory reaches under the verdict of the rules, in the order of the
names. Nothing is reached from a start that is not a directory. -/
def walk (d : Disk) (skips : Skips) (root : Root) (o : WalkOptions) : List Reached :=
  let start := walkStart root o
  match d.canonical? start with
  | .error _ => []
  | .ok origin =>
    if d.lookup origin != some .directory then []
    else
      let found := d.entries.toList.filterMap fun (place, entry) =>
        d.reached? skips root o start origin place entry
      found.mergeSort byName

end Disk

end CodeAtlas
