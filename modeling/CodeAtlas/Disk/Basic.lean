import CodeAtlas.Path.Lexical
import CodeAtlas.Text.Utf8
import Std.Data.TreeMap

/-!
# The disk

A disk is a value: what stands at each place, a place being the list of names that leads to it from
the top. A path is followed component by component through directories and symbolic links to a
place.

* `Disk.locate` — the place of a path. Every component but the last must name a directory.
* `Disk.read`, `Disk.isFile`, `Disk.isDirectory`, `Disk.canonical?` — questions about a path.
* `Disk.children` — what a directory holds.
-/

namespace CodeAtlas

/-- What stands at a place. -/
inductive Entry where
  /-- a file with its bytes -/
  | file (bytes : ByteArray)
  /-- a directory -/
  | directory
  /-- a symbolic link to the path `target` -/
  | link (target : String)
  deriving DecidableEq, Inhabited

/-- The names that lead from the top of the disk to a place. -/
abbrev Place := List String

/-- What stands at each place. The top is a directory and is not listed. -/
structure Disk where
  /-- the entries by their places -/
  entries : Std.TreeMap Place Entry

/-- Why an operation on a disk fails. -/
inductive DiskError where
  /-- nothing stands at the path -/
  | notFound
  /-- something stands there already -/
  | occupied
  /-- a component on the way is not a directory -/
  | notDirectory
  /-- a file was expected, and a directory stands there -/
  | isDirectory
  /-- the path cannot be used for this -/
  | invalid
  /-- the directory is not empty -/
  | notEmpty
  /-- the links on the way do not end -/
  | tooManyLinks
  /-- what is to be copied is not a file -/
  | notRegular
  deriving DecidableEq

/-- The wording of an error. -/
def DiskError.message : DiskError → String
  | .notFound => "No such file or directory (os error 2)"
  | .occupied => "File exists (os error 17)"
  | .notDirectory => "Not a directory (os error 20)"
  | .isDirectory => "Is a directory (os error 21)"
  | .invalid => "Invalid argument (os error 22)"
  | .notEmpty => "Directory not empty (os error 39)"
  | .tooManyLinks => "Too many levels of symbolic links (os error 40)"
  | .notRegular => "the source path is neither a regular file nor a symlink to a regular file"

namespace Disk

open CodeAtlas.Text CodeAtlas.Path

/-- The disk with nothing on it. -/
def empty : Disk := ⟨∅⟩

instance : Inhabited Disk := ⟨empty⟩

/-- What stands at a place. -/
def lookup (d : Disk) (place : Place) : Option Entry :=
  if place.isEmpty then some .directory else d.entries.get? place

/-- How many links may be followed on the way to a place. -/
def maxLinks : Nat := 40

/-- Follows the components `rest` of a path from the place `here`. A link is followed when
components come after it, and at the end of the path when `follow` says so. -/
def locateFrom (d : Disk) (follow : Bool) (links : Nat) (here : Place) (rest : List String) :
    Except DiskError Place :=
  match rest with
  | [] => .ok here
  | component :: rest =>
    match d.lookup here with
    | none => .error .notFound
    | some (.file _) => .error .notDirectory
    | some (.link _) => .error .notDirectory
    | some .directory =>
      if component = "" || component = "." then locateFrom d follow links here rest
      else if component = ".." then locateFrom d follow links here.dropLast rest
      else
        match d.lookup (here ++ [component]) with
        | some (.link target) =>
          if !follow && rest.isEmpty then .ok (here ++ [component])
          else
            match links with
            | 0 => .error .tooManyLinks
            | links + 1 =>
              locateFrom d follow links (if isAbsolute target then [] else here)
                (splitOn '/' target ++ rest)
        | _ => locateFrom d follow links (here ++ [component]) rest
termination_by (links, rest.length)

/-- The place of a path. Nothing needs to stand there, but the directory it lies in must. -/
def locate (d : Disk) (follow : Bool) (path : String) : Except DiskError Place :=
  d.locateFrom follow maxLinks [] (splitOn '/' path)

/-- What stands at a path, links followed. -/
def find (d : Disk) (path : String) : Except DiskError Entry :=
  match d.locate true path with
  | .error e => .error e
  | .ok place =>
    match d.lookup place with
    | some entry => .ok entry
    | none => .error .notFound

/-- Whether a path names a file. -/
def isFile (d : Disk) (path : String) : Bool :=
  match d.find path with
  | .ok (.file _) => true
  | _ => false

/-- Whether a path names a directory. -/
def isDirectory (d : Disk) (path : String) : Bool :=
  match d.find path with
  | .ok .directory => true
  | _ => false

/-- The bytes of a file. -/
def read (d : Disk) (path : String) : Except DiskError ByteArray :=
  match d.find path with
  | .ok (.file bytes) => .ok bytes
  | .ok _ => .error .isDirectory
  | .error e => .error e

/-- The place of a path at which something stands. -/
def canonical? (d : Disk) (path : String) : Except DiskError Place :=
  match d.locate true path with
  | .error e => .error e
  | .ok place => if (d.lookup place).isSome then .ok place else .error .notFound

/-- What stands directly in a directory, in the order of the names. -/
def children (d : Disk) (place : Place) : List (String × Entry) :=
  d.entries.toList.filterMap fun (p, entry) =>
    match p.getLast? with
    | some name => if p.dropLast == place then some (name, entry) else none
    | none => none

end Disk

end CodeAtlas
