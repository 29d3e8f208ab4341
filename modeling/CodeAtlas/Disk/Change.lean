import CodeAtlas.Disk.Basic

/-!
# Changes to the disk

Every change gives the disk after it, also when it fails: some changes are made in steps, and the
steps before the failing one stay. `Disk.Change` is the type of such changes, with the ones that
follow each other joined by `do`.

* `write`, `copy`, `rename`, `makeDirectories`, `removeTree` — the changes a program makes.
* `remove` — a removal that does not ask whether there was anything to remove.
-/

namespace CodeAtlas

/-- A change to the disk that fails with a cause of type `ε` or gives a value. -/
abbrev Change (ε α : Type) := EStateM ε Disk α

namespace Disk

open CodeAtlas.Text CodeAtlas.Path

/-- The disk with `entry` at a place. -/
def put (d : Disk) (place : Place) (entry : Entry) : Disk :=
  ⟨d.entries.insert place entry⟩

/-- The disk with nothing at a place and below it. -/
def cut (d : Disk) (place : Place) : Disk :=
  ⟨d.entries.filter fun p _ => !place.isPrefixOf p⟩

/-- The disk with nothing below a place. -/
def clearBelow (d : Disk) (place : Place) : Disk :=
  ⟨d.entries.filter fun p _ => !(place.isPrefixOf p && place != p)⟩

/-! ## Directories -/

/-- Whether the text of a path ends in a slash. -/
def hasEndSlash (path : String) : Bool :=
  path.toList.getLast? = some '/'

/-- The path without slashes at its end; the top of the disk keeps one. -/
def withoutEndSlashes (path : String) : String :=
  let kept := (path.toList.reverse.dropWhile (· = '/')).reverse
  if kept.isEmpty && isAbsolute path then "/" else String.ofList kept

/-- Makes a directory in an existing one. -/
def makeDirectory (path : String) : Change DiskError Unit := fun d =>
  match d.locate false (withoutEndSlashes path) with
  | .error e => .error e d
  | .ok place =>
    match d.lookup place with
    | some _ => .error .occupied d
    | none => .ok () (d.put place .directory)

/-- Makes a directory and every missing directory on the way to it. `fuel` bounds the number of
directories on the way. -/
def makeDirectoriesFrom : Nat → String → Change DiskError Unit
  | 0, _ => throw .notFound
  | fuel + 1, path => fun d =>
    if path = "" then .ok () d
    else match makeDirectory path d with
    | .ok () d => .ok () d
    | .error .notFound d =>
      match parent? path with
      | none => .error .notFound d
      | some parent =>
        match makeDirectoriesFrom fuel parent d with
        | .error e d => .error e d
        | .ok () d =>
          match makeDirectory path d with
          | .ok () d => .ok () d
          | .error e d => if d.isDirectory path then .ok () d else .error e d
    | .error e d => if d.isDirectory path then .ok () d else .error e d

/-- Makes a directory and every missing directory on the way to it. -/
def makeDirectories (path : String) : Change DiskError Unit :=
  makeDirectoriesFrom (path.length + 1) path

/-! ## Files -/

/-- The place where a file is written: links are followed, and no directory may stand there. -/
def writable (d : Disk) (path : String) : Except DiskError Place :=
  match d.locate true (withoutEndSlashes path) with
  | .error e => .error e
  | .ok place =>
    if hasEndSlash path then .error .isDirectory
    else match d.lookup place with
      | some .directory => .error .isDirectory
      | _ => .ok place

/-- Puts bytes into a file, in place of what it held. -/
def write (path : String) (bytes : ByteArray) : Change DiskError Unit := fun d =>
  match d.writable path with
  | .error e => .error e d
  | .ok place => .ok () (d.put place (.file bytes))

/-- Copies a file. The target is emptied before the source is read, so a file copied onto itself is
empty. -/
def copy (source target : String) : Change DiskError Unit := fun d =>
  match d.canonical? source with
  | .error e => .error e d
  | .ok origin =>
    match d.lookup origin with
    | some (.file bytes) =>
      match d.writable target with
      | .error e => .error e d
      | .ok place =>
        .ok () (d.put place (.file (if place = origin then ByteArray.empty else bytes)))
    | _ => .error .notRegular d

/-- Moves a file over whatever file or link stands at the target. -/
def rename (source target : String) : Change DiskError Unit := fun d =>
  match d.locate false source with
  | .error e => .error e d
  | .ok origin =>
    match d.lookup origin with
    | none => .error .notFound d
    | some entry =>
      match d.locate false target with
      | .error e => .error e d
      | .ok place =>
        match d.lookup place with
        | some .directory => .error .isDirectory d
        | _ => if place = origin then .ok () d else .ok () ((d.cut origin).put place entry)

/-- Puts a symbolic link where nothing stands. -/
def makeLink (path target : String) : Change DiskError Unit := fun d =>
  match d.locate false path with
  | .error e => .error e d
  | .ok place =>
    match d.lookup place with
    | some _ => .error .occupied d
    | none => .ok () (d.put place (.link target))

/-! ## Removal -/

/-- Whether the last component of a path is `.` or `..`; such a directory can be emptied but not
removed. -/
def endsInDots (path : String) : Bool :=
  match ((splitOn '/' path).reverse.dropWhile (· = "")).head? with
  | some last => last = "." || last = ".."
  | none => false

/-- Removes a directory with all it holds, or a link. -/
def removeTree (path : String) : Change DiskError Unit := fun d =>
  match d.locate false path with
  | .error e => .error e d
  | .ok place =>
    match d.lookup place with
    | none => .error .notFound d
    | some (.file _) => .error .notDirectory d
    | some (.link _) => .ok () (d.cut place)
    | some .directory =>
      if endsInDots path || place.isEmpty then .error .invalid (d.clearBelow place)
      else .ok () (d.cut place)

/-- Removes whatever a path names, with all it holds; a path that names nothing stays without
effect. -/
def remove (d : Disk) (path : String) : Disk :=
  match d.locate false path with
  | .error _ => d
  | .ok place => d.cut place

end Disk

end CodeAtlas
