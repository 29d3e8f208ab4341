import CodeAtlas.Disk.Save
import CodeAtlas.Path.Root
import CodeAtlas.Restore.Point

/-!
# The store of restore points

Before files are changed they can be copied aside, and later the copies can be put back. The store
keeps the copies of each point in a directory of its own, next to the log. Only so many points are
kept: when a new one is logged, the oldest go, with their copies.

* `RestoreStore.create` — copies files aside.
* `RestoreStore.restore` — puts the copies of a point back. All names of a point are checked before
  the first file is written.
* `RestoreStore.list` — the points, the newest first.
-/

namespace CodeAtlas

open CodeAtlas.Path

/-- Why files cannot be copied aside or put back. -/
inductive RestoreError where
  /-- no file was named -/
  | noFiles
  /-- a path has no name under the root -/
  | unnamed (cause : NameError)
  /-- there is no file of this name -/
  | notFile (name : String)
  /-- no point is called this -/
  | unknown (id : String)
  /-- a point names a path that has no name under the root -/
  | unsafeName (id : String) (cause : NameError)
  /-- a directory cannot be made -/
  | directory (path : String) (cause : DiskError)
  /-- a file cannot be copied aside -/
  | backup (name : String) (cause : DiskError)
  /-- a copy cannot be put back -/
  | putBack (name id : String) (cause : DiskError)
  /-- the log cannot be written -/
  | log (cause : SaveError)
  deriving DecidableEq

/-- The wording of an error. -/
def RestoreError.message : RestoreError → String
  | .noFiles => "A restore point needs at least one file"
  | .unnamed cause => cause.message
  | .notFile name => s!"Not a file: {name}"
  | .unknown id => s!"Unknown restore point: {id}"
  | .unsafeName id cause => s!"Restore point {id} names an unsafe path: {cause.message}"
  | .directory path cause => s!"Failed to create {path}: {cause.message}"
  | .backup name cause => s!"Failed to back up {name}: {cause.message}"
  | .putBack name id cause => s!"Failed to restore {name} from {id}: {cause.message}"
  | .log cause => cause.message "Failed to create "

/-- Where copies are kept, and how many points. -/
structure RestoreStore where
  /-- the root of the files -/
  root : Root
  /-- the directory of the log and of the copies -/
  directory : String
  /-- how many points are kept -/
  maxPoints : Nat

namespace RestoreStore

/-- The store of a cache directory. It keeps one point at least. -/
def ofCache (root : Root) (cacheDirectory : String) (maxPoints : Nat) : RestoreStore :=
  ⟨root, join cacheDirectory "restore", max maxPoints 1⟩

/-- The name of the log. -/
def logName : String := "restore-points.json"

/-- The path of the log. -/
def logPath (s : RestoreStore) : String :=
  join s.directory logName

/-- The directory of a point's copies. -/
def pointDirectory (s : RestoreStore) (id : String) : String :=
  join s.directory id

/-- The points in the log, the oldest first. -/
def load (s : RestoreStore) (d : Disk) : List RestorePoint :=
  match d.read s.logPath with
  | .error _ => []
  | .ok bytes => ((String.fromUTF8? bytes).bind RestorePoint.ofLog?).getD []

/-- The points, the newest first. -/
def list (s : RestoreStore) (d : Disk) : List RestorePoint :=
  (s.load d).reverse

/-- Writes the log. -/
def save (s : RestoreStore) (points : List RestorePoint) : Change RestoreError Unit :=
  Disk.reporting .log (Disk.save s.directory logName (RestorePoint.logText points))

/-- Copies a file to a path whose directory is made if it is missing. -/
def copyTo (source target : String) (failed : DiskError → RestoreError) :
    Change RestoreError Unit := do
  match parent? target with
  | some parent => Disk.reporting (.directory parent) (Disk.makeDirectories parent)
  | none => pure ()
  Disk.reporting failed (Disk.copy source target)

/-! ## Creating a point -/

/-- The name of a file under the root. -/
def fileNameOf (s : RestoreStore) (d : Disk) (path : String) : Except RestoreError String :=
  match s.root.relative path with
  | .error e => .error (.unnamed e)
  | .ok name => if d.isFile (s.root.absolute name) then .ok name else .error (.notFile name)

/-- A list of names with one more, unless it is there already. -/
def addName (names : List String) (name : String) : List String :=
  if names.contains name then names else names ++ [name]

/-- The names of files under the root, each of them once. -/
def namesOf (s : RestoreStore) (d : Disk) (paths : List String) :
    Except RestoreError (List String) :=
  if paths.isEmpty then .error .noFiles
  else (paths.mapM (s.fileNameOf d)).map fun names => names.foldl addName []

/-- The id of a point: the time and the number of points asked for before it. -/
def idOf (now number : Nat) : String :=
  s!"rp-{now}-{number}"

/-- Copies files into the directory of a point. -/
def backUp (s : RestoreStore) (id : String) (names : List String) : Change RestoreError Unit :=
  names.forM fun name =>
    copyTo (s.root.absolute name) (join (s.pointDirectory id) name) (.backup name)

/-- Removes the copies of a point, as far as that is possible. -/
def forget (s : RestoreStore) (point : RestorePoint) : Change RestoreError Unit := fun d =>
  match Disk.removeTree (s.pointDirectory point.id) d with
  | .ok _ d => .ok () d
  | .error _ d => .ok () d

/-- Logs a point. The oldest points beyond the number that is kept go. -/
def log (s : RestoreStore) (point : RestorePoint) : Change RestoreError Unit := do
  let points := s.load (← get) ++ [point]
  let excess := points.length - s.maxPoints
  (points.take excess).forM s.forget
  s.save (points.drop excess)

/-- Copies files of the given names aside and logs it. -/
def record (s : RestoreStore) (id : String) (now : Nat) (names : List String) (message : String) :
    Change RestoreError RestorePoint := do
  s.backUp id names
  let point : RestorePoint := ⟨id, now, names, message⟩
  s.log point
  return point

/-- What creating a point leaves: an answer, the number of points asked for so far, and the disk. -/
structure Created where
  /-- the point, or the reason why there is none -/
  answer : Except RestoreError RestorePoint
  /-- how many points were asked for so far -/
  number : Nat
  /-- the disk -/
  disk : Disk

/-- Copies files aside. `number` tells how many points this store was asked for before; a point
counts as soon as its files are known to be there. -/
def create (s : RestoreStore) (now number : Nat) (paths : List String) (message : String)
    (d : Disk) :
    Created :=
  match s.namesOf d paths with
  | .error e => ⟨.error e, number, d⟩
  | .ok names =>
    match s.record (idOf now number) now names message d with
    | .ok point d => ⟨.ok point, number + 1, d⟩
    | .error e d => ⟨.error e, number + 1, d⟩

/-! ## Restoring a point -/

/-- The point of an id. -/
def find (s : RestoreStore) (id : String) (d : Disk) : Except RestoreError RestorePoint :=
  match (s.load d).find? fun p => p.id = id with
  | some point => .ok point
  | none => .error (.unknown id)

/-- Checks that every name of a point has a name under the root. -/
def check (s : RestoreStore) (point : RestorePoint) : Except RestoreError Unit :=
  point.files.forM fun name =>
    match s.root.relative name with
    | .ok _ => .ok ()
    | .error e => .error (.unsafeName point.id e)

/-- Puts the copies of a point back. -/
def putBack (s : RestoreStore) (point : RestorePoint) : Change RestoreError Unit :=
  point.files.forM fun name =>
    copyTo (join (s.pointDirectory point.id) name) (s.root.absolute name) (.putBack name point.id)

/-- Puts the copies of the point of an id back. -/
def restore (s : RestoreStore) (id : String) : Change RestoreError RestorePoint := fun d =>
  match s.find id d with
  | .error e => .error e d
  | .ok point =>
    match s.check point with
    | .error e => .error e d
    | .ok () =>
      match s.putBack point d with
      | .ok () d => .ok point d
      | .error e d => .error e d

end RestoreStore

end CodeAtlas
