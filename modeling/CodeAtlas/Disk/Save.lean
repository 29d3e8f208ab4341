import CodeAtlas.Disk.Change

/-!
# Saving a file whole

A file that must never be seen half written is written under another name next to it, and then moved
over the old one. The directory is made if it is missing.
-/

namespace CodeAtlas

open CodeAtlas.Path

/-- Why a file cannot be saved. -/
inductive SaveError where
  /-- its directory cannot be made -/
  | directory (path : String) (cause : DiskError)
  /-- the text cannot be written -/
  | write (path : String) (cause : DiskError)
  /-- the old file cannot be replaced -/
  | replace (path : String) (cause : DiskError)
  deriving DecidableEq

/-- The wording of an error; `directory` introduces the path of a directory that cannot be made. -/
def SaveError.message (directory : String) : SaveError → String
  | .directory path cause => s!"{directory}{path}: {cause.message}"
  | .write path cause => s!"Failed to write {path}: {cause.message}"
  | .replace path cause => s!"Failed to replace {path}: {cause.message}"

namespace Disk

/-- A change that reports its failure in other words. -/
def reporting {ε ε' α : Type} (f : ε → ε') (c : Change ε α) : Change ε' α := fun d =>
  match c d with
  | .ok a d => .ok a d
  | .error e d => .error (f e) d

/-- Saves a text as the file `name` of a directory. -/
def save (directory name text : String) : Change SaveError Unit := do
  reporting (.directory directory) (makeDirectories directory)
  let path := join directory name
  let draft := join directory (name ++ ".tmp")
  reporting (.write draft) (write draft text.toUTF8)
  reporting (.replace path) (rename draft path)

end Disk

end CodeAtlas
