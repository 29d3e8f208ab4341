import CodeAtlas.Json.Reader
import CodeAtlas.Json.Writer

/-!
# Restore points

A restore point names the files that were copied aside at one time. The points are logged in one
JSON file, the oldest first. A log that does not hold exactly what is expected is read as an empty
one.

* `RestorePoint.toJson` — the written form of a point.
* `RestorePoint.logText`, `RestorePoint.ofLog?` — the written form of a log, and its reading.
-/

namespace CodeAtlas

/-- Some files that were copied aside at one time. -/
structure RestorePoint where
  /-- what it is called -/
  id : String
  /-- when the files were copied, in milliseconds -/
  timestamp : Nat
  /-- the names of the files -/
  files : List String
  /-- what was said about it -/
  message : String
  deriving DecidableEq, Inhabited

namespace RestorePoint

/-- The written form of a point. -/
def toJson (p : RestorePoint) : Json :=
  .object [("id", .text p.id), ("timestamp", .ofNat p.timestamp),
    ("files", .array (p.files.map .text)), ("message", .text p.message)]

/-- The written form of a log. -/
def logText (points : List RestorePoint) : String :=
  (Json.array (points.map toJson)).indented

/-- A time that a value spells; it has 64 bits. -/
def timestamp? (j : Json) : Option Nat :=
  j.natural?.filter (· < UInt64.size)

/-- The names that a value spells. -/
def files? (j : Json) : Option (List String) :=
  j.items?.bind fun items => items.mapM Json.text?

/-- The point that a value spells: an object with the four fields, or the four values in a list. -/
def ofJson? : Json → Option RestorePoint
  | .object fields => do
    let id ← (Json.onlyField? "id" fields).bind Json.text?
    let timestamp ← (Json.onlyField? "timestamp" fields).bind timestamp?
    let files ← (Json.onlyField? "files" fields).bind files?
    let message ← (Json.onlyField? "message" fields).bind Json.text?
    some ⟨id, timestamp, files, message⟩
  | .array [id, timestamp, files, message] => do
    some ⟨← id.text?, ← timestamp? timestamp, ← files? files, ← message.text?⟩
  | _ => none

/-- The points that a log spells. -/
def ofLog? (text : String) : Option (List RestorePoint) := do
  let items ← (← Json.parse? text).items?
  items.mapM ofJson?

end RestorePoint

end CodeAtlas
