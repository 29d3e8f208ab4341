import CodeAtlas.CommandLine
import CodeAtlas.Exchange.Documents
import CodeAtlas.Ignore.Rules
import CodeAtlas.Server.Basic

/-!
# The program

Started with a question, the program answers it and ends. Otherwise it opens a server on standard
input and output, for the base directory that the environment names; every argument names a file
under that directory that the server is to know. The files are read once, together with the caches
and the restore points; after each message, what it changed is written back.
-/

namespace CodeAtlas.Program

open CodeAtlas.Path

/-! ## Reading -/

/-- The number of the error that reading a directory as a file ends with. -/
def directoryErrorNumber : UInt32 := 21

/-- What stands at a path outside, if anything does. -/
def entryAt (path : String) : IO (Option Entry) := do
  match ← (IO.FS.readBinFile path).toBaseIO with
  | .ok bytes => return some (.file bytes)
  | .error (.inappropriateType _ code _) =>
    return if code = directoryErrorNumber then some .directory else none
  | .error _ => return none

/-- The disk with what stands at an absolute path outside, and with the directories that lead to it.
-/
def fetch (d : Disk) (path : String) : IO Disk := do
  match ← entryAt path with
  | none => return d
  | some entry =>
    let place := components path
    let parents := (List.range place.length).tail.map place.take
    return (parents.foldl (fun d parent => d.put parent .directory) d).put place entry

/-- The disk with what stands at several paths outside. -/
def fetchAll (d : Disk) (paths : List String) : IO Disk :=
  paths.foldlM fetch d

/-- The environment of the process. -/
def environment : IO Environment := do
  let bindings ← Environment.keys.filterMapM fun key => do
    return (← IO.getEnv key).map fun value => (key, value)
  return ⟨bindings, toString (← IO.currentDir)⟩

/-! ## Writing -/

/-- Writes what changed on the disk. -/
def writeBack (before after : Disk) : IO Unit := do
  for (place, entry) in after.entries.toList do
    if before.entries.get? place ≠ some entry then
      match entry with
      | .file bytes => IO.FS.writeBinFile (absoluteOf place) bytes
      | .directory => IO.FS.createDirAll (absoluteOf place)
      | .link _ => pure ()
  for (place, entry) in before.entries.toList do
    if (after.entries.get? place).isNone then
      match entry with
      | .file _ => discard (IO.FS.removeFile (absoluteOf place)).toBaseIO
      | .directory => discard (IO.FS.removeDirAll (absoluteOf place)).toBaseIO
      | .link _ => pure ()

/-! ## Serving -/

/-- The parser of the program: it sees no declarations in a file. -/
def parser : Parser := fun _ _ => some Exchange.bareTree

/-- The paths of the files that a session keeps for itself, as far as the disk tells. -/
def keptPaths (session : Session Unit Unit) (d : Disk) : List String :=
  let store := session.store
  let caches := CacheStore.mk session.service.settings.cacheDirectory
  [caches.path .files, caches.path .identifiers, store.logPath] ++
    (store.load d).flatMap fun point => point.files.map (join (store.pointDirectory point.id))

/-- Answers messages until the input ends. -/
partial def serve (session : Session Unit Unit) (input output : IO.FS.Stream)
    (s : Session.State Unit Unit) : IO Unit := do
  let line ← input.getLine
  if line.isEmpty then return
  let s := s.atTime (← IO.monoMsNow)
  let (answer, after) := Server.answer? session line s
  writeBack s.disk after.disk
  match answer with
  | some text => output.putStrLn text
  | none => pure ()
  output.flush
  serve session input output after

/-- Opens a server that knows the named files. -/
def openServer (names : List String) : IO UInt32 := do
  let environment ← environment
  let written := (environment.raw? "BASE_DIR").getD "."
  let base := join environment.workingDirectory written
  let d ← fetchAll .empty (base :: names.map (join base))
  match Server.launch environment d Ignore.skipRules parser Transport.unreachable
      Transport.unreachable with
  | .error e =>
    IO.eprintln e.diagnostic
    return 1
  | .ok session =>
    let d ← fetchAll d (keptPaths session d)
    let d ← fetchAll d (keptPaths session d)
    let state := session.start d () () (← IO.monoMsNow) false
    serve session (← IO.getStdin) (← IO.getStdout) state
    return 0

end CodeAtlas.Program

/-- Answers a question on the command line, or serves. -/
def main (arguments : List String) : IO UInt32 := do
  match CodeAtlas.CommandLine.answer? ("" :: arguments) with
  | some text =>
    IO.print text
    return 0
  | none => CodeAtlas.Program.openServer arguments
