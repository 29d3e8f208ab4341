import CodeAtlas.Disk.Basic
import CodeAtlas.Index.Refresh
import CodeAtlas.Path.Root
import CodeAtlas.Settings.Basic
import Std.Data.TreeSet

/-!
# Tracking changes

Files that change are remembered by name until they are refreshed, a bounded batch at a time. One
refresh runs at a time: whoever flushes takes a flag first and gives it back at the end.

This module has the state that everyone shares and the single actions on it. Each of them is done at
once; `Tracker/Task.lean` says in which order they follow each other.

* `acceptedName?` — the name under which a change is remembered.
* `Tracker.insert`, `Tracker.notifyWake` — the actions of a report.
* `Tracker.takeBatch`, `Tracker.record`, `Tracker.free`, `Tracker.notifyIdle` — those of a flush.
-/

namespace CodeAtlas

open CodeAtlas.Path

/-- How changes are followed. -/
structure TrackerOptions where
  /-- how long changes are collected, in milliseconds -/
  debounce : Nat
  /-- how many files are refreshed at once -/
  batchSize : Nat
  deriving DecidableEq

/-- How settings want changes to be followed. One file at least is refreshed at once. -/
def Settings.trackerOptions (s : Settings) : TrackerOptions :=
  ⟨s.debounceMillis, max s.refreshBatch 1⟩

/-- The name under which a change of a path is remembered. Paths outside the root, paths that are
skipped and directories are not remembered. -/
def acceptedName? (root : Root) (d : Disk) (path : String) : Option String :=
  match root.relative path with
  | .error _ => none
  | .ok name =>
    if name = "." || name = "" || root.isIgnored name || d.isDirectory (root.absolute name)
        then none
    else some name

/-- What a refresh of a batch gives. -/
abbrev RefreshResult := Except String RefreshOutcome

/-- What a flush gives. -/
inductive FlushOutcome where
  /-- another flush is not finished -/
  | busy (remaining : Nat)
  /-- there was nothing to refresh -/
  | idle
  /-- a batch was refreshed -/
  | flushed (outcome : RefreshOutcome) (remaining : Nat)
  /-- the refresh of a batch failed -/
  | failed (error : String) (remaining : Nat)
  deriving DecidableEq, Inhabited

/-- How many changes are remembered after a flush. -/
def FlushOutcome.remaining : FlushOutcome → Nat
  | .busy remaining => remaining
  | .idle => 0
  | .flushed _ remaining => remaining
  | .failed _ remaining => remaining

/-- Whether another flush was in the way. -/
def FlushOutcome.isBusy : FlushOutcome → Bool
  | .busy _ => true
  | _ => false

/-- What everyone who deals with changes shares. -/
structure Tracker where
  /-- the names of the changed files -/
  pending : Std.TreeSet String
  /-- whether a flush is not finished -/
  busy : Bool
  /-- whether changes are noticed at all -/
  enabled : Bool
  /-- how many batches were refreshed, with or without success -/
  flushes : Nat
  /-- how many files were refreshed -/
  refreshed : Nat
  /-- why a refresh failed last -/
  lastError : Option String
  /-- whether a change was announced and not yet heard of -/
  wake : Bool
  /-- whether the end of a flush was announced and not yet heard of -/
  idle : Bool

namespace Tracker

/-- Nothing changed yet. -/
def start (enabled : Bool) : Tracker :=
  ⟨∅, false, enabled, 0, 0, none, false, false⟩

instance : Inhabited Tracker := ⟨start true⟩

/-- Remembers a name. -/
def insert (t : Tracker) (name : String) : Tracker :=
  { t with pending := t.pending.insert name }

/-- Announces a change. -/
def notifyWake (t : Tracker) : Tracker :=
  { t with wake := true }

/-- The names of the next batch: the first ones in order. -/
def batch (t : Tracker) (size : Nat) : List String :=
  t.pending.toList.take size

/-- Takes the next batch out of what is remembered. -/
def takeBatch (t : Tracker) (size : Nat) : List String × Tracker :=
  let names := t.batch size
  (names, { t with pending := names.foldl (fun set name => set.erase name) t.pending })

/-- Records the result of a refresh. -/
def record (t : Tracker) (result : RefreshResult) : FlushOutcome × Tracker :=
  let remaining := t.pending.size
  match result with
  | .ok outcome =>
    (.flushed outcome remaining,
      { t with flushes := t.flushes + 1, refreshed := t.refreshed + outcome.refreshed })
  | .error e =>
    (.failed e remaining, { t with flushes := t.flushes + 1, lastError := some e })

/-- Gives the flag back. -/
def free (t : Tracker) : Tracker :=
  { t with busy := false }

/-- Announces the end of a flush. -/
def notifyIdle (t : Tracker) : Tracker :=
  { t with idle := true }

end Tracker

/-- What a tracker says of itself. -/
structure TrackerStatus where
  /-- whether changes are noticed at all -/
  enabled : Bool
  /-- how many changed files are remembered -/
  pending : Nat
  /-- how many batches were refreshed -/
  flushes : Nat
  /-- how many files were refreshed -/
  refreshed : Nat
  /-- why a refresh failed last -/
  lastError : Option String
  deriving DecidableEq

/-- What a tracker says of itself. -/
def Tracker.status (t : Tracker) : TrackerStatus :=
  ⟨t.enabled, t.pending.size, t.flushes, t.refreshed, t.lastError⟩

end CodeAtlas
