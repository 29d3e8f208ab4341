import CodeAtlas.Tracker.System

/-!
# What a run leaves behind

Of a run of a tracker three kinds of events can be seen: a name is remembered, the refresh of a
batch begins, and it ends. A run leaves a list of them, the newest event first.

* `System.flushing`, `System.inFlight` — the flushes of a system, and the batches that are being
  refreshed.
* `System.past` — the events of a run.
* `results` — the results of the refreshes that have ended.
-/

namespace CodeAtlas.Tracker

/-- What can be seen of a run. -/
inductive Event where
  /-- a report remembers a name -/
  | remembered (report : Nat) (name : String)
  /-- the refresh of a batch begins -/
  | taken (batch : List String)
  /-- the refresh of a batch ends -/
  | refreshed (batch : List String) (result : RefreshResult)

namespace Event

/-- What is seen of a flush by the batch whose refresh it waits for, before and after an action. -/
def ofBatches (before after : Option (List String)) (result : RefreshResult) : List Event :=
  match before, after with
  | none, some batch => [taken batch]
  | some batch, none => [refreshed batch result]
  | _, _ => []

/-- The result of a refresh that ends. -/
def result? : Event → Option RefreshResult
  | refreshed _ result => some result
  | _ => none

end Event

/-- The results of the refreshes that have ended. -/
def results (past : List Event) : List RefreshResult := past.filterMap Event.result?

/-- How many files a refresh has refreshed; none if it failed. -/
def refreshedFiles : RefreshResult → Nat
  | .ok outcome => outcome.refreshed
  | .error _ => 0

/-- The flush of the loop, if it flushes. -/
def Loop.flush? : Loop → Option Flush
  | .flushing flush => some flush
  | _ => none

namespace System

/-- All flushes, the one of the loop first. -/
def flushing (s : System) : List Flush := s.loop.flush?.toList ++ s.flushes

/-- The batches that are being refreshed. -/
def inFlight (s : System) : List (List String) := s.flushing.filterMap Flush.batch?

/-- What is seen of a move. -/
def events (o : TrackerOptions) (s : System) (m : Move) : List Event :=
  let next := s.move o m
  match m with
  | .stepReport i =>
    match s.reports[i]? with
    | some (.inserting name) => [.remembered i name]
    | _ => []
  | .stepFlush i result =>
    Event.ofBatches (s.flushes[i]?.bind Flush.batch?) (next.flushes[i]?.bind Flush.batch?) result
  | .stepLoop result => Event.ofBatches s.loop.batch? next.loop.batch? result
  | _ => []

/-- What is seen of a run, the newest event first. -/
def past (o : TrackerOptions) (s : System) : List Move → List Event
  | [] => []
  | m :: moves => past o (s.move o m) moves ++ s.events o m

end System

end CodeAtlas.Tracker
