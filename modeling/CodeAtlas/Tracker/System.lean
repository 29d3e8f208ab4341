import CodeAtlas.Tracker.Task

/-!
# Tasks side by side

Any number of reports and flushes run next to the loop, in whatever order their single actions come.
A run is a list of moves; a move that is not possible changes nothing.

* `System.move` — one move.
* `System.run` — a run.
-/

namespace CodeAtlas.Tracker

/-- A tracker with all tasks that share it. -/
structure System where
  /-- what they share -/
  tracker : Tracker
  /-- the loop -/
  loop : Loop
  /-- the reports, in the order in which they were made -/
  reports : List Report
  /-- the flushes, in the order in which they were asked for -/
  flushes : List Flush
  /-- the time, in milliseconds -/
  now : Nat

/-- What can happen. -/
inductive Move where
  /-- a change is reported -/
  | report (name : String)
  /-- a flush is asked for -/
  | flush
  /-- a report does its next action -/
  | stepReport (i : Nat)
  /-- a flush does its next action; `result` is that of the refresh that it waits for -/
  | stepFlush (i : Nat) (result : RefreshResult)
  /-- the loop does its next action; `result` is that of the refresh that it waits for -/
  | stepLoop (result : RefreshResult)
  /-- time goes by -/
  | wait (millis : Nat)

namespace System

/-- Nothing has happened yet. -/
def start (enabled : Bool) : System :=
  ⟨.start enabled, .waiting, [], [], 0⟩

/-- The system after a move, if the move is possible. -/
def move? (o : TrackerOptions) (s : System) : Move → Option System
  | .report name => some { s with reports := s.reports ++ [.inserting name] }
  | .flush => some { s with flushes := s.flushes ++ [.starting] }
  | .stepReport i => do
    let (report, tracker) ← (← s.reports[i]?).step s.tracker
    some { s with tracker := tracker, reports := s.reports.set i report }
  | .stepFlush i result => do
    let (flush, tracker) ← (← s.flushes[i]?).step o.batchSize (fun _ => some result) s.tracker
    some { s with tracker := tracker, flushes := s.flushes.set i flush }
  | .stepLoop result => do
    let (loop, tracker) ← s.loop.step o s.now (fun _ => some result) s.tracker
    some { s with tracker := tracker, loop := loop }
  | .wait millis => some { s with now := s.now + millis }

/-- The system after a move. -/
def move (o : TrackerOptions) (s : System) (m : Move) : System :=
  (s.move? o m).getD s

/-- The system after some moves. -/
def run (o : TrackerOptions) (s : System) (moves : List Move) : System :=
  moves.foldl (move o) s

end System

end CodeAtlas.Tracker
