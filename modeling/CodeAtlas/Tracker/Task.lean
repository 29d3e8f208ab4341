import CodeAtlas.Tracker.Basic

/-!
# The tasks of a tracker

Three kinds of tasks share a tracker: those that report a change, those that flush, and the loop
that flushes by itself once changes have stopped for a while. A task is a value that says how far it
has come; its `step` does the next single action. A task that has to wait has no step.

* `Report.step` — remembers a name, then announces it.
* `Flush.step` — takes the flag, takes a batch, waits for its refresh, gives the flag back, then
  announces that.
* `Loop.step` — hears of a change, waits until all is quiet, and flushes until nothing is left.
-/

namespace CodeAtlas.Tracker

/-! ## Reporting a change -/

/-- A task that reports a change. -/
inductive Report where
  /-- about to remember the name -/
  | inserting (name : String)
  /-- about to announce it -/
  | announcing (name : String)
  /-- done -/
  | done (name : String)
  deriving DecidableEq

/-- The next action of a report. -/
def Report.step : Report → Tracker → Option (Report × Tracker)
  | .inserting name, t => some (.announcing name, t.insert name)
  | .announcing name, t => some (.done name, t.notifyWake)
  | .done _, _ => none

/-! ## Flushing -/

/-- A task that flushes. -/
inductive Flush where
  /-- about to take the flag -/
  | starting
  /-- the flag was taken already -/
  | refused
  /-- has the flag and is about to take a batch -/
  | holding
  /-- has the flag and waits for the refresh of a batch -/
  | refreshing (batch : List String)
  /-- has the flag and is about to give it back -/
  | releasing (outcome : FlushOutcome)
  /-- has given the flag back and is about to announce it -/
  | announcing (outcome : FlushOutcome)
  /-- done -/
  | done (outcome : FlushOutcome)
  deriving DecidableEq

namespace Flush

/-- Whether a flush has the flag. -/
def holds : Flush → Bool
  | .holding => true
  | .refreshing _ => true
  | .releasing _ => true
  | _ => false

/-- Whether a flush took the flag and has not announced its end. -/
def owes : Flush → Bool
  | .announcing _ => true
  | flush => flush.holds

/-- The batch whose refresh a flush waits for. -/
def batch? : Flush → Option (List String)
  | .refreshing batch => some batch
  | _ => none

/-- Takes the next batch; without any the flush is over. -/
def takeBatch (size : Nat) (t : Tracker) : Flush × Tracker :=
  let (batch, t) := t.takeBatch size
  if batch.isEmpty then (.releasing .idle, t) else (.refreshing batch, t)

/-- The next action of a flush. `answer` is the result of the refresh that it waits for, if there is
one yet. -/
def step (size : Nat) (answer : List String → Option RefreshResult) :
    Flush → Tracker → Option (Flush × Tracker)
  | .starting, t => some (if t.busy then (.refused, t) else (.holding, { t with busy := true }))
  | .refused, t => some (.done (.busy t.pending.size), t)
  | .holding, t => some (takeBatch size t)
  | .refreshing batch, t =>
    (answer batch).map fun result =>
      let (outcome, t) := t.record result
      (.releasing outcome, t)
  | .releasing outcome, t => some (.announcing outcome, t.free)
  | .announcing outcome, t => some (.done outcome, t.notifyIdle)
  | .done _, _ => none

end Flush

/-! ## Flushing by itself -/

/-- The loop that flushes by itself. -/
inductive Loop where
  /-- waits for a change -/
  | waiting
  /-- waits for the time when all has been quiet -/
  | quiet (deadline : Nat)
  /-- flushes -/
  | flushing (flush : Flush)
  /-- waits for the end of another flush -/
  | blocked
  deriving DecidableEq

namespace Loop

/-- The batch whose refresh the loop waits for. -/
def batch? : Loop → Option (List String)
  | .flushing flush => flush.batch?
  | _ => none

/-- How the loop goes on after a flush: it flushes again while something is left, after the end of
the flush that was in the way. -/
def next (outcome : FlushOutcome) : Loop :=
  if outcome.remaining = 0 then .waiting
  else if outcome.isBusy then .blocked
  else .flushing .starting

/-- The next action of the loop at a time. -/
def step (o : TrackerOptions) (now : Nat) (answer : List String → Option RefreshResult) :
    Loop → Tracker → Option (Loop × Tracker)
  | .waiting,
      t => if t.wake then some (.quiet (now + o.debounce), { t with wake := false }) else none
  | .quiet deadline, t =>
    if t.wake then some (.quiet (now + o.debounce), { t with wake := false })
    else if deadline ≤ now then some (.flushing .starting, t)
    else none
  | .flushing (.done outcome), t => some (next outcome, t)
  | .flushing flush, t =>
    (flush.step o.batchSize answer t).map fun (flush, t) => (.flushing flush, t)
  | .blocked, t => if t.idle then some (.flushing .starting, { t with idle := false }) else none

end Loop

end CodeAtlas.Tracker
