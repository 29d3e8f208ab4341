import CodeAtlas.Tracker.Task

/-!
# A tracker on a clock

One order of the actions of a tracker's tasks: a task runs until it has to wait, the loop and a
flush in the background go on while someone else waits, and the time goes by only when nobody can go
on.

* `Refresher` — whoever refreshes batches.
* `Desk.flush` — a flush that is waited for.
* `Desk.settle` — everything that can happen without time going by.
* `Desk.sleep` — lets time go by.
-/

namespace CodeAtlas.Tracker

/-- Whoever refreshes batches, with states `ρ`. -/
structure Refresher (ρ : Type) where
  /-- the state when the refresh of a batch begins -/
  enter : List String → ρ → ρ
  /-- the result of the refresh of a batch, once there is one, and the state after it -/
  answer : List String → ρ → Option (RefreshResult × ρ)

/-- A tracker, its loop, a flush in the background, a refresher and the time. -/
structure Desk (ρ : Type) where
  /-- what the tasks share -/
  tracker : Tracker
  /-- the loop -/
  loop : Loop
  /-- the flush in the background, if there is one -/
  background : Option Flush
  /-- the state of the refresher -/
  memory : ρ
  /-- the time, in milliseconds -/
  now : Nat

namespace Desk

variable {ρ : Type}

/-- Nothing has happened yet. -/
def start (enabled : Bool) (memory : ρ) : Desk ρ :=
  ⟨.start enabled, .waiting, none, memory, 0⟩

/-- Reports a change and announces it. -/
def report (k : Desk ρ) (name : String) : Desk ρ :=
  { k with tracker := (k.tracker.insert name).notifyWake }

/-- The state of the refresher when a task goes on: it gives a result when the task waited for one,
and begins when the task starts to wait for one. -/
def exchange (r : Refresher ρ) (before after : Option (List String)) (memory : ρ) : ρ :=
  match before, after with
  | some batch, none => ((r.answer batch memory).map (·.2)).getD memory
  | none, some batch => r.enter batch memory
  | _, _ => memory

/-- What a refresher answers in a state. -/
def answerIn (r : Refresher ρ) (memory : ρ) (batch : List String) : Option RefreshResult :=
  (r.answer batch memory).map (·.1)

/-- The next action of a flush. -/
def stepFlush (o : TrackerOptions) (r : Refresher ρ) (k : Desk ρ) (flush : Flush) :
    Option (Flush × Desk ρ) :=
  (flush.step o.batchSize (answerIn r k.memory) k.tracker).map fun (next, tracker) =>
    (next, { k with tracker := tracker, memory := exchange r flush.batch? next.batch? k.memory })

/-- The next action of the loop. -/
def stepLoop (o : TrackerOptions) (r : Refresher ρ) (k : Desk ρ) : Option (Desk ρ) :=
  (k.loop.step o k.now (answerIn r k.memory) k.tracker).map fun (next, tracker) =>
    { k with
      tracker := tracker
      loop := next
      memory := exchange r k.loop.batch? next.batch? k.memory }

/-- The next action of the flush in the background. -/
def stepBackground (o : TrackerOptions) (r : Refresher ρ) (k : Desk ρ) : Option (Desk ρ) :=
  k.background.bind fun flush =>
    (k.stepFlush o r flush).map fun (next, k) => { k with background := some next }

/-- The next actions of a flush, `fuel` of them at most. -/
def runFlush (o : TrackerOptions) (r : Refresher ρ) : Nat → Flush → Desk ρ → Flush × Desk ρ
  | 0, flush, k => (flush, k)
  | fuel + 1, flush, k =>
    match k.stepFlush o r flush with
    | some (flush, k) => runFlush o r fuel flush k
    | none => (flush, k)

/-- A flush that is waited for; none if its refresh does not end. It has six actions. -/
def flush (o : TrackerOptions) (r : Refresher ρ) (k : Desk ρ) : Option FlushOutcome × Desk ρ :=
  match runFlush o r 6 .starting k with
  | (.done outcome, k) => (some outcome, k)
  | (_, k) => (none, k)

/-- What can happen without time going by, `fuel` actions of it at most. -/
def settleFor (o : TrackerOptions) (r : Refresher ρ) : Nat → Desk ρ → Desk ρ
  | 0, k => k
  | fuel + 1, k =>
    match k.stepLoop o r with
    | some k => settleFor o r fuel k
    | none =>
      match k.stepBackground o r with
      | some k => settleFor o r fuel k
      | none => k

/-- What can happen without time going by. Every flush takes six actions and, unless it is the last
or is refused, at least one change away. -/
def settle (o : TrackerOptions) (r : Refresher ρ) (k : Desk ρ) : Desk ρ :=
  settleFor o r (7 * k.tracker.pending.size + 56) k

/-- Lets time go by until `deadline`, `fuel` quiet periods of it at most. -/
def sleepUntil (o : TrackerOptions) (r : Refresher ρ) (deadline : Nat) : Nat → Desk ρ → Desk ρ
  | 0, k => { k with now := deadline }
  | fuel + 1, k =>
    let k := k.settle o r
    match k.loop with
    | .quiet quiet =>
      if quiet ≤ deadline then sleepUntil o r deadline fuel { k with now := quiet }
      else { k with now := deadline }
    | _ => { k with now := deadline }

/-- Lets time go by. No change is reported meanwhile, so few quiet periods end. -/
def sleep (o : TrackerOptions) (r : Refresher ρ) (millis : Nat) (k : Desk ρ) : Desk ρ :=
  sleepUntil o r (k.now + millis) 4 k

/-- Starts a flush in the background and lets it go on until it has to wait. -/
def flushBackground (o : TrackerOptions) (r : Refresher ρ) (k : Desk ρ) : Desk ρ :=
  { k with background := some .starting }.settle o r

/-- The outcome of the flush in the background, which is then forgotten. -/
def takeBackground (k : Desk ρ) : Option FlushOutcome × Desk ρ :=
  match k.background with
  | some (.done outcome) => (some outcome, { k with background := none })
  | _ => (none, k)

end Desk

end CodeAtlas.Tracker
