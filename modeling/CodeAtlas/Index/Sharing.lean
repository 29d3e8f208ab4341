import CodeAtlas.Index.Slot

/-!
# Slots shared by several tasks

A corpus and the two indexes made from it stand in three slots, and each slot has a lock. Any number
of tasks use the slots side by side. A *reader* asks for an index: it has the lock of that index
while it looks, while it waits for the corpus, and while it builds; it has the lock of the corpus
too while it looks for one and while it walks the tree. A *dropper* empties the three slots, the
corpus first; it has each lock only while it empties that slot.

Every value carries the number of the move with which the walk behind it began, so that it can be
said how old a value is that comes out of a slot.

* `SharedSlots.Task.step` — the next single action of a task; a task that has to wait has none.
* `SharedSlots.System.move`, `SharedSlots.System.run` — tasks side by side, in whatever order their
  actions come.
-/

namespace CodeAtlas

/-- The two indexes. -/
inductive IndexKind where
  /-- the index of files -/
  | files
  /-- the index of identifiers -/
  | identifiers
  deriving DecidableEq

namespace SharedSlots

/-- A value, and the number of the move with which the walk that it comes from began. -/
structure Derived (α : Type) where
  /-- the value -/
  value : α
  /-- when the walk began -/
  began : Nat
  deriving DecidableEq

/-- A slot with its lock. -/
structure Guarded (α : Type) where
  /-- the slot -/
  slot : Slot (Derived α)
  /-- the task that has the lock -/
  owner : Option Nat

namespace Guarded

variable {α : Type}

/-- Takes the lock for a task, if nobody has it. -/
def lock? (g : Guarded α) (task : Nat) : Option (Guarded α) :=
  if g.owner.isNone then some { g with owner := some task } else none

/-- Gives the lock back. -/
def unlock (g : Guarded α) : Guarded α := { g with owner := none }

/-- Keeps a new value and gives the lock back. -/
def keep (g : Guarded α) (value : Derived α) (now : Nat) : Guarded α :=
  ⟨g.slot.keep value now, none⟩

/-- Empties the slot, if nobody has the lock. -/
def clear? (g : Guarded α) : Option (Guarded α) :=
  if g.owner.isNone then some { g with slot := g.slot.clear } else none

end Guarded

/-- The three slots, for corpora `γ` and indexes `δ`. -/
structure Slots (γ δ : Type) where
  /-- the slot of the corpus -/
  corpus : Guarded γ
  /-- the slots of the indexes -/
  index : IndexKind → Guarded δ

namespace Slots

variable {γ δ : Type}

/-- Three empty slots. -/
def empty (root : String) (lifetime : Nat) : Slots γ δ :=
  ⟨⟨.empty root lifetime, none⟩, fun _ => ⟨.empty root lifetime, none⟩⟩

/-- The slots with another one for an index. -/
def withIndex (s : Slots γ δ) (kind : IndexKind) (g : Guarded δ) : Slots γ δ :=
  { s with index := fun k => if k = kind then g else s.index k }

end Slots

/-! ## Tasks -/

/-- What a dropper still has to empty. -/
inductive Left where
  /-- all three slots -/
  | all
  /-- the slots of both indexes -/
  | indexes
  /-- the slot of the identifiers -/
  | identifiers
  /-- nothing -/
  | nothing
  deriving DecidableEq

/-- A task that uses the slots. -/
inductive Task (γ δ : Type) where
  /-- waits for the lock of an index -/
  | asking (kind : IndexKind)
  /-- has the lock of the index and is about to look for one -/
  | looking (kind : IndexKind)
  /-- has the lock of the index and waits for the lock of the corpus -/
  | needing (kind : IndexKind)
  /-- has both locks and is about to look for a corpus -/
  | seeking (kind : IndexKind)
  /-- has both locks and walks the tree -/
  | walking (kind : IndexKind) (began : Nat)
  /-- has the lock of the index and builds one from a corpus -/
  | building (kind : IndexKind) (corpus : Derived γ)
  /-- has the lock of the index, and there is no corpus -/
  | failing (kind : IndexKind)
  /-- has its answer; `none` if the index could not be built -/
  | answered (kind : IndexKind) (index : Option (Derived δ))
  /-- empties the slots; `began` is the number of the move with which it came -/
  | dropping (began : Nat) (left : Left)

namespace Task

variable {γ δ : Type}

/-- The next action of a dropper. -/
def drop (began : Nat) (s : Slots γ δ) : Left → Option (Task γ δ × Slots γ δ)
  | .all => s.corpus.clear?.map fun g => (.dropping began .indexes, { s with corpus := g })
  | .indexes => (s.index .files).clear?.map fun g =>
      (.dropping began .identifiers, s.withIndex .files g)
  | .identifiers => (s.index .identifiers).clear?.map fun g =>
      (.dropping began .nothing, s.withIndex .identifiers g)
  | .nothing => none

/-- The next action of the task with the number `task`. It is the move with the number `clock`, at
the time `now`. A walk that ends finds the corpus `walked`, or fails; a build that ends makes the
index `built`, or fails. -/
def step (task clock now : Nat) (walked : Option γ) (built : Option δ) (s : Slots γ δ) :
    Task γ δ → Option (Task γ δ × Slots γ δ)
  | .asking kind => ((s.index kind).lock? task).map fun g => (.looking kind, s.withIndex kind g)
  | .looking kind =>
    match (s.index kind).slot.fresh? now with
    | some index => some (.answered kind (some index), s.withIndex kind (s.index kind).unlock)
    | none => some (.needing kind, s)
  | .needing kind => (s.corpus.lock? task).map fun g => (.seeking kind, { s with corpus := g })
  | .seeking kind =>
    match s.corpus.slot.fresh? now with
    | some corpus => some (.building kind corpus, { s with corpus := s.corpus.unlock })
    | none => some (.walking kind clock, s)
  | .walking kind began =>
    match walked with
    | some value =>
      let corpus := ⟨value, began⟩
      some (.building kind corpus, { s with corpus := s.corpus.keep corpus now })
    | none => some (.failing kind, { s with corpus := s.corpus.unlock })
  | .building kind corpus =>
    match built with
    | some value =>
      let index := ⟨value, corpus.began⟩
      some (.answered kind (some index), s.withIndex kind ((s.index kind).keep index now))
    | none => some (.answered kind none, s.withIndex kind (s.index kind).unlock)
  | .failing kind => some (.answered kind none, s.withIndex kind (s.index kind).unlock)
  | .answered _ _ => none
  | .dropping began left => drop began s left

end Task

/-! ## Tasks side by side -/

/-- The slots with all tasks that use them. -/
structure System (γ δ : Type) where
  /-- the slots -/
  slots : Slots γ δ
  /-- the tasks, in the order in which they came -/
  tasks : List (Task γ δ)
  /-- how many moves there were -/
  clock : Nat
  /-- the time, in milliseconds -/
  now : Nat

/-- What can happen. -/
inductive Move (γ δ : Type) where
  /-- a reader comes -/
  | ask (kind : IndexKind)
  /-- a dropper comes -/
  | drop
  /-- a task does its next action -/
  | step (task : Nat) (walked : Option γ) (built : Option δ)
  /-- time goes by -/
  | wait (millis : Nat)

namespace System

variable {γ δ : Type}

/-- Nothing has happened yet. -/
def start (root : String) (lifetime : Nat) : System γ δ :=
  ⟨.empty root lifetime, [], 0, 0⟩

/-- The system after a move, if the move is possible. -/
def move? (s : System γ δ) : Move γ δ → Option (System γ δ)
  | .ask kind => some { s with tasks := s.tasks ++ [.asking kind], clock := s.clock + 1 }
  | .drop => some { s with tasks := s.tasks ++ [.dropping s.clock .all], clock := s.clock + 1 }
  | .step i walked built => do
    let (task, slots) ← (← s.tasks[i]?).step i s.clock s.now walked built s.slots
    some { s with slots := slots, tasks := s.tasks.set i task, clock := s.clock + 1 }
  | .wait millis => some { s with now := s.now + millis, clock := s.clock + 1 }

/-- The system after a move; a move that is not possible changes nothing. -/
def move (s : System γ δ) (m : Move γ δ) : System γ δ :=
  (s.move? m).getD s

/-- The system after some moves. -/
def run (s : System γ δ) (moves : List (Move γ δ)) : System γ δ :=
  moves.foldl move s

end System

end SharedSlots

end CodeAtlas
