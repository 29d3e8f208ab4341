import CodeAtlas.Index.Refresh

/-!
# Tasks that share the caches

Builds, searches for call sites and refreshes all read and write the same two caches. Any number of
them run side by side, and there is one lock for both caches: a task has it from before it reads the
first cache until it has saved the last one, or until its provider fails. What a task works on was
found out before it asks for the lock, from whatever stood on the disk then.

A job is done in stages, one for each cache it uses, and each stage in three actions: the cache is
read, filled, and saved. Between two actions of one task anything else may happen that does not need
the lock.

* `CacheTasks.Job`, `CacheTasks.Stage` — what a task has to do.
* `CacheTasks.Phase.step` — the next single action of a task; a task that has to wait has none.
* `CacheTasks.System` — tasks side by side, and all calls for vectors that they made so far.
-/

namespace CodeAtlas.CacheTasks

/-- Work that uses the caches. -/
inductive Job where
  /-- builds the index of files from a corpus -/
  | files (corpus : Corpus)
  /-- builds the index of identifiers from a corpus -/
  | identifiers (corpus : Corpus)
  /-- makes the vectors of call sites, given by path, line and text -/
  | uses (sites : List (String × Nat × String))
  /-- brings both caches up to date with files of these names, which gave these readings -/
  | refresh (readings : List (String × FileReading))

/-- What is done with one cache. -/
inductive Stage where
  /-- the cache is filled, and then the keys are dropped that are not wanted -/
  | pass (kind : CacheKind) (items : List Item) (wanted : String → Bool)
  /-- what belongs to the removed files is dropped, and then the cache is filled -/
  | renew (kind : CacheKind) (removed : List String) (items : List Item)

namespace Stage

/-- The cache that is used. -/
def kind : Stage → CacheKind
  | pass kind _ _ => kind
  | renew kind _ _ => kind

/-- The items it is filled with. -/
def items : Stage → List Item
  | pass _ items _ => items
  | renew _ _ items => items

/-- The cache that is filled, when this one was read. -/
def opened : Stage → Cache → Cache
  | pass _ _ _, c => c
  | renew _ removed _, c => (c.prune fun key => !removed.any (belongsTo key)).2

/-- The cache that is saved, when this one was filled. -/
def closed : Stage → Cache → Cache
  | pass _ _ wanted, c => (c.prune wanted).2
  | renew _ _ _, c => c

end Stage

namespace Job

/-- The item of a call site. -/
def useItem (use : String × Nat × String) : Item :=
  ⟨CacheKey.callSite use.1 use.2.1, use.2.2⟩

/-- The stages of a job, in order. -/
def stages : Job → List Stage
  | files c => [.pass .files c.fileItems c.keepsFile]
  | identifiers c => [.pass .identifiers c.identifierItems c.keepsIdentifier]
  | uses sites => [.pass .identifiers (sites.map useItem) fun _ => true]
  | refresh readings =>
    let changes := Changes.ofReadings readings
    [.renew .files changes.removed changes.files,
      .renew .identifiers changes.removed changes.identifiers]

end Job

/-! ## Tasks -/

/-- Where a task stands. -/
inductive Phase where
  /-- it waits for the lock -/
  | waiting
  /-- it has the lock, and these stages are left -/
  | working (left : List Stage)
  /-- it has the lock, has read the cache of the stage, and is about to fill it -/
  | filling (stage : Stage) (left : List Stage) (cache : Cache)
  /-- it has the lock, has filled the cache of the stage, and is about to save it -/
  | saving (stage : Stage) (left : List Stage) (cache : Cache)
  /-- it is done, or its provider failed -/
  | ended (failure : Option EmbedError)

/-- An attempt to fill a cache. The provider has states `σ`. -/
structure Call (σ : Type) where
  /-- what the task was doing -/
  job : Job
  /-- the stage of it -/
  stage : Stage
  /-- the cache that was to be filled -/
  cache : Cache
  /-- the state of the provider before -/
  memory : σ

/-- What the tasks share. -/
structure Shared (σ : Type) where
  /-- the disk, and the state of the provider -/
  world : World σ
  /-- the task that has the lock -/
  owner : Option Nat
  /-- the attempts to fill a cache so far -/
  calls : List (Call σ)

variable {σ : Type}

/-- The next action of the task with the number `task`. -/
def Phase.step (ix : Indexer σ) (job : Job) (task : Nat) (s : Shared σ) :
    Phase → Option (Phase × Shared σ)
  | waiting =>
    if s.owner.isNone then some (working job.stages, { s with owner := some task }) else none
  | working [] => some (ended none, { s with owner := none })
  | working (stage :: left) =>
    some (filling stage left (stage.opened (ix.store.load stage.kind s.world.disk)), s)
  | filling stage left cache =>
    let calls := s.calls ++ [⟨job, stage, cache, s.world.memory⟩]
    match cache.fill ix.batching ix.provider stage.items s.world.memory with
    | (.ok filled, memory) =>
      some (saving stage left (stage.closed filled.cache),
        { s with world := { s.world with memory := memory }, calls := calls })
    | (.error e, memory) =>
      some (ended (some e), ⟨{ s.world with memory := memory }, none, calls⟩)
  | saving stage left cache =>
    some (working left,
      { s with world := { s.world with disk := ix.savedCache stage.kind cache s.world.disk } })
  | ended _ => none

/-! ## Tasks side by side -/

/-- What the tasks share, and the tasks in the order in which they came, each with its job. -/
structure System (σ : Type) where
  /-- what they share -/
  shared : Shared σ
  /-- the tasks -/
  tasks : List (Job × Phase)

/-- What can happen. -/
inductive Move (σ : Type) where
  /-- a task comes with a job -/
  | come (job : Job)
  /-- a task does its next action -/
  | step (task : Nat)
  /-- others change the world -/
  | edit (world : World σ)

namespace System

/-- Nothing has happened yet. -/
def start (w : World σ) : System σ :=
  ⟨⟨w, none, []⟩, []⟩

/-- The system after a move, if the move is possible. -/
def move? (ix : Indexer σ) (s : System σ) : Move σ → Option (System σ)
  | .come job => some { s with tasks := s.tasks ++ [(job, .waiting)] }
  | .step i => do
    let (job, phase) ← s.tasks[i]?
    let (phase, shared) ← phase.step ix job i s.shared
    some ⟨shared, s.tasks.set i (job, phase)⟩
  | .edit world => some { s with shared := { s.shared with world := world } }

end System

end CodeAtlas.CacheTasks
