import CodeAtlas.Restore.Store
import CodeAtlas.Service.Navigate
import CodeAtlas.Service.Refresh
import CodeAtlas.Service.Search
import CodeAtlas.Tracker.Basic

/-!
# Sessions

A session is a running service together with a store of restore points and, when changes are
followed, a tracker.

* `Session.ofSettings` — the session that settings ask for.
* `Session.asking`, `Session.creating`, `Session.restoring` — the service and the store at work on
  the state of a session.
-/

namespace CodeAtlas

/-- What stays the same during a session. -/
structure Session (σ ℓ : Type) where
  /-- the service -/
  service : Service σ ℓ
  /-- the restore points -/
  store : RestoreStore

namespace Session

/-- What changes during a session. -/
structure State (σ ℓ : Type) where
  /-- the state of the service -/
  service : Service.State σ ℓ
  /-- how many restore points were asked for -/
  points : Nat
  /-- the tracker, if changes are followed -/
  tracker : Option Tracker

variable {σ ℓ : Type}

/-- A session of a service. -/
def ofService (service : Service σ ℓ) : Session σ ℓ :=
  let settings := service.settings
  ⟨service, .ofCache settings.root settings.cacheDirectory settings.restorePoints⟩

/-- The labeler that settings ask for. -/
def labelerOf (settings : Settings) (transport : Transport ℓ) : Option (Navigator.Labeler ℓ) :=
  if settings.labels then
    some (ModelServer.complete (.ofUrl settings.serverUrl settings.labelModel) transport)
  else none

/-- The session that settings ask for. Two transports reach the model server, one for vectors and
one for labels. -/
def ofSettings (settings : Settings) (rules : SkipRules) (parser : Parser) (vectors : Transport σ)
    (labels : Transport ℓ) : Except ProviderError (Session σ ℓ) := do
  let provider ← settings.provider vectors
  let indexer := Service.indexerOf settings rules parser provider
  return .ofService ⟨settings, indexer, labelerOf settings labels⟩

/-- The beginning of a session. A tracker notices changes only where the base directory can be
watched. -/
def start (session : Session σ ℓ) (d : Disk) (memory : σ) (labels : ℓ) (now : Nat)
    (watched : Bool) :
    State σ ℓ :=
  let settings := session.service.settings
  ⟨session.service.start ⟨d, memory⟩ labels now, 0,
    if settings.watch then some (.start (watched && d.isDirectory settings.baseDirectory))
        else none⟩

/-- The disk. -/
def State.disk (s : State σ ℓ) : Disk :=
  s.service.world.disk

/-- The state with another disk. -/
def State.withDisk (s : State σ ℓ) (d : Disk) : State σ ℓ :=
  { s with service := { s.service with world := { s.service.world with disk := d } } }

/-- The state at another time. Time passes between the steps of a session, whatever they are. -/
def State.atTime (s : State σ ℓ) (now : Nat) : State σ ℓ :=
  { s with service := { s.service with now := now } }

/-- An answer of the service. -/
def asking {α : Type} (answer : Service.Answer σ ℓ α) (s : State σ ℓ) :
    Except ServiceError α × State σ ℓ :=
  match answer s.service with
  | .ok a service => (.ok a, { s with service := service })
  | .error e service => (.error e, { s with service := service })

/-- Creates a restore point. -/
def creating (session : Session σ ℓ) (paths : List String) (message : String) (s : State σ ℓ) :
    Except RestoreError RestorePoint × State σ ℓ :=
  let created := session.store.create s.service.now s.points paths message s.disk
  (created.answer, { s.withDisk created.disk with points := created.number })

/-- Restores a point. Once its files are back, all snapshots are dropped; a failure leaves them. -/
def restoring (session : Session σ ℓ) (id : String) (s : State σ ℓ) :
    Except RestoreError RestorePoint × State σ ℓ :=
  match session.store.restore id s.disk with
  | .error e d => (.error e, s.withDisk d)
  | .ok point d =>
    (.ok point, (asking Service.invalidate (s.withDisk d)).2)

end Session

end CodeAtlas
