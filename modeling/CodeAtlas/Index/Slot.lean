/-!
# Slots for what is costly to make

A slot keeps the value that was made last, with the time when it was made. Before the value is as
old as the slot's time to live it is fresh and is given again; after that a new one is made in its
place. A value that cannot be made leaves the slot as it was.

* `Slot.fresh?` — the value, if it is fresh.
* `Slot.kept` — the value, fresh or not.
* `Slot.keep`, `Slot.clear` — the slot with a new value, and without one.
* `SlotIn.freshOr` — the fresh value of a slot, or else a new one, which is kept.
-/

namespace CodeAtlas

/-- A value with the time when it was made, in milliseconds. -/
structure Snapshot (α : Type) where
  /-- the value -/
  value : α
  /-- when it was made -/
  madeAt : Nat

/-- The age of a snapshot. -/
def Snapshot.age {α : Type} (s : Snapshot α) (now : Nat) : Nat :=
  now - s.madeAt

/-- A place for one value. -/
structure Slot (α : Type) where
  /-- the directory that the values are about -/
  root : String
  /-- how long a value is fresh, in milliseconds -/
  lifetime : Nat
  /-- the value that was made last -/
  kept : Option (Snapshot α)

namespace Slot

variable {α : Type}

/-- A slot without a value. -/
def empty (root : String) (lifetime : Nat) : Slot α := ⟨root, lifetime, none⟩

/-- The value, if it is fresh. -/
def fresh? (s : Slot α) (now : Nat) : Option α :=
  match s.kept with
  | some snapshot => if snapshot.age now < s.lifetime then some snapshot.value else none
  | none => none

/-- The slot with a new value. -/
def keep (s : Slot α) (value : α) (now : Nat) : Slot α :=
  { s with kept := some ⟨value, now⟩ }

/-- The slot without its value. -/
def clear (s : Slot α) : Slot α :=
  { s with kept := none }

end Slot

/-- A slot as a part of states `S` that know the time. -/
structure SlotIn (S α : Type) where
  /-- the slot in a state -/
  get : S → Slot α
  /-- the state with another slot -/
  set : Slot α → S → S
  /-- the time, in milliseconds -/
  now : S → Nat

namespace SlotIn

variable {S ε α : Type}

/-- The fresh value of a slot. If there is none, a new one is made and kept, at the time when it is
finished. If that fails the slot is left alone. -/
def freshOr (slot : SlotIn S α) (make : EStateM ε S α) : EStateM ε S α := fun s =>
  match (slot.get s).fresh? (slot.now s) with
  | some value => .ok value s
  | none =>
    match make s with
    | .ok value s => .ok value (slot.set ((slot.get s).keep value (slot.now s)) s)
    | .error e s => .error e s

end SlotIn

end CodeAtlas
