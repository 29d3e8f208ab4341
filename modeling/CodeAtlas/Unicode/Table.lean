/-!
# Tables of code points

A character property is a sorted list of *spans*. A span `(first, last, step)` stands for the code
points `first`, `first + step`, … up to `last`, so a run of alternating capital and small letters is
one span instead of many. Spans of one table are disjoint and ascending, which is what lets
`Table.find?` halve the table at each step.

* `Table.find?` — the span whose bounds enclose a code point.
* `Table.contains` — whether a code point has the property.
-/

namespace CodeAtlas.Unicode

/-- Ascending, disjoint spans `(first, last, step)` of code points. -/
structure Table where
  /-- the spans, in order -/
  spans : Array (Nat × Nat × Nat)

namespace Table

/-- The span among positions `lo ≤ i < hi` whose bounds enclose `n`, by halving. -/
def search (t : Table) (n lo hi : Nat) : Option (Nat × Nat × Nat) :=
  if _h : lo < hi then
    let mid := (lo + hi) / 2
    match t.spans[mid]? with
    | none => none
    | some (first, last, step) =>
      if n < first then t.search n lo mid
      else if last < n then t.search n (mid + 1) hi
      else some (first, last, step)
  else none
termination_by hi - lo

/-- The span whose bounds enclose `n`. -/
def find? (t : Table) (n : Nat) : Option (Nat × Nat × Nat) :=
  t.search n 0 t.spans.size

/-- Whether `n` is one of the code points of the table. -/
def contains (t : Table) (n : Nat) : Bool :=
  match t.find? n with
  | some (first, _, step) => (n - first) % step == 0
  | none => false

end Table

/-- A mapping of code points: a span `(first, last, step, image)` sends `first + i` to `image + i`.
-/
structure Mapping where
  /-- the spans, in order -/
  spans : Array (Nat × Nat × Nat × Nat)

namespace Mapping

/-- The image of `n` under the spans at positions `lo ≤ i < hi`, by halving. -/
def search (m : Mapping) (n lo hi : Nat) : Option Nat :=
  if _h : lo < hi then
    let mid := (lo + hi) / 2
    match m.spans[mid]? with
    | none => none
    | some (first, last, step, image) =>
      if n < first then m.search n lo mid
      else if last < n then m.search n (mid + 1) hi
      else if (n - first) % step == 0 then some (image + (n - first))
      else none
  else none
termination_by hi - lo

/-- The image of `n`, if the mapping moves it. -/
def find? (m : Mapping) (n : Nat) : Option Nat :=
  m.search n 0 m.spans.size

end Mapping

end CodeAtlas.Unicode
