/-!
# Eigenvectors of symmetric matrices

The eigenvalues and eigenvectors of a symmetric matrix are found by rotations. A rotation in the
plane of two axes makes the entry at their crossing zero; all pairs of axes are treated in turn,
again and again, until what is left off the diagonal is small. The numbers are of any type that has
the operations of `Arithmetic`.

* `Jacobi.rotate` — one rotation, of the matrix and of the vectors.
* `eigenPairs` — the eigenvalues in ascending order, each with its vector.
-/

namespace CodeAtlas.Navigator

/-- Numbers to calculate with. -/
class Arithmetic (α : Type) extends Zero α, One α, Add α, Sub α, Mul α, Div α where
  /-- the square root -/
  sqrt : α → α
  /-- the absolute value -/
  magnitude : α → α
  /-- one with the sign of the number -/
  signum : α → α
  /-- whether the first number is less than the second -/
  less : α → α → Bool
  /-- whether the first number is at most the second -/
  atMost : α → α → Bool
  /-- whether the first number comes no later than the second in the order of all numbers -/
  sorted : α → α → Bool
  /-- entries whose magnitude is less than this are left alone -/
  tiny : α
  /-- the share of the whole that may be left off the diagonal -/
  tolerance : α

open Arithmetic

/-- A square matrix, row by row. -/
abbrev Square (α : Type) (n : Nat) := Vector (Vector α n) n

section

variable {α : Type} [Arithmetic α] {n : Nat}

namespace Square

/-- The matrix that changes nothing. -/
def identity : Square α n :=
  .ofFn fun i => .ofFn fun j => if i = j then 1 else 0

/-- The sum of the squares of all entries. -/
@[specialize] def total (m : Square α n) : α :=
  m.foldl (fun sum row => row.foldl (fun sum x => sum + x * x) sum) 0

/-- The pairs of different axes, the smaller one first. -/
def axisPairs (n : Nat) : List (Fin n × Fin n) :=
  (List.finRange n).flatMap fun p =>
    ((List.finRange n).filter fun q => decide (p < q)).map fun q => (p, q)

/-- The sum of the squares of the entries above the diagonal. -/
@[specialize] def offDiagonal (m : Square α n) : α :=
  (axisPairs n).foldl (fun sum (p, q) => sum + m[p][q] * m[p][q]) 0

end Square

/-- A rotation in a plane: its cosine and its sine. -/
structure Rotation (α : Type) where
  /-- the cosine -/
  cosine : α
  /-- the sine -/
  sine : α

namespace Rotation

/-- The rotation that makes the entry `apq` zero, between the diagonal entries `app` and `aqq`. -/
@[specialize] def clearing (app apq aqq : α) : Rotation α :=
  let theta := (aqq - app) / ((1 + 1) * apq)
  let t := signum theta / (magnitude theta + sqrt (theta * theta + 1))
  let c := 1 / sqrt (t * t + 1)
  ⟨c, t * c⟩

/-- The coordinate of the first axis after the rotation. -/
@[inline] def first (r : Rotation α) (x y : α) : α := r.cosine * x - r.sine * y

/-- The coordinate of the second axis after the rotation. -/
@[inline] def second (r : Rotation α) (x y : α) : α := r.sine * x + r.cosine * y

/-- A row with two of its entries rotated. -/
@[specialize] def rotateEntries (r : Rotation α) (p q : Fin n) (row : Vector α n) : Vector α n :=
  let x := row[p]
  let y := row[q]
  (row.set p (r.first x y)).set q (r.second x y)

/-- A matrix with two of its columns rotated. -/
@[specialize] def rotateColumns (r : Rotation α) (p q : Fin n) (m : Square α n) : Square α n :=
  m.map (r.rotateEntries p q)

/-- A matrix with two of its rows rotated. -/
@[specialize] def rotateRows (r : Rotation α) (p q : Fin n) (m : Square α n) : Square α n :=
  let x := m[p]
  let y := m[q]
  (m.set p (Vector.zipWith r.first x y)).set q (Vector.zipWith r.second x y)

end Rotation

/-- A matrix on its way to a diagonal one, and the rotations so far as one matrix. -/
structure Jacobi (α : Type) (n : Nat) where
  /-- the matrix -/
  matrix : Square α n
  /-- all rotations so far -/
  vectors : Square α n

namespace Jacobi

/-- The start: no rotation yet. -/
def start (m : Square α n) : Jacobi α n := ⟨m, Square.identity⟩

/-- One rotation, which makes the entry of two axes zero. A tiny entry is left alone. -/
@[specialize] def rotate (j : Jacobi α n) (axes : Fin n × Fin n) : Jacobi α n :=
  let (p, q) := axes
  let apq := j.matrix[p][q]
  if less (magnitude apq) tiny then j
  else
    let r := Rotation.clearing j.matrix[p][p] apq j.matrix[q][q]
    ⟨r.rotateRows p q (r.rotateColumns p q j.matrix), r.rotateColumns p q j.vectors⟩

/-- One rotation for every pair of axes. -/
@[specialize] def sweep (j : Jacobi α n) : Jacobi α n :=
  (Square.axisPairs n).foldl rotate j

/-- Sweeps until what is left off the diagonal is at most `bound`, at most as often as said. -/
@[specialize] def run (bound : α) : Nat → Jacobi α n → Jacobi α n
  | 0, j => j
  | sweeps + 1, j =>
    if atMost j.matrix.offDiagonal bound then j else run bound sweeps j.sweep

end Jacobi

/-- How many sweeps are made at most. -/
def maxSweeps : Nat := 100

/-- The rotated matrix and the rotations. -/
@[specialize] def diagonalize (m : Square α n) : Jacobi α n :=
  let total := m.total
  let scale := if less 1 total then total else 1
  Jacobi.run (tolerance * scale) maxSweeps (.start m)

/-- The eigenvalues in ascending order, each with its eigenvector. -/
@[specialize] def eigenPairs (m : Square α n) : List (α × Vector α n) :=
  let j := diagonalize m
  let pairs := (List.finRange n).map fun i => (j.matrix[i][i], j.vectors.map fun row => row[i])
  pairs.mergeSort fun a b => sorted a.1 b.1

end

/-! ## Doubles -/

/-- The place of a double in the total order of all of them: minus zero comes before zero, and what
is not a number comes last. -/
def doubleKey (x : Float) : Int :=
  let bits := x.toBits.toNat
  if bits < UInt64.size / 2 then bits else -(bits - UInt64.size / 2 : Nat) - 1

/-- One with the sign of a double; what is not a number has no sign. -/
def doubleSignum (x : Float) : Float :=
  if x.isNaN then x else if x.toBits < 0x8000000000000000 then 1 else -1

instance : Arithmetic Float where
  zero := 0
  one := 1
  sqrt := Float.sqrt
  magnitude := Float.abs
  signum := doubleSignum
  less x y := x < y
  atMost x y := x ≤ y
  sorted x y := doubleKey x ≤ doubleKey y
  tiny := Float.ofBits 0x0010000000000000
  tolerance := 1e-12

end CodeAtlas.Navigator
