import CodeAtlas.Embedding.Basic
import CodeAtlas.Navigator.Eigen
import CodeAtlas.Navigator.Means

/-!
# Spectral clustering

Vectors are divided into groups of similar ones. Their similarities make a matrix; its Laplacian,
normalized by the degrees, has an eigenvector for each coarse division. The number of groups is
where the eigenvalues have their widest gap, and the rows of the first eigenvectors, brought to
length one, are the points that are divided. The eigenvectors of many vectors would cost too much,
so of those only some landmarks are divided, and every vector joins the group of the landmark most
similar to it.

* `affinity`, `laplacian` — the matrices.
* `gapCount` — the number of groups.
* `spectralPartition` — the groups, as lists of places.
-/

namespace CodeAtlas.Navigator

/-- Degrees and lengths up to this are taken for zero. -/
def nearZero : Float := 1e-10

/-- A double, or zero if it is less or no number. -/
def doubleAtLeastZero (x : Float) : Float :=
  if 0 < x then x else 0

/-- The similarities of vectors. No vector is similar to itself. -/
def affinity {n : Nat} (vectors : Vector Embedding n) : Square Float n :=
  .ofFn fun i => .ofFn fun j =>
    if i = j then 0
    else
      let (a, b) := if i < j then (vectors.get i, vectors.get j) else (vectors.get j, vectors.get i)
      doubleAtLeastZero (cosine a b).toFloat

/-- Eight sums side by side, of every eighth number each; the numbers left over are the second part.
-/
def laneSums : Vector Float 8 → List Float → Vector Float 8 × List Float
  | lanes, x₀ :: x₁ :: x₂ :: x₃ :: x₄ :: x₅ :: x₆ :: x₇ :: rest =>
    laneSums (Vector.zipWith (· + ·) lanes #v[x₀, x₁, x₂, x₃, x₄, x₅, x₆, x₇]) rest
  | lanes, rest => (lanes, rest)

/-- The sum of a row: full blocks of eight lane by lane, lanes added in pairs, then the rest. -/
def rowSum (row : List Float) : Float :=
  let (p, rest) := laneSums (Vector.replicate 8 0) row
  let blocks := (0 : Float) + (p[0] + p[4]) + (p[1] + p[5]) + (p[2] + p[6]) + (p[3] + p[7])
  rest.foldl (· + ·) blocks

/-- The normalized Laplacian of similarities. A vector that is similar to none stands alone. -/
def laplacian {n : Nat} (a : Square Float n) : Square Float n :=
  let degrees := a.map fun row => rowSum row.toList
  .ofFn fun i => .ofFn fun j =>
    if i = j then 1
    else if nearZero < degrees.get i && nearZero < degrees.get j then
      -(a.get i).get j / (degrees.get i * degrees.get j).sqrt
    else 0

/-- The greatest whole number whose square is at most `n`. -/
def floorSqrt (n : Nat) : Nat :=
  ((List.range (n + 1)).filter fun k => decide (k * k ≤ n)).getLastD 0

/-- Among numbers of groups with their gaps, the number at the widest gap, the first among equals.
-/
def widestGap (gaps : List (Nat × Float)) : Nat :=
  (gaps.foldl (fun best gap => if best.2 < gap.2 then gap else best) (2, -infinite)).1

/-- The number of groups that eigenvalues in ascending order suggest. -/
def gapCount (values : List Float) (maxClusters : Nat) : Nat :=
  let n := values.length
  if n < 3 then 2
  else
    let upper := min maxClusters (floorSqrt n)
    widestGap ((List.range (upper + 1)).filterMap fun k =>
      if 2 ≤ k && k < n then some (k, values.getD k 0 - values.getD (k - 1) 0) else none)

/-- The first `k` entries of a row, brought to length one, or zeros if they have no length. -/
def normalizedRow (k : Nat) (row : List Float) : Point :=
  let start := row.take k
  let norm := (start.foldl (fun sum x => sum + x * x) 0).sqrt
  start.map fun x => if nearZero < norm then x / norm else 0

/-- The rows of a matrix that is given by its columns. -/
def rowsOf {n : Nat} (columns : List (Vector Float n)) : List (List Float) :=
  (List.finRange n).map fun i => columns.map fun column => column.get i

/-- The places of points by their clusters, the cluster of the first point first. -/
def groupPlaces (assignment : List (Option Nat)) : List (List Nat) :=
  assignment.eraseDups.map fun c =>
    assignment.zipIdx.filterMap fun (a, i) => if a = c then some i else none

/-- How many rounds the clustering of rows may take. -/
def maxRounds : Nat := 50

/-- The groups of some vectors by the eigenvectors of their Laplacian. -/
def dividedBySpectrum (vectors : List Embedding) (maxClusters : Nat) : List (List Nat) :=
  let pairs := eigenPairs (laplacian (affinity vectors.toArray.toVector))
  let k := min (gapCount (pairs.map (·.1)) (max maxClusters 2)) vectors.length
  let rows := rowsOf (pairs.map (·.2))
  groupPlaces (cluster (rows.map (normalizedRow k)) k maxRounds)

/-- Above this many vectors only landmarks are divided. -/
def maxSpectralPoints : Nat := 96

/-- Evenly spaced vectors. -/
def landmarks (vectors : List Embedding) : List Embedding :=
  let array := vectors.toArray
  (List.range maxSpectralPoints).filterMap fun i =>
    array[i * array.size / maxSpectralPoints]?

/-- The landmark most similar to a vector, the first one among equals. -/
def nearestLandmark (marks : List Embedding) (v : Embedding) : Nat :=
  ((marks.map (cosine v)).zipIdx.foldl
    (fun best next => if best.1 < next.1 then next else best)
    (Float32.ofBits 0xFF800000, 0)).2

/-- The group that a place belongs to; the first one if it is in none. -/
def groupOf (groups : List (List Nat)) (place : Nat) : Nat :=
  let g := groups.findIdx (·.contains place)
  if g < groups.length then g else 0

/-- The groups of some vectors by the groups of their landmarks. -/
def dividedByLandmarks (vectors : List Embedding) (maxClusters : Nat) : List (List Nat) :=
  let marks := landmarks vectors
  let groups := dividedBySpectrum marks maxClusters
  groupPlaces (vectors.map fun v => some (groupOf groups (nearestLandmark marks v)))

/-- The groups of some vectors, by their places, the group of the first vector first. -/
def spectralPartition (vectors : List Embedding) (maxClusters : Nat) : List (List Nat) :=
  if vectors.length < 2 then [List.range vectors.length]
  else if maxSpectralPoints < vectors.length then dividedByLandmarks vectors maxClusters
  else dividedBySpectrum vectors maxClusters

end CodeAtlas.Navigator
