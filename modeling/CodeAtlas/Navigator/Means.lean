/-!
# Clusters around means

Points are divided into clusters by the nearest of some centroids. The first centroids are points
far from each other: the first point, and then each time the point whose distance to the nearest
centroid is greatest. In each round every point goes to its nearest centroid, and every centroid
moves to the mean of its points; the rounds end when no point changes its cluster.

* `seedCentroids` — the first centroids.
* `nearest` — the centroid nearest to a point, the first one among equals.
* `cluster` — the cluster of each point.
-/

namespace CodeAtlas.Navigator

/-- A point in a space of some dimension. -/
abbrev Point := List Float

/-- The squared distance of two points. -/
def squaredDistance (a b : Point) : Float :=
  (List.zipWith (fun x y => (x - y) * (x - y)) a b).foldl (· + ·) 0

/-- A number greater than all others. -/
def infinite : Float := Float.ofBits 0x7FF0000000000000

/-- The least of some distances; what is not a number does not count. -/
def leastDistance (distances : List Float) : Float :=
  distances.foldl (fun least d => if d < least then d else least) infinite

/-- Among numbered distances, the number of the greatest one, the first among equals. -/
def farthest? : List (Nat × Float) → Option Nat
  | [] => none
  | first :: rest =>
    some (rest.foldl (fun best next => if best.2 < next.2 then next else best) first).1

/-- The points that are not seeds yet, with their distances to the nearest seed. -/
def seedDistances (points : List Point) (seeds : List Nat) : List (Nat × Float) :=
  let centroids := seeds.filterMap (points[·]?)
  points.zipIdx.filterMap fun (point, i) =>
    if i ∈ seeds then none else some (i, leastDistance (centroids.map (squaredDistance point)))

/-- Adds seeds, `count` of them, each as far as possible from those before it. -/
def addSeeds (points : List Point) : Nat → List Nat → List Nat
  | 0, seeds => seeds
  | count + 1, seeds =>
    match farthest? (seedDistances points seeds) with
    | some i => addSeeds points count (seeds ++ [i])
    | none => seeds

/-- The places of the points that become the first centroids. -/
def seedPlaces (points : List Point) (k : Nat) : List Nat :=
  addSeeds points (min (max k 1) points.length - 1) [0]

/-- The first centroids. -/
def seedCentroids (points : List Point) (k : Nat) : List Point :=
  (seedPlaces points k).filterMap (points[·]?)

/-- The centroid nearest to a point, the first one among equals. Distances that are no numbers do
not count. -/
def nearest (centroids : List Point) (point : Point) : Nat :=
  ((centroids.map (squaredDistance point)).zipIdx.foldl
    (fun best next => if next.1 < best.1 then next else best) (infinite, 0)).2

/-- The sum of some points, component by component. -/
def sumPoints (dimension : Nat) (points : List Point) : Point :=
  points.foldl (fun sum point => List.zipWith (· + ·) sum point) (List.replicate dimension 0)

/-- The mean of some points. -/
def mean (dimension : Nat) (points : List Point) : Point :=
  (sumPoints dimension points).map (· / Float.ofNat points.length)

/-- The points of a cluster. -/
def membersOf (points : List Point) (assignment : List (Option Nat)) (cluster : Nat) : List Point :=
  (points.zip assignment).filterMap fun (point, a) => if a = some cluster then some point else none

/-- The centroids moved to the means of their points; one without points stays. -/
def moveCentroids (points : List Point) (assignment : List (Option Nat)) (centroids : List Point) :
    List Point :=
  let dimension := (points.headD []).length
  centroids.zipIdx.map fun (centroid, i) =>
    let members := membersOf points assignment i
    if members.isEmpty then centroid else mean dimension members

/-- Centroids, and the cluster of each point, if it has one yet. -/
structure Clustering where
  /-- the centroids -/
  centroids : List Point
  /-- the cluster of each point -/
  assignment : List (Option Nat)

/-- The cluster of each point by its nearest centroid. -/
def assign (points : List Point) (centroids : List Point) : List (Option Nat) :=
  points.map fun point => some (nearest centroids point)

/-- Rounds until no point changes its cluster, at most as many as said. -/
def rounds (points : List Point) : Nat → Clustering → Clustering
  | 0, c => c
  | n + 1, c =>
    let assignment := assign points c.centroids
    if assignment = c.assignment then c
    else rounds points n ⟨moveCentroids points assignment c.centroids, assignment⟩

/-- Points in `k` clusters after at most `maxRounds` rounds. -/
def clustering (points : List Point) (k maxRounds : Nat) : Clustering :=
  rounds points maxRounds ⟨seedCentroids points k, points.map fun _ => none⟩

/-- The cluster of each point. -/
def cluster (points : List Point) (k maxRounds : Nat) : List (Option Nat) :=
  (clustering points k maxRounds).assignment

end CodeAtlas.Navigator
