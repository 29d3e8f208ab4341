import CodeAtlas.Navigator.Means
import Mathlib

/-!
# The nearest centroid

The search for the nearest centroid compares doubles, and a distance may be any of them: infinite,
or not a number. Numbers are ordered by their sign, their exponent and their mantissa (`rankOf`),
and what is not a number is given the rank of infinity, since the search passes over both alike. By
ranks the comparison of the search is that of a linear order (`lt_iff_rank_lt`), and so it ends with
the least distance, the first among equals.

* `FirstLeast` — where the least of some distances stands.
* **`nearest_firstLeast`** — whatever the distances are, the nearest centroid is where the least one
  stands.
-/

namespace CodeAtlas.Navigator

open Float.Model (UnpackedFloat)
open Float.Model.UnpackedFloat (Sign)

/-! ## The order of doubles -/

/-- Where a double stands among all of them: by its sign, then by its exponent, then by its
mantissa. What is not a number stands where infinity does. -/
def rankOf : UnpackedFloat → Int ×ₗ Int ×ₗ Int
  | .infinity .negative => toLex (-2, toLex (0, 0))
  | .finite .negative m e _ => toLex (-1, toLex (-e, -m))
  | .zero _ => toLex (0, toLex (0, 0))
  | .finite .positive m e _ => toLex (1, toLex (e, m))
  | .infinity .positive => toLex (2, toLex (0, 0))
  | .notANumber => toLex (2, toLex (0, 0))

/-- Numbers are compared as their ranks are: a case for each kind of number and each sign. -/
theorem compare_eq_lt_iff {u v : UnpackedFloat} (hu : u ≠ .notANumber) (hv : v ≠ .notANumber) :
    u.compare v = some .lt ↔ rankOf u < rankOf v := by
  have hsame (s : Sign) : compare s s = .eq := by cases s <;> rfl
  have hless : compare Sign.negative Sign.positive = .lt := rfl
  have hgreater : compare Sign.positive Sign.negative = .gt := rfl
  rcases u with (_ | _) | _ | _ | ⟨_ | _, m, e, _⟩ <;>
    rcases v with (_ | _) | _ | _ | ⟨_ | _, m', e', _⟩ <;>
    simp only [ne_eq, not_true_eq_false] at hu hv
  all_goals
    simp [UnpackedFloat.compare, rankOf, Prod.Lex.toLex_lt_toLex, hsame, hless, hgreater,
      Ordering.then_eq_lt, Ordering.then_eq_gt, compare_lt_iff_lt, compare_gt_iff_gt]

/-- No rank is beyond that of infinity. -/
theorem rankOf_le (u : UnpackedFloat) : rankOf u ≤ rankOf (.infinity .positive) := by
  rcases u with (_ | _) | _ | _ | ⟨_ | _, m, e, _⟩ <;>
    simp [rankOf, Prod.Lex.toLex_le_toLex]

/-- The rank of a double. -/
def rank (d : Float) : Int ×ₗ Int ×ₗ Int := rankOf d.toModel.unpack

variable {a b d : Float}

theorem rank_le_infinite (d : Float) : rank d ≤ rank infinite :=
  rankOf_le _

theorem isNaN_iff (d : Float) : d.isNaN = true ↔ d.toModel.unpack = .notANumber := by
  change d.toModel.unpack.isNaN = true ↔ _
  cases d.toModel.unpack <;> simp [UnpackedFloat.isNaN]

/-- **Being less than a number is a matter of ranks**, also for what is not a number. -/
theorem lt_iff_rank_lt (hb : b.isNaN = false) : a < b ↔ rank a < rank b := by
  have hlt : a < b ↔ a.toModel.unpack.compare b.toModel.unpack = some .lt := by
    change decide (a.toModel.unpack.lt b.toModel.unpack = true) = true ↔ _
    rw [decide_eq_true_iff, UnpackedFloat.lt, beq_iff_eq]
  have hnumber : b.toModel.unpack ≠ .notANumber := fun h =>
    absurd ((isNaN_iff b).mpr h) (ne_true_of_eq_false hb)
  rw [hlt]
  by_cases ha : a.toModel.unpack = .notANumber
  · rw [rank, ha]
    exact iff_of_false (by simp [UnpackedFloat.compare]) (not_lt.mpr (rank_le_infinite b))
  · exact compare_eq_lt_iff ha hnumber

/-- What ranks before something is a number. -/
theorem isNaN_of_rank_lt (h : rank a < rank b) : a.isNaN = false := by
  refine eq_false_of_ne_true fun hnone => ?_
  rw [rank, (isNaN_iff a).mp hnone] at h
  exact not_lt.mpr (rank_le_infinite b) h

/-! ## The least of some distances -/

/-- A distance as it counts: what is not a number counts as infinite. -/
def counted (d : Float) : Float := if d.isNaN then infinite else d

theorem rank_counted (d : Float) : rank (counted d) = rank d := by
  rw [counted]
  split
  · next hnone =>
    rw [rank, rank, (isNaN_iff d).mp hnone]
    rfl
  · rfl

theorem counted_lt_iff : counted a < counted b ↔ rank a < rank b := by
  have hnumber : (counted b).isNaN = false := by
    rw [counted]
    split
    · rfl
    · next h => exact eq_false_of_ne_true h
  rw [lt_iff_rank_lt hnumber, rank_counted, rank_counted]

/-- The least of some distances is `value`, which stands at the place `c`, and no other stands
before it that is as little. -/
structure FirstLeast (distances : List Float) (c : Nat) (value : Float) : Prop where
  /-- it stands there -/
  stands : distances[c]? = some value
  /-- no distance is less -/
  least : ∀ d ∈ distances, ¬ counted d < counted value
  /-- those before are greater -/
  first : ∀ i < c, ∀ d, distances[i]? = some d → counted value < counted d

/-- How far the search has come: `best` is as little as anything so far, and is found at the place
`c`. -/
structure Scanned (distances : List Float) (best : Float) (c : Nat) : Prop where
  /-- it is a number -/
  number : best.isNaN = false
  /-- nothing is less -/
  least : ∀ d ∈ distances, rank best ≤ rank d
  /-- what comes before is greater -/
  first : ∀ i < c, ∀ d, distances[i]? = some d → rank best < rank d
  /-- it stands for the distance at its place, unless the search has not begun -/
  stands : (distances = [] ∧ best = infinite ∧ c = 0) ∨ ∃ d, distances[c]? = some d ∧
    rank d = rank best

/-- The search from the start on. -/
def scan (distances : List Float) : Float × Nat :=
  distances.zipIdx.foldl (fun best next => if next.1 < best.1 then next else best) (infinite, 0)

/-- **The search has always come to the least distance so far.** A new distance takes over only if
it is less than all before it. -/
theorem scanned_scan (distances : List Float) :
    Scanned distances (scan distances).1 (scan distances).2 := by
  induction distances using List.reverseRecOn with
  | nil => exact ⟨rfl, nofun, nofun, .inl ⟨rfl, rfl, rfl⟩⟩
  | append_singleton distances d ih =>
    have hstep : scan (distances ++ [d]) =
        if d < (scan distances).1 then (d, distances.length) else scan distances := by
      rw [scan, List.zipIdx_append, List.foldl_append, ← scan]
      simp
    rw [hstep]
    split
    · next hless =>
      rw [lt_iff_rank_lt ih.number] at hless
      refine ⟨isNaN_of_rank_lt hless, fun x hx => ?_, fun i hi x hx => ?_, .inr ⟨d, by simp, rfl⟩⟩
      · rcases List.mem_append.mp hx with hx | hx
        · exact hless.le.trans (ih.least x hx)
        · rw [List.mem_singleton.mp hx]
      · rw [List.getElem?_append_left hi] at hx
        exact hless.trans_le (ih.least x (List.mem_of_getElem? hx))
    · next hnot =>
      rw [lt_iff_rank_lt ih.number, not_lt] at hnot
      refine ⟨ih.number, fun x hx => ?_, fun i hi x hx => ?_, .inr ?_⟩
      · rcases List.mem_append.mp hx with hx | hx
        · exact ih.least x hx
        · rwa [List.mem_singleton.mp hx]
      · rcases ih.stands with ⟨-, -, hzero⟩ | ⟨y, hy, -⟩
        · omega
        · have hc := (List.getElem?_eq_some_iff.mp hy).1
          exact ih.first i hi x (by rwa [List.getElem?_append_left (hi.trans hc)] at hx)
      · rcases ih.stands with ⟨rfl, hbest, hzero⟩ | ⟨y, hy, hrank⟩
        · rw [hbest] at hnot ⊢
          exact ⟨d, by rw [hzero]; rfl, le_antisymm (rank_le_infinite d) hnot⟩
        · have hc := (List.getElem?_eq_some_iff.mp hy).1
          exact ⟨y, by rwa [List.getElem?_append_left hc], hrank⟩

/-- **The nearest centroid is the first one of least distance**, whatever the distances are. -/
theorem nearest_firstLeast {centroids : List Point} (hsome : centroids ≠ []) (point : Point) :
    ∃ value, FirstLeast (centroids.map (squaredDistance point)) (nearest centroids point)
      value := by
  have hscan := scanned_scan (centroids.map (squaredDistance point))
  rcases hscan.stands with ⟨hnil, -⟩ | ⟨value, hvalue, hrank⟩
  · exact absurd (List.map_eq_nil_iff.mp hnil) hsome
  · refine ⟨value, hvalue, fun d hd => ?_, fun i hi d hd => ?_⟩
    · rw [counted_lt_iff, hrank]
      exact not_lt.mpr (hscan.least d hd)
    · rw [counted_lt_iff, hrank]
      exact hscan.first i hi d hd

end CodeAtlas.Navigator
