import Mathlib.Analysis.Real.Sqrt
import Mathlib.LinearAlgebra.UnitaryGroup
import Mathlib.Tactic
import CodeAtlas.Navigator.Eigen

/-!
# Rotations over the real numbers

Setup: read over the real numbers, a rotation is exact. To rotate the columns of a matrix is to
multiply it by the rotated identity (`turn_eq_mul`), and to rotate the rows after that is to
multiply by the transposed one from the other side (`turn_turn`). The rotated identity is orthogonal
when the squares of cosine and sine add up to one, so the rotated matrix is similar to the one
before.

* `Rotation.clearing_unit`, `Rotation.clearing_clears` — the cosine and sine that are chosen, and
  that the entry at the crossing of the axes becomes zero.
* `above_rotated` — such a rotation takes the square of that entry away from the sum above the
  diagonal.
-/

namespace CodeAtlas.Navigator

open scoped Matrix

/-! ## The chosen angle -/

/-- The tangent that is chosen solves its quadratic equation. -/
theorem tangent_eq {theta t : ℝ}
    (ht : t = (if theta < 0 then -1 else 1) / (|theta| + √(theta * theta + 1))) :
    t * t + 2 * theta * t = 1 := by
  have hsum : 0 < theta * theta + 1 := add_pos_of_nonneg_of_pos (mul_self_nonneg theta) one_pos
  have hroot : √(theta * theta + 1) * √(theta * theta + 1) = theta * theta + 1 :=
    Real.mul_self_sqrt hsum.le
  have hpos : 0 < |theta| + √(theta * theta + 1) :=
    add_pos_of_nonneg_of_pos (abs_nonneg theta) (Real.sqrt_pos.mpr hsum)
  generalize √(theta * theta + 1) = root at hroot hpos ht
  obtain ⟨sign, hsign, hunit, habs⟩ : ∃ sign : ℝ, (if theta < 0 then -1 else 1) = sign ∧
      sign * sign = 1 ∧ |theta| = sign * theta := by
    refine ⟨_, rfl, ?_, ?_⟩
    · split_ifs <;> norm_num
    · split_ifs with hneg
      · rw [abs_of_neg hneg, neg_one_mul]
      · rw [abs_of_nonneg (not_lt.mp hneg), one_mul]
  rw [hsign, habs] at ht
  rw [habs] at hpos
  have hmul : t * (sign * theta + root) = sign := by rw [ht, div_mul_cancel₀ _ hpos.ne']
  have hzero :
      (t * t + 2 * theta * t - 1) * ((sign * theta + root) * (sign * theta + root)) = 0 := by
    linear_combination (t * (sign * theta + root) + sign + 2 * theta * (sign * theta + root)) *
      hmul + (1 + theta * theta) * hunit - hroot
  have hsq : (sign * theta + root) * (sign * theta + root) ≠ 0 := (mul_pos hpos hpos).ne'
  linarith [(mul_eq_zero.mp hzero).resolve_right hsq]

/-- Cosine and sine are those of an angle. -/
theorem unit_of_cosine {t c : ℝ} (hc : c = 1 / √(t * t + 1)) : c * c + t * c * (t * c) = 1 := by
  have hsum : 0 < t * t + 1 := add_pos_of_nonneg_of_pos (mul_self_nonneg t) one_pos
  have hpos : 0 < √(t * t + 1) := Real.sqrt_pos.mpr hsum
  have hroot : √(t * t + 1) * √(t * t + 1) = t * t + 1 := Real.mul_self_sqrt hsum.le
  have hmul : c * √(t * t + 1) = 1 := by rw [hc, one_div, inv_mul_cancel₀ hpos.ne']
  linear_combination (c * √(t * t + 1) + 1) * hmul - c * c * hroot

/-- The entry at the crossing of the axes is cleared by the tangent that solves the equation. -/
theorem crossing_eq_zero {app apq aqq t c : ℝ} (hentry : apq ≠ 0)
    (ht : t * t + 2 * ((aqq - app) / (2 * apq)) * t = 1) :
    c * (t * c * app + c * apq) - t * c * (t * c * apq + c * aqq) = 0 := by
  have hmul : (aqq - app) / (2 * apq) * (2 * apq) = aqq - app :=
    div_mul_cancel₀ _ (mul_ne_zero two_ne_zero hentry)
  linear_combination -c * c * apq * ht + c * c * t * hmul

/-! ## The real numbers -/

/-- The real numbers as numbers to calculate with. Zero has the sign of the positive numbers. -/
noncomputable instance : Arithmetic ℝ where
  sqrt := Real.sqrt
  magnitude x := |x|
  signum x := if x < 0 then -1 else 1
  less x y := decide (x < y)
  atMost x y := decide (x ≤ y)
  sorted x y := decide (x ≤ y)
  tiny := 1 / 2 ^ 1022
  tolerance := 1 / 10 ^ 12

namespace Rotation

variable {r : Rotation ℝ} {app apq aqq : ℝ}

/-- The rotation has the tangent and the cosine of above. -/
theorem exists_clearing (app apq aqq : ℝ) :
    ∃ t c : ℝ, clearing app apq aqq = ⟨c, t * c⟩ ∧ c = 1 / √(t * t + 1) ∧
      t = (if (aqq - app) / (2 * apq) < 0 then -1 else 1) / (|(aqq - app) / (2 * apq)| +
        √((aqq - app) / (2 * apq) * ((aqq - app) / (2 * apq)) + 1)) := by
  rw [← one_add_one_eq_two]
  exact ⟨_, _, rfl, rfl, rfl⟩

/-- Cosine and sine of the chosen rotation are those of an angle. -/
theorem clearing_unit (app apq aqq : ℝ) :
    (clearing app apq aqq).cosine * (clearing app apq aqq).cosine +
      (clearing app apq aqq).sine * (clearing app apq aqq).sine = 1 := by
  obtain ⟨t, c, hr, hc, -⟩ := exists_clearing app apq aqq
  rw [hr]
  exact unit_of_cosine hc

/-- **The chosen rotation clears the entry** at the crossing of its axes. -/
theorem clearing_clears (hentry : apq ≠ 0) :
    (clearing app apq aqq).cosine *
        ((clearing app apq aqq).sine * app + (clearing app apq aqq).cosine * apq) -
      (clearing app apq aqq).sine *
        ((clearing app apq aqq).sine * apq + (clearing app apq aqq).cosine * aqq) = 0 := by
  obtain ⟨t, c, hr, -, ht⟩ := exists_clearing app apq aqq
  rw [hr]
  exact crossing_eq_zero hentry (tangent_eq ht)

end Rotation

/-! ## Matrices -/

variable {n : ℕ}

/-- A square matrix as a matrix of its entries. -/
def Square.toMatrix {α : Type} (m : Square α n) : Matrix (Fin n) (Fin n) α :=
  Matrix.of fun i k => (m.get i).get k

/-- The matrix that changes nothing is the identity. -/
theorem Square.toMatrix_identity : (Square.identity : Square ℝ n).toMatrix = 1 := by
  ext i k
  change (Square.identity : Square ℝ n)[i.val][k.val] = (1 : Matrix (Fin n) (Fin n) ℝ) i k
  simp [Square.identity, Matrix.one_apply]

namespace Rotation

variable {r : Rotation ℝ} {p q : Fin n}

/-- A matrix with two of its columns rotated. -/
def turn (r : Rotation ℝ) (p q : Fin n) (a : Matrix (Fin n) (Fin n) ℝ) : Matrix (Fin n) (Fin n) ℝ :=
  Matrix.of fun i k =>
    if k = q then r.sine * a i p + r.cosine * a i q
    else if k = p then r.cosine * a i p - r.sine * a i q
    else a i k

theorem toMatrix_rotateColumns (r : Rotation ℝ) (p q : Fin n) (m : Square ℝ n) :
    (r.rotateColumns p q m).toMatrix = r.turn p q m.toMatrix := by
  ext i k
  change (r.rotateColumns p q m)[i.val][k.val] = r.turn p q m.toMatrix i k
  simp only [turn, Matrix.of_apply, rotateColumns, Vector.getElem_map, rotateEntries,
    Vector.getElem_set, Fin.val_inj, eq_comm (a := k)]
  rfl

theorem toMatrix_rotateRows (r : Rotation ℝ) (p q : Fin n) (m : Square ℝ n) :
    (r.rotateRows p q m).toMatrix = (r.turn p q m.toMatrixᵀ)ᵀ := by
  ext i k
  change (r.rotateRows p q m)[i.val][k.val] = (r.turn p q m.toMatrixᵀ)ᵀ i k
  simp only [turn, Matrix.transpose_apply, Matrix.of_apply, rotateRows, Vector.getElem_set,
    Fin.val_inj, eq_comm (a := i)]
  split_ifs
  · rw [Vector.getElem_zipWith]
    rfl
  · rw [Vector.getElem_zipWith]
    rfl
  · rfl

/-- Each row is turned on its own, so a factor in front can be taken out. -/
theorem turn_mul (r : Rotation ℝ) (p q : Fin n) (a b : Matrix (Fin n) (Fin n) ℝ) :
    r.turn p q (a * b) = a * r.turn p q b := by
  ext i k
  simp only [turn, Matrix.of_apply, Matrix.mul_apply]
  split_ifs
  · simp only [Finset.mul_sum, ← Finset.sum_add_distrib]
    exact Finset.sum_congr rfl fun j _ => by ring
  · simp only [Finset.mul_sum, ← Finset.sum_sub_distrib]
    exact Finset.sum_congr rfl fun j _ => by ring
  · rfl

/-- The rotation as a matrix. -/
def plane (r : Rotation ℝ) (p q : Fin n) : Matrix (Fin n) (Fin n) ℝ :=
  r.turn p q 1

/-- **To rotate columns is to multiply** by the rotation. -/
theorem turn_eq_mul (r : Rotation ℝ) (p q : Fin n) (a : Matrix (Fin n) (Fin n) ℝ) :
    r.turn p q a = a * r.plane p q := by
  rw [plane, ← turn_mul, mul_one]

/-- **A rotation is orthogonal.** -/
theorem plane_mem_orthogonalGroup (hpq : p ≠ q) (h : r.cosine * r.cosine + r.sine * r.sine = 1) :
    r.plane p q ∈ Matrix.orthogonalGroup (Fin n) ℝ := by
  rw [Matrix.mem_orthogonalGroup_iff', ← turn_eq_mul]
  -- entry by entry: the columns of the two axes have the squares of cosine and sine, all others a
  -- single one
  ext i k
  simp only [turn, plane, Matrix.transpose_apply, Matrix.of_apply, Matrix.one_apply]
  grind

/-- To rotate first the columns and then the rows is a similarity. -/
theorem turn_turn (r : Rotation ℝ) (p q : Fin n) (a : Matrix (Fin n) (Fin n) ℝ) :
    (r.turn p q (r.turn p q a)ᵀ)ᵀ = (r.plane p q)ᵀ * a * r.plane p q := by
  rw [turn_eq_mul r p q a, turn_eq_mul, Matrix.transpose_mul, Matrix.transpose_transpose, mul_assoc]

/-- **A matrix whose columns and rows are both rotated** is similar to the one before. -/
theorem toMatrix_rotate (r : Rotation ℝ) (p q : Fin n) (m : Square ℝ n) :
    (r.rotateRows p q (r.rotateColumns p q m)).toMatrix =
      (r.plane p q)ᵀ * m.toMatrix * r.plane p q := by
  rw [toMatrix_rotateRows, toMatrix_rotateColumns, turn_turn]

/-- The entries of such a matrix. -/
theorem rotated_apply (r : Rotation ℝ) (p q i k : Fin n) (a : Matrix (Fin n) (Fin n) ℝ) :
    ((r.plane p q)ᵀ * a * r.plane p q) i k =
      if i = q then r.sine * r.turn p q a p k + r.cosine * r.turn p q a q k
      else if i = p then r.cosine * r.turn p q a p k - r.sine * r.turn p q a q k
      else r.turn p q a i k := by
  rw [← turn_turn]
  rfl

end Rotation

/-! ## Sums of squares -/

variable {a g : Matrix (Fin n) (Fin n) ℝ}

/-- The sum of the squares of the entries above the diagonal. -/
def above (a : Matrix (Fin n) (Fin n) ℝ) : ℝ :=
  ∑ i, ∑ k, if i < k then a i k ^ 2 else 0

/-- The sum of the squares of all entries counts those above the diagonal twice. -/
theorem sum_sq_eq (h : a.IsSymm) : ∑ i, ∑ k, a i k ^ 2 = 2 * above a + ∑ i, a i i ^ 2 := by
  have hparts (i k : Fin n) : a i k ^ 2 = (if i < k then a i k ^ 2 else 0) +
      (if k < i then a k i ^ 2 else 0) + if i = k then a i i ^ 2 else 0 := by
    rcases lt_trichotomy i k with hik | rfl | hik
    · simp [hik, hik.not_gt, hik.ne]
    · simp
    · simp [hik, hik.not_gt, hik.ne', h.apply i k]
  have hbelow : (∑ i, ∑ k, if k < i then a k i ^ 2 else 0) = above a := Finset.sum_comm
  calc ∑ i, ∑ k, a i k ^ 2
      = ∑ i, ∑ k, ((if i < k then a i k ^ 2 else 0) + (if k < i then a k i ^ 2 else 0) +
          if i = k then a i i ^ 2 else 0) := by simp only [← hparts]
    _ = above a + above a + ∑ i, a i i ^ 2 := by
        simp only [Finset.sum_add_distrib, hbelow, Finset.sum_ite_eq, Finset.mem_univ, if_true]
        rfl
    _ = 2 * above a + ∑ i, a i i ^ 2 := by rw [two_mul]

/-- A matrix that is similar to a symmetric one by an orthogonal one is symmetric. -/
theorem isSymm_similar (ha : a.IsSymm) (g : Matrix (Fin n) (Fin n) ℝ) : (gᵀ * a * g).IsSymm := by
  rw [Matrix.IsSymm, Matrix.transpose_mul, Matrix.transpose_mul, Matrix.transpose_transpose, ha.eq,
    mul_assoc]

/-- The sum of all squares as a trace. -/
theorem sum_sq_eq_trace (a : Matrix (Fin n) (Fin n) ℝ) :
    ∑ i, ∑ k, a i k ^ 2 = (aᵀ * a).trace := by
  rw [Finset.sum_comm]
  simp only [Matrix.trace, Matrix.diag_apply, Matrix.mul_apply, Matrix.transpose_apply, sq]

/-- An orthogonal similarity changes nothing about the sum of all squares. -/
theorem sum_sq_similar (hg : g ∈ Matrix.orthogonalGroup (Fin n) ℝ) (a : Matrix (Fin n) (Fin n) ℝ) :
    ∑ i, ∑ k, (gᵀ * a * g) i k ^ 2 = ∑ i, ∑ k, a i k ^ 2 := by
  have hright : g * gᵀ = 1 := (Matrix.mem_orthogonalGroup_iff (Fin n) ℝ).mp hg
  rw [sum_sq_eq_trace, sum_sq_eq_trace]
  calc ((gᵀ * a * g)ᵀ * (gᵀ * a * g)).trace
      = (gᵀ * aᵀ * (g * gᵀ) * a * g).trace := by
        simp only [Matrix.transpose_mul, Matrix.transpose_transpose, mul_assoc]
    _ = (gᵀ * (aᵀ * a * g)).trace := by rw [hright]; simp only [mul_one, mul_assoc]
    _ = (aᵀ * a * (g * gᵀ)).trace := by rw [Matrix.trace_mul_comm, mul_assoc]
    _ = (aᵀ * a).trace := by rw [hright, mul_one]

/-- The squares of the two diagonal entries at the axes grow by twice the square of the cleared
entry. -/
theorem corner_sq {c s app apq aqq : ℝ} (hunit : c * c + s * s = 1)
    (hclear : c * (s * app + c * apq) - s * (s * apq + c * aqq) = 0) :
    (c * (c * app - s * apq) - s * (c * apq - s * aqq)) ^ 2 - app ^ 2 +
      ((s * (s * app + c * apq) + c * (s * apq + c * aqq)) ^ 2 - aqq ^ 2) = 2 * apq ^ 2 := by
  linear_combination (c * c + s * s + 1) * (app ^ 2 + aqq ^ 2 + 2 * apq ^ 2) * hunit -
    2 * (c * (s * app + c * apq) - s * (s * apq + c * aqq)) * hclear

/-- **A rotation that clears an entry** takes the square of it away from the sum above the diagonal.
-/
theorem above_rotated {r : Rotation ℝ} {p q : Fin n} (hpq : p ≠ q) (ha : a.IsSymm)
    (hunit : r.cosine * r.cosine + r.sine * r.sine = 1)
    (hclear : ((r.plane p q)ᵀ * a * r.plane p q) p q = 0) :
    above ((r.plane p q)ᵀ * a * r.plane p q) = above a - a p q ^ 2 := by
  have hb : ((r.plane p q)ᵀ * a * r.plane p q).IsSymm := isSymm_similar ha _
  have htotal := sum_sq_similar (r.plane_mem_orthogonalGroup hpq hunit) a
  rw [sum_sq_eq ha, sum_sq_eq hb] at htotal
  have hsymm : a q p = a p q := ha.apply p q
  -- only two entries of the diagonal change
  have hdiagonal :
      (∑ i, ((r.plane p q)ᵀ * a * r.plane p q) i i ^ 2) - ∑ i, a i i ^ 2 = 2 * a p q ^ 2 := by
    rw [← Finset.sum_sub_distrib, Fintype.sum_eq_add p q hpq]
    · simp only [r.rotated_apply, Rotation.turn, Matrix.of_apply, if_true, if_neg hpq,
        hsymm] at hclear ⊢
      exact corner_sq hunit hclear
    · rintro i ⟨hip, hiq⟩
      rw [r.rotated_apply, if_neg hiq, if_neg hip]
      simp [Rotation.turn, hip, hiq]
  linarith

/-- The chosen rotation clears the entry at the crossing of its axes. -/
theorem rotated_clearing {p q : Fin n} (hpq : p ≠ q) (ha : a.IsSymm) (hentry : a p q ≠ 0) :
    (((Rotation.clearing (a p p) (a p q) (a q q)).plane p q)ᵀ * a *
      (Rotation.clearing (a p p) (a p q) (a q q)).plane p q) p q = 0 := by
  have hsymm : a q p = a p q := ha.apply p q
  simp only [Rotation.rotated_apply, Rotation.turn, Matrix.of_apply, if_true, if_neg hpq, hsymm]
  exact Rotation.clearing_clears hentry

/-! ## The sum above the diagonal, pair by pair -/

/-- The sum over some members of a list is that over all members, where the others count nothing. -/
theorem sum_map_filter {α : Type} (xs : List α) (keep : α → Bool) (f : α → ℝ) :
    ((xs.filter keep).map f).sum = (xs.map fun x => if keep x then f x else 0).sum := by
  induction xs with
  | nil => rfl
  | cons x xs ih =>
    rw [List.filter_cons, List.map_cons, List.sum_cons, ← ih]
    split_ifs <;> simp

/-- A sum over the pairs of axes goes over the places above the diagonal. -/
theorem sum_axisPairs (f : Fin n × Fin n → ℝ) :
    ((Square.axisPairs n).map f).sum = ∑ i, ∑ k, if i < k then f (i, k) else 0 := by
  rw [Square.axisPairs, List.map_flatMap, List.flatMap_def, List.sum_flatten]
  simp only [Fin.sum_univ_def, List.map_map, Function.comp_def, sum_map_filter, decide_eq_true_eq]

/-- **The sum of squares that is watched** is that of the entries above the diagonal. -/
theorem offDiagonal_eq (m : Square ℝ n) : m.offDiagonal = above m.toMatrix := by
  have hfold (pairs : List (Fin n × Fin n)) (start : ℝ) :
      pairs.foldl (fun sum (axes : Fin n × Fin n) => sum + m[axes.1][axes.2] * m[axes.1][axes.2])
          start =
        start + (pairs.map fun axes => m.toMatrix axes.1 axes.2 ^ 2).sum := by
    induction pairs generalizing start with
    | nil => simp
    | cons axes pairs ih =>
      rw [List.foldl_cons, ih, List.map_cons, List.sum_cons, sq, add_assoc]
      rfl
  calc m.offDiagonal
      = 0 + ((Square.axisPairs n).map fun axes => m.toMatrix axes.1 axes.2 ^ 2).sum := hfold _ 0
    _ = above m.toMatrix := by rw [zero_add, sum_axisPairs, above]

end CodeAtlas.Navigator
