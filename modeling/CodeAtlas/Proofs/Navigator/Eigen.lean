import CodeAtlas.Proofs.Navigator.Rotation

/-!
# What the sweeps leave behind

Setup: over the real numbers, every rotation of a sweep keeps the matrix similar to the one at the
start, by the rotations made so far (`Similar`), and clears the entry at the crossing of its axes
(`Clears`). A tiny entry is left alone, so it is no rotation. However many sweeps are made, the
vectors at the end are an orthonormal basis, and what is still off the diagonal bounds how far they
are from being eigenvectors (`Similar.residual_le`).

* `similar_foldl` — rotations in any order keep the matrix similar.
* `exists_run` — the sweeps are rotations about the pairs of axes in turn.
* **`eigenPairs_exact`** — what holds after every rotation of every sweep, and of the pairs that are
  returned.
-/

namespace CodeAtlas.Navigator

open Arithmetic
open scoped Matrix

variable {n : ℕ} {m : Square ℝ n} {j : Jacobi ℝ n} {p q : Fin n}

/-! ## One rotation -/

/-- A matrix on its way is similar to the matrix at the start, by the rotations so far. -/
structure Similar (m : Square ℝ n) (j : Jacobi ℝ n) : Prop where
  /-- the rotations together are orthogonal -/
  orthogonal : j.vectors.toMatrix ∈ Matrix.orthogonalGroup (Fin n) ℝ
  /-- the matrix is symmetric -/
  symmetric : j.matrix.toMatrix.IsSymm
  /-- the matrix is what the rotations make of the one at the start -/
  similar : j.matrix.toMatrix = j.vectors.toMatrixᵀ * m.toMatrix * j.vectors.toMatrix

/-- What the rotation of two axes does to the entry at their crossing and to the sum of the squares
above the diagonal. An entry that is tiny is left alone. -/
structure Clears (j : Jacobi ℝ n) (axes : Fin n × Fin n) : Prop where
  /-- the entry becomes zero -/
  entry : tiny ≤ |j.matrix.toMatrix axes.1 axes.2| →
    (j.rotate axes).matrix.toMatrix axes.1 axes.2 = 0
  /-- the sum decreases by its square -/
  sum : tiny ≤ |j.matrix.toMatrix axes.1 axes.2| →
    (j.rotate axes).matrix.offDiagonal = j.matrix.offDiagonal - j.matrix.toMatrix axes.1 axes.2 ^ 2
  /-- or nothing changes at all -/
  spared : |j.matrix.toMatrix axes.1 axes.2| < tiny → j.rotate axes = j

/-- The rotation that clears the entry of two axes. -/
noncomputable def Jacobi.chosen (j : Jacobi ℝ n) (p q : Fin n) : Rotation ℝ :=
  Rotation.clearing (j.matrix.toMatrix p p) (j.matrix.toMatrix p q) (j.matrix.toMatrix q q)

/-- Its cosine and sine are those of an angle. -/
theorem Jacobi.chosen_unit (j : Jacobi ℝ n) (p q : Fin n) :
    (j.chosen p q).cosine * (j.chosen p q).cosine + (j.chosen p q).sine * (j.chosen p q).sine =
      1 := by
  rw [Jacobi.chosen]
  exact Rotation.clearing_unit _ _ _

/-- It clears the entry if there is anything to clear. -/
theorem Jacobi.chosen_clears (hpq : p ≠ q) (hsymm : j.matrix.toMatrix.IsSymm)
    (hentry : j.matrix.toMatrix p q ≠ 0) :
    (((j.chosen p q).plane p q)ᵀ * j.matrix.toMatrix * (j.chosen p q).plane p q) p q = 0 :=
  rotated_clearing hpq hsymm hentry

/-- A tiny entry is left alone. -/
theorem Jacobi.rotate_of_lt (h : |j.matrix.toMatrix p q| < tiny) : j.rotate (p, q) = j :=
  if_pos (decide_eq_true h)

/-- Any other entry is cleared by a rotation of the matrix and of the vectors. -/
theorem Jacobi.rotate_of_le (h : tiny ≤ |j.matrix.toMatrix p q|) :
    (j.rotate (p, q)).matrix.toMatrix =
        ((j.chosen p q).plane p q)ᵀ * j.matrix.toMatrix * (j.chosen p q).plane p q ∧
      (j.rotate (p, q)).vectors.toMatrix = j.vectors.toMatrix * (j.chosen p q).plane p q := by
  have hrotate : j.rotate (p, q) =
      ⟨(j.chosen p q).rotateRows p q ((j.chosen p q).rotateColumns p q j.matrix),
        (j.chosen p q).rotateColumns p q j.vectors⟩ :=
    if_neg fun hless => (of_decide_eq_true hless).not_ge h
  rw [hrotate]
  refine ⟨Rotation.toMatrix_rotate _ p q j.matrix, ?_⟩
  rw [Rotation.toMatrix_rotateColumns, Rotation.turn_eq_mul]

/-- **A rotation keeps the matrix similar** to the one at the start. -/
theorem Similar.rotate (h : Similar m j) (hpq : p ≠ q) : Similar m (j.rotate (p, q)) := by
  rcases lt_or_ge |j.matrix.toMatrix p q| tiny with htiny | hentry
  · rwa [Jacobi.rotate_of_lt htiny]
  · obtain ⟨hmatrix, hvectors⟩ := Jacobi.rotate_of_le hentry
    refine ⟨?_, ?_, ?_⟩
    · rw [hvectors]
      exact mul_mem h.orthogonal (Rotation.plane_mem_orthogonalGroup hpq (j.chosen_unit p q))
    · rw [hmatrix]
      exact isSymm_similar h.symmetric _
    · rw [hmatrix, hvectors, h.similar, Matrix.transpose_mul]
      simp only [mul_assoc]

/-- No entry that is cleared is zero already. -/
theorem tiny_pos : (0 : ℝ) < tiny := by
  change (0 : ℝ) < 1 / 2 ^ 1022
  positivity

/-- **A rotation clears its entry**, and the sum above the diagonal decreases by the square of it.
-/
theorem Similar.clears (h : Similar m j) (hpq : p ≠ q) : Clears j (p, q) := by
  have hzero (hentry : tiny ≤ |j.matrix.toMatrix p q|) :
      (((j.chosen p q).plane p q)ᵀ * j.matrix.toMatrix * (j.chosen p q).plane p q) p q = 0 :=
    Jacobi.chosen_clears hpq h.symmetric (abs_pos.mp (tiny_pos.trans_le hentry))
  refine ⟨fun hentry => ?_, fun hentry => ?_, Jacobi.rotate_of_lt⟩
  · obtain ⟨hmatrix, -⟩ := Jacobi.rotate_of_le hentry
    rw [hmatrix]
    exact hzero hentry
  · obtain ⟨hmatrix, -⟩ := Jacobi.rotate_of_le hentry
    rw [offDiagonal_eq, offDiagonal_eq, hmatrix]
    exact above_rotated hpq h.symmetric (j.chosen_unit p q) (hzero hentry)

/-! ## All rotations -/

/-- Before the first rotation the matrix is the one at the start. -/
theorem similar_start (hm : m.toMatrix.IsSymm) : Similar m (.start m) := by
  have hidentity : (Jacobi.start m).vectors.toMatrix = 1 := Square.toMatrix_identity
  refine ⟨?_, hm, ?_⟩
  · rw [hidentity]
    exact one_mem _
  · rw [hidentity, Matrix.transpose_one, one_mul, mul_one]
    rfl

/-- Rotations in any order keep the matrix similar to the one at the start. -/
theorem similar_foldl (hm : m.toMatrix.IsSymm) {done : List (Fin n × Fin n)}
    (hdone : ∀ axes ∈ done, axes.1 ≠ axes.2) : Similar m (done.foldl Jacobi.rotate (.start m)) := by
  induction done using List.reverseRecOn with
  | nil => exact similar_start hm
  | append_singleton done axes ih =>
    rw [List.forall_mem_append] at hdone
    rw [List.foldl_append, List.foldl_cons, List.foldl_nil]
    exact (ih hdone.1).rotate (hdone.2 axes List.mem_cons_self)

/-- The axes of the rotations of so many sweeps, in their order. -/
def turns (n sweeps : ℕ) : List (Fin n × Fin n) :=
  (List.replicate sweeps (Square.axisPairs n)).flatten

/-- In a sweep the smaller axis comes first. -/
theorem lt_of_mem_turns {sweeps : ℕ} {axes : Fin n × Fin n} (h : axes ∈ turns n sweeps) :
    axes.1 < axes.2 := by
  obtain ⟨pairs, hpairs, haxes⟩ := List.mem_flatten.mp h
  rw [List.eq_of_mem_replicate hpairs, Square.axisPairs] at haxes
  obtain ⟨p, -, haxes⟩ := List.mem_flatMap.mp haxes
  obtain ⟨q, hq, rfl⟩ := List.mem_map.mp haxes
  exact of_decide_eq_true (List.mem_filter.mp hq).2

/-- **The sweeps are rotations** about the pairs of axes in turn, whatever ends them. -/
theorem exists_run (bound : ℝ) (sweeps : ℕ) (j : Jacobi ℝ n) :
    ∃ made ≤ sweeps, Jacobi.run bound sweeps j = (turns n made).foldl Jacobi.rotate j := by
  induction sweeps generalizing j with
  | zero => exact ⟨0, le_rfl, rfl⟩
  | succ sweeps ih =>
    rw [Jacobi.run]
    split
    · exact ⟨0, Nat.zero_le _, rfl⟩
    · obtain ⟨made, hmade, hrun⟩ := ih j.sweep
      refine ⟨made + 1, Nat.succ_le_succ hmade, ?_⟩
      rw [hrun, turns, turns, List.replicate_succ, List.flatten_cons, List.foldl_append]
      rfl

/-! ## What is left off the diagonal -/

/-- The squares in one column off the diagonal are among those above the diagonal: the entries below
it stand above it in the row of the same place. -/
theorem sum_column_le_above {a : Matrix (Fin n) (Fin n) ℝ} (ha : a.IsSymm) (k : Fin n) :
    (∑ i, (if i = k then 0 else a i k) ^ 2) ≤ above a := by
  have hsquare (i l : Fin n) : 0 ≤ if i < l then a i l ^ 2 else 0 := by
    split_ifs
    · exact sq_nonneg _
    · exact le_rfl
  have hcolumn (i : Fin n) : (if i = k then 0 else a i k) ^ 2 =
      (if i < k then a i k ^ 2 else 0) + if k < i then a k i ^ 2 else 0 := by
    rcases lt_trichotomy i k with hik | rfl | hik
    · simp [hik, hik.not_gt, hik.ne]
    · simp
    · simp [hik, hik.not_gt, hik.ne', ha.apply i k]
  have hrow (i : Fin n) : ((if i < k then a i k ^ 2 else 0) +
      if i = k then ∑ l, (if k < l then a k l ^ 2 else 0) else 0) ≤
        ∑ l, if i < l then a i l ^ 2 else 0 := by
    by_cases hik : i = k
    · subst hik
      simp
    · rw [if_neg hik, add_zero]
      exact Finset.single_le_sum (fun l _ => hsquare i l) (Finset.mem_univ k)
  calc (∑ i, (if i = k then 0 else a i k) ^ 2)
      = (∑ i, if i < k then a i k ^ 2 else 0) + ∑ l, if k < l then a k l ^ 2 else 0 := by
        simp only [hcolumn, Finset.sum_add_distrib]
    _ = ∑ i, ((if i < k then a i k ^ 2 else 0) +
          if i = k then ∑ l, (if k < l then a k l ^ 2 else 0) else 0) := by
        simp only [Finset.sum_add_distrib, Finset.sum_ite_eq', Finset.mem_univ, if_true]
    _ ≤ above a := Finset.sum_le_sum fun i _ => hrow i

/-- An orthogonal matrix keeps the sum of the squares of a vector. -/
theorem sum_sq_mulVec {v : Matrix (Fin n) (Fin n) ℝ} (hv : v ∈ Matrix.orthogonalGroup (Fin n) ℝ)
    (y : Fin n → ℝ) : ∑ i, (v *ᵥ y) i ^ 2 = ∑ i, y i ^ 2 := by
  have hleft : vᵀ * v = 1 := (Matrix.mem_orthogonalGroup_iff' (Fin n) ℝ).mp hv
  calc ∑ i, (v *ᵥ y) i ^ 2
      = (v *ᵥ y) ⬝ᵥ (v *ᵥ y) := by simp only [dotProduct, sq]
    _ = y ⬝ᵥ ((vᵀ * v) *ᵥ y) := by
        rw [← Matrix.mulVec_mulVec, Matrix.dotProduct_mulVec, Matrix.dotProduct_mulVec,
          Matrix.vecMul_transpose, Matrix.dotProduct_mulVec]
    _ = ∑ i, y i ^ 2 := by rw [hleft, Matrix.one_mulVec]; simp only [dotProduct, sq]

/-- **How far a vector is from an eigenvector** is bounded by what is left off the diagonal. -/
theorem Similar.residual_le (h : Similar m j) (k : Fin n) :
    ∑ i, ((∑ l, m.toMatrix i l * j.vectors.toMatrix l k) -
      j.matrix.toMatrix k k * j.vectors.toMatrix i k) ^ 2 ≤ j.matrix.offDiagonal := by
  have hright : j.vectors.toMatrix * j.vectors.toMatrixᵀ = 1 :=
    (Matrix.mem_orthogonalGroup_iff (Fin n) ℝ).mp h.orthogonal
  have hmul : m.toMatrix * j.vectors.toMatrix = j.vectors.toMatrix * j.matrix.toMatrix := by
    rw [h.similar, ← mul_assoc, ← mul_assoc, hright, one_mul]
  have hentry (i : Fin n) : (∑ l, m.toMatrix i l * j.vectors.toMatrix l k) -
      j.matrix.toMatrix k k * j.vectors.toMatrix i k =
        (j.vectors.toMatrix *ᵥ fun l => if l = k then 0 else j.matrix.toMatrix l k) i := by
    have hcolumn : (∑ l, m.toMatrix i l * j.vectors.toMatrix l k) =
        ∑ l, j.vectors.toMatrix i l * j.matrix.toMatrix l k := congrFun (congrFun hmul i) k
    have hdiagonal : j.matrix.toMatrix k k * j.vectors.toMatrix i k =
        ∑ l, if l = k then j.vectors.toMatrix i l * j.matrix.toMatrix l k else 0 := by
      rw [Finset.sum_ite_eq' Finset.univ k, if_pos (Finset.mem_univ k), mul_comm]
    rw [hcolumn, hdiagonal, ← Finset.sum_sub_distrib, Matrix.mulVec, dotProduct]
    refine Finset.sum_congr rfl fun l _ => ?_
    split_ifs <;> simp
  simp only [hentry]
  rw [sum_sq_mulVec h.orthogonal, offDiagonal_eq]
  exact sum_column_le_above h.symmetric k

/-! ## The pairs that are returned -/

/-- Places are sorted by their keys in some order of all of them. -/
theorem exists_order (keys : Fin n → ℝ) :
    ∃ order : Equiv.Perm (Fin n),
      (List.finRange n).mergeSort (fun i k => decide (keys i ≤ keys k)) =
        (List.finRange n).map order ∧
        Monotone fun k => keys (order k) := by
  have hperm := List.mergeSort_perm (List.finRange n) fun i k => decide (keys i ≤ keys k)
  have hsorted :
      ((List.finRange n).mergeSort fun i k => decide (keys i ≤ keys k)).Pairwise fun i k =>
      decide (keys i ≤ keys k) = true :=
    List.pairwise_mergeSort
      (fun i k l hik hkl => decide_eq_true ((of_decide_eq_true hik).trans (of_decide_eq_true hkl)))
      (fun i k => by simpa using le_total (keys i) (keys k)) (List.finRange n)
  generalize (List.finRange n).mergeSort (fun i k => decide (keys i ≤ keys k)) =
    places at hperm hsorted
  have hlength : places.length = n := by rw [hperm.length_eq, List.length_finRange]
  have hnodup : places.Nodup := hperm.nodup_iff.mpr (List.nodup_finRange n)
  have hinjective : Function.Injective fun k : Fin n => places[k.val] := fun i k hik =>
    Fin.ext ((hnodup.getElem_inj_iff).mp hik)
  refine ⟨Equiv.ofBijective _ (Finite.injective_iff_bijective.mp hinjective), ?_, ?_⟩
  · refine List.ext_getElem (by rw [List.length_map, List.length_finRange, hlength]) fun i hi _ =>
      ?_
    simp
  · intro i k hik
    rcases hik.eq_or_lt with rfl | hlt
    · exact le_rfl
    · exact of_decide_eq_true (List.pairwise_iff_getElem.mp hsorted i k _ _ hlt)

/-- Numbers and vectors that pass for the eigenvalues and eigenvectors of a matrix, read off a
matrix on its way. -/
structure EigenBasis (m : Square ℝ n) (j : Jacobi ℝ n) (values : Fin n → ℝ)
    (vectors : Fin n → Vector ℝ n) : Prop where
  /-- the vectors, as the columns of a matrix, are an orthonormal basis -/
  orthonormal : (Matrix.of fun i k => (vectors k).get i) ∈ Matrix.orthogonalGroup (Fin n) ℝ
  /-- each vector is a column of the rotations, and its number stands on the diagonal at the same
  place -/
  paired : ∃ order : Equiv.Perm (Fin n), ∀ k, values k = j.matrix.toMatrix (order k) (order k) ∧
    ∀ i, (vectors k).get i = j.vectors.toMatrix i (order k)
  /-- the numbers ascend -/
  ascending : Monotone values
  /-- they miss the equation of eigenvectors by no more than what is left off the diagonal -/
  residual : ∀ k, ∑ i,
    ((∑ l, m.toMatrix i l * (vectors k).get l) - values k * (vectors k).get i) ^ 2 ≤
    j.matrix.offDiagonal

/-- A column of a square matrix. -/
theorem get_column (m : Square ℝ n) (i k : Fin n) :
    (m.map fun row => row.get k).get i = m.toMatrix i k :=
  Vector.getElem_map _ i.isLt

/-- The columns of a matrix on its way, in the order of the diagonal, pass for eigenvectors. -/
theorem Similar.eigenBasis (h : Similar m j) {order : Equiv.Perm (Fin n)}
    (horder : Monotone fun k => j.matrix.toMatrix (order k) (order k)) :
    EigenBasis m j (fun k => j.matrix.toMatrix (order k) (order k))
      (fun k => j.vectors.map fun row => row.get (order k)) := by
  refine ⟨?_, ⟨order, fun k => ⟨rfl, fun i => get_column j.vectors i (order k)⟩⟩, horder,
    fun k => ?_⟩
  · have hcolumns :
        (Matrix.of fun i k : Fin n => (j.vectors.map fun row => row.get (order k)).get i) =
          j.vectors.toMatrix.submatrix id order := by
      ext i k
      exact get_column j.vectors i (order k)
    rw [hcolumns, Matrix.mem_orthogonalGroup_iff', Matrix.transpose_submatrix,
      ← Matrix.submatrix_mul _ _ order id order Function.bijective_id,
      (Matrix.mem_orthogonalGroup_iff' (Fin n) ℝ).mp h.orthogonal, Matrix.submatrix_one_equiv]
  · simp only [get_column]
    exact h.residual_le (order k)

/-- The pairs are the entries of the diagonal, in ascending order, and the columns at the same
places. -/
theorem exists_eigenPairs (m : Square ℝ n) :
    ∃ order : Equiv.Perm (Fin n),
      eigenPairs m =
        (List.finRange n).map (fun k => ((diagonalize m).matrix.toMatrix (order k) (order k),
        (diagonalize m).vectors.map fun row => row.get (order k))) ∧
      Monotone fun k => (diagonalize m).matrix.toMatrix (order k) (order k) := by
  obtain ⟨order, hsort, horder⟩ := exists_order fun i => (diagonalize m).matrix.toMatrix i i
  refine ⟨order, ?_, horder⟩
  rw [eigenPairs, ← List.map_mergeSort (r := fun i k : Fin n => decide
    ((diagonalize m).matrix.toMatrix i i ≤ (diagonalize m).matrix.toMatrix k k)) fun i _ k _ => rfl,
    hsort, List.map_map]
  rfl

/-- **Rotations are exact similarities**: for a symmetric matrix, the sweeps make rotations about
the pairs of axes in turn. After each of them the vectors are orthogonal and the matrix is symmetric
and what they make of the matrix at the start; the entry at the crossing of the axes is zero, and
the sum of the squares above the diagonal has decreased by the square of that entry. So the vectors
that are returned are an orthonormal basis, each with its own entry of the diagonal in ascending
order, and they miss the equation of eigenvectors by no more than what is left above the diagonal.
-/
theorem eigenPairs_exact (m : Square ℝ n) (hm : m.toMatrix.IsSymm) :
    ∃ sweeps ≤ maxSweeps, diagonalize m = (turns n sweeps).foldl Jacobi.rotate (.start m) ∧
      (∀ done, done <+: turns n sweeps → Similar m (done.foldl Jacobi.rotate (.start m))) ∧
      (∀ done axes, done ++ [axes] <+: turns n sweeps →
        Clears (done.foldl Jacobi.rotate (.start m)) axes) ∧
      ∃ values vectors, eigenPairs m = (List.finRange n).map (fun k => (values k, vectors k)) ∧
        EigenBasis m (diagonalize m) values vectors := by
  have hsimilar {done : List (Fin n × Fin n)} {sweeps : ℕ} (hdone : done <+: turns n sweeps) :
      Similar m (done.foldl Jacobi.rotate (.start m)) :=
    similar_foldl hm fun axes haxes => (lt_of_mem_turns (hdone.subset haxes)).ne
  obtain ⟨sweeps, hsweeps, hrun⟩ := exists_run _ maxSweeps (Jacobi.start m)
  obtain ⟨order, hpairs, horder⟩ := exists_eigenPairs m
  have hexit : Similar m (diagonalize m) := by
    rw [diagonalize, hrun]
    exact hsimilar List.prefix_rfl
  refine ⟨sweeps, hsweeps, hrun, fun done => hsimilar, fun done axes hdone => ?_,
    _, _, hpairs, hexit.eigenBasis horder⟩
  have hbefore : done <+: turns n sweeps := (List.prefix_append done [axes]).trans hdone
  have haxes : axes ∈ turns n sweeps := hdone.subset (List.mem_append_right done List.mem_cons_self)
  exact (hsimilar hbefore).clears (lt_of_mem_turns haxes).ne

/-- The same of a matrix whose only entry above the diagonal is not tiny, so that it is rotated. -/
theorem eigenPairs_exact_rotated :
    let m : Square ℝ 2 := #v[#v[2, 1], #v[1, 2]]
    m.toMatrix.IsSymm ∧ tiny ≤ |m.toMatrix 0 1| ∧
      ∃ sweeps ≤ maxSweeps, diagonalize m = (turns 2 sweeps).foldl Jacobi.rotate (.start m) ∧
        (∀ done, done <+: turns 2 sweeps → Similar m (done.foldl Jacobi.rotate (.start m))) ∧
        (∀ done axes, done ++ [axes] <+: turns 2 sweeps →
          Clears (done.foldl Jacobi.rotate (.start m)) axes) ∧
        ∃ values vectors, eigenPairs m = (List.finRange 2).map (fun k => (values k, vectors k)) ∧
          EigenBasis m (diagonalize m) values vectors := by
  intro m
  have hm : m.toMatrix.IsSymm := by
    ext i k
    fin_cases i <;> fin_cases k <;> rfl
  have hentry : tiny ≤ |m.toMatrix 0 1| := by
    change (1 : ℝ) / 2 ^ 1022 ≤ |(1 : ℝ)|
    rw [abs_one]
    exact div_le_one_of_le₀ (one_le_pow₀ one_le_two) (by positivity)
  exact ⟨hm, hentry, eigenPairs_exact m hm⟩

end CodeAtlas.Navigator
