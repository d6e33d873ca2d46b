import GyroDelay.Proofs.Correlation.Overlap
import GyroDelay.Proofs.Outcome

/-!
# Calibration in exact arithmetic

The matrices of the normal equations are sums of outer products, so linear maps of the rows
come out of them (`toMatrix_crossMatrix_map`). The calibration exists exactly if the normal
matrix passes the relative test of its determinant (`IsRegular`, `isRegular_iff`), which
neither a change of frame nor a gain affects (`isRegular_conj`), and is then the solution of
the normal equations (`solveNormal_of_isRegular`).

* `solve_map`: the calibration of rows whose frames are changed with gains.
* `solve_image`: rows and their images under a linear map are calibrated by that map.
-/

namespace GyroDelay.Calibration

/-! ## The normal equations -/

theorem toMatrix_crossMatrix (xs ys : List (Vec3 ℝ)) :
    (crossMatrix xs ys).toMatrix =
      (List.zipWith (fun x y => Matrix.vecMulVec x.toFun y.toFun) xs ys).sum := by
  have hfold (l : List (Mat3 ℝ)) (m : Mat3 ℝ) :
      (l.foldl Mat3.add m).toMatrix = m.toMatrix + (l.map Mat3.toMatrix).sum := by
    induction l generalizing m with
    | nil => simp
    | cons n l ih => rw [List.foldl_cons, ih, Mat3.toMatrix_add, List.map_cons, List.sum_cons,
        add_assoc]
  rw [crossMatrix, hfold, Mat3.toMatrix_zero, zero_add, List.map_zipWith]
  simp only [Mat3.toMatrix_outer]

theorem toMatrix_crossMatrix_map (A B : Mat3 ℝ) (xs ys : List (Vec3 ℝ)) :
    (crossMatrix (xs.map A.apply) (ys.map B.apply)).toMatrix =
      A.toMatrix * (crossMatrix xs ys).toMatrix * B.toMatrix.transpose := by
  rw [toMatrix_crossMatrix, toMatrix_crossMatrix, List.zipWith_map]
  induction xs generalizing ys with
  | nil => simp
  | cons x xs ih =>
    cases ys with
    | nil => simp
    | cons y ys =>
      rw [List.zipWith_cons_cons, List.zipWith_cons_cons, List.sum_cons, List.sum_cons, ih,
        mul_add, add_mul, Mat3.toFun_apply, Mat3.toFun_apply, Matrix.mul_vecMulVec,
        Matrix.vecMulVec_mul, Matrix.vecMul_transpose]

/-- Whether the determinant of a normal matrix counts as different from zero. -/
def IsRegular (normal : Mat3 ℝ) : Prop :=
  1 / 1000000000000 * |(normal.trace / 3) ^ 3| < |normal.det|

theorem IsRegular.det_ne_zero {normal : Mat3 ℝ} (h : IsRegular normal) : normal.det ≠ 0 := by
  intro h0
  rw [IsRegular, h0, abs_zero] at h
  exact absurd h (not_lt.mpr (by positivity))

theorem solveNormal_real (normal cross : Mat3 ℝ) :
    solveNormal normal cross =
      if |normal.det| ≤
          1 / 1000000000000 * |normal.trace / 3 * (normal.trace / 3) * (normal.trace / 3)| then
        .error (.singularSystem normal.det)
      else match normal.inverse? with
        | none => .error (.singularSystem normal.det)
        | some inverse => .ok (inverse.mul cross).transpose := by
  simp only [solveNormal, Scalar.isFinite_real, Scalar.abs_real, Scalar.ofNat_real, Bool.not_true,
    Bool.false_or, decide_eq_true_eq, Nat.cast_ofNat, Nat.cast_one]
  congr 1
  cases normal.inverse? <;> rfl

/-- **The least-squares solution.** It solves the normal equations. -/
theorem solveNormal_of_isRegular {normal : Mat3 ℝ} (h : IsRegular normal) (cross : Mat3 ℝ) :
    ∃ m, solveNormal normal cross = .ok m ∧
      normal.toMatrix * m.toMatrix.transpose = cross.toMatrix := by
  obtain ⟨inverse, hinverse, hmatrix⟩ := Mat3.inverse?_of_det_ne_zero h.det_ne_zero
  have hunit : IsUnit normal.toMatrix.det := by
    rw [Mat3.det_toMatrix]
    exact h.det_ne_zero.isUnit
  refine ⟨(inverse.mul cross).transpose, ?_, ?_⟩
  · rw [solveNormal_real, if_neg (by rw [not_le, ← pow_three']; exact h), hinverse]
  · rw [Mat3.toMatrix_transpose, Matrix.transpose_transpose, Mat3.toMatrix_mul, hmatrix,
      Matrix.mul_nonsing_inv_cancel_left _ _ hunit]

/-- The solution of the normal equations is the only one. -/
theorem solveNormal_eq_ok {normal cross m : Mat3 ℝ} (h : IsRegular normal)
    (hm : normal.toMatrix * m.toMatrix.transpose = cross.toMatrix) :
    solveNormal normal cross = .ok m := by
  obtain ⟨n, hn, hsolves⟩ := solveNormal_of_isRegular h cross
  have hunit : IsUnit normal.toMatrix := by
    rw [Matrix.isUnit_iff_isUnit_det, Mat3.det_toMatrix]
    exact h.det_ne_zero.isUnit
  have htranspose := hunit.mul_left_cancel (hsolves.trans hm.symm)
  have hmatrix := Matrix.transpose_injective htranspose
  rw [hn, Mat3.toMatrix_injective hmatrix]

theorem solveNormal_of_not_isRegular {normal : Mat3 ℝ} (h : ¬ IsRegular normal) (cross : Mat3 ℝ) :
    solveNormal normal cross = .error (.singularSystem normal.det) := by
  rw [solveNormal_real, if_pos (by rw [← not_lt, ← pow_three']; exact h)]

/-- The calibration exists exactly for regular normal matrices, whatever the second stream. -/
theorem isRegular_iff (normal cross : Mat3 ℝ) :
    IsRegular normal ↔ ∃ m, solveNormal normal cross = .ok m := by
  constructor
  · intro h
    obtain ⟨m, hm, -⟩ := solveNormal_of_isRegular h cross
    exact ⟨m, hm⟩
  · rintro ⟨m, hm⟩
    by_contra h
    rw [solveNormal_of_not_isRegular h] at hm
    cases hm

/-! ## Frames and gains -/

theorem toMatrix_crossMatrix_scale (Q R : Mat3 ℝ) (a b : ℝ) (xs ys : List (Vec3 ℝ)) :
    (crossMatrix (xs.map (Q.scale a).apply) (ys.map (R.scale b).apply)).toMatrix =
      (a * b) • (Q.toMatrix * (crossMatrix xs ys).toMatrix * R.toMatrix.transpose) := by
  rw [toMatrix_crossMatrix_map, Mat3.toMatrix_scale, Mat3.toMatrix_scale, Matrix.transpose_smul,
    Matrix.smul_mul, Matrix.smul_mul, Matrix.mul_smul, smul_smul]

/-- A calibration between rows that are seen in other frames with other gains. -/
noncomputable def turn (Q R : Mat3 ℝ) (a b : ℝ) (m : Mat3 ℝ) : Mat3 ℝ :=
  ((R.mul m).mul Q.transpose).scale (b / a)

section Frames

variable {Q R : Mat3 ℝ} (hQ : Q.IsOrthogonal) {a b : ℝ} (ha : 0 < a)

include hQ ha

/-- The test of the determinant depends neither on the frame nor on the gain. -/
theorem isRegular_conj {N N' : Mat3 ℝ}
    (h : N'.toMatrix = (a * a) • (Q.toMatrix * N.toMatrix * Q.toMatrix.transpose)) :
    IsRegular N' ↔ IsRegular N := by
  have hdet : N'.det = (a ^ 2) ^ 3 * N.det := by
    rw [← Mat3.det_toMatrix, h, Matrix.det_smul, Matrix.det_mul, Matrix.det_mul,
      Matrix.det_transpose, Mat3.det_toMatrix, Mat3.det_toMatrix, Fintype.card_fin]
    linear_combination (a * a) ^ 3 * N.det * hQ.det_sq
  have htrace : N'.trace = a ^ 2 * N.trace := by
    rw [← Mat3.trace_toMatrix, h, Matrix.trace_smul, Matrix.trace_mul_comm, ← Matrix.mul_assoc,
      hQ.transpose_mul, Matrix.one_mul, Mat3.trace_toMatrix, smul_eq_mul, sq]
  have hpos : 0 < (a ^ 2) ^ 3 := by positivity
  have hscale : (a ^ 2 * N.trace / 3) ^ 3 = (a ^ 2) ^ 3 * (N.trace / 3) ^ 3 := by ring
  rw [IsRegular, IsRegular, hdet, htrace, hscale, abs_mul, abs_mul, abs_of_pos hpos,
    mul_left_comm, mul_lt_mul_iff_right₀ hpos]

/-- **Frames and gains.** The calibration of rows whose frames are changed with gains follows
from the calibration of the rows. -/
theorem solve_map (b : ℝ) (xs ys : List (Vec3 ℝ)) :
    Agrees (fun m m' => m' = turn Q R a b m) (solve xs ys)
      (solve (xs.map (Q.scale a).apply) (ys.map (R.scale b).apply)) := by
  rw [solve, solve, List.length_map, List.length_map]
  split
  · exact Agrees.error rfl
  split
  · exact Agrees.error rfl
  have hnormal := toMatrix_crossMatrix_scale Q Q a a xs xs
  have hcross := toMatrix_crossMatrix_scale Q R a b xs ys
  have hiff := isRegular_conj hQ ha hnormal
  by_cases h : IsRegular (crossMatrix xs xs)
  · obtain ⟨m, hm, hsolves⟩ := solveNormal_of_isRegular h (crossMatrix xs ys)
    rw [hm, solveNormal_eq_ok (hiff.mpr h)]
    · exact Agrees.ok rfl
    · rw [hnormal, hcross, turn, Mat3.toMatrix_scale, Mat3.toMatrix_mul, Mat3.toMatrix_mul,
        Mat3.toMatrix_transpose, ← hsolves, Matrix.transpose_smul, Matrix.transpose_mul,
        Matrix.transpose_mul, Matrix.transpose_transpose, Matrix.smul_mul, Matrix.mul_smul,
        smul_smul]
      have hgain : a * a * (b / a) = a * b := by field_simp
      -- the two changes of frame between the normal matrix and the calibration cancel
      rw [hgain, Matrix.mul_assoc _ Q.toMatrix.transpose, ← Matrix.mul_assoc Q.toMatrix.transpose,
        hQ.transpose_mul, Matrix.one_mul]
      simp only [Matrix.mul_assoc]
  · rw [solveNormal_of_not_isRegular h, solveNormal_of_not_isRegular (mt hiff.mp h)]
    exact Agrees.error rfl

/-- The turned calibration undoes the first change of frame. -/
theorem turn_apply (R : Mat3 ℝ) (b : ℝ) (m : Mat3 ℝ) (v : Vec3 ℝ) :
    (turn Q R a b m).apply ((Q.scale a).apply v) = (R.scale b).apply (m.apply v) := by
  rw [Vec3.apply_mul, Vec3.apply_mul]
  congr 1
  apply Mat3.toMatrix_injective
  rw [turn, Mat3.toMatrix_mul, Mat3.toMatrix_scale, Mat3.toMatrix_mul, Mat3.toMatrix_mul,
    Mat3.toMatrix_transpose, Mat3.toMatrix_scale, Mat3.toMatrix_mul, Mat3.toMatrix_scale,
    Matrix.smul_mul, Matrix.mul_smul, Matrix.mul_assoc _ Q.toMatrix.transpose, hQ.transpose_mul,
    Matrix.mul_one, smul_smul, Matrix.smul_mul, div_mul_cancel₀ b ha.ne']

end Frames

/-- **Exact calibration.** Rows and their images under a linear map are calibrated by it. -/
theorem solve_image {xs : List (Vec3 ℝ)} (h3 : 3 ≤ xs.length)
    (h : IsRegular (crossMatrix xs xs)) (m : Mat3 ℝ) : solve xs (xs.map m.apply) = .ok m := by
  have hcross : (crossMatrix xs (xs.map m.apply)).toMatrix =
      (crossMatrix xs xs).toMatrix * m.toMatrix.transpose := by
    have hmap := toMatrix_crossMatrix_map Mat3.identity m xs xs
    have hself : xs.map Mat3.identity.apply = xs := List.map_id'' Vec3.apply_identity xs
    rw [Mat3.toMatrix_identity, Matrix.one_mul, hself] at hmap
    exact hmap
  rw [solve, if_neg (by simp), if_neg (by rw [leastRows]; omega)]
  exact solveNormal_eq_ok h hcross.symm

end GyroDelay.Calibration
