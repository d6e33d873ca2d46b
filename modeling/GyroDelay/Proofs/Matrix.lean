import Mathlib.LinearAlgebra.Matrix.NonsingularInverse
import Mathlib.LinearAlgebra.Matrix.Trace
import Mathlib.Tactic.FieldSimp
import Mathlib.Tactic.FinCases
import Mathlib.Tactic.LinearCombination
import GyroDelay.Linear
import GyroDelay.Proofs.Exact

/-!
# Vectors and matrices over the reals

In exact arithmetic the vectors and matrices of three coordinates are those of linear
algebra. `Mat3.toMatrix` carries every operation over, so identities between matrices are
proved there and read back by `Mat3.toMatrix_injective`.

* `Mat3.inverse?_of_det_ne_zero`: the inverse by cofactors is the inverse of the matrix.
* `Mat3.IsOrthogonal`: changes of frame, which keep the length of every vector
  (`Vec3.norm_apply_of_orthogonal`).
-/

namespace GyroDelay

attribute [ext] Vec3 Mat3 Rect

/-! ## Vectors -/

namespace Vec3

/-- The coordinates as a function of their place. -/
def toFun (v : Vec3 ℝ) : Fin 3 → ℝ := ![v.x, v.y, v.z]

theorem toFun_injective : Function.Injective toFun := by
  intro v w h
  have hx := congrFun h 0
  have hy := congrFun h 1
  have hz := congrFun h 2
  exact Vec3.ext hx hy hz

theorem dot_real (v w : Vec3 ℝ) : v.dot w = v.x * w.x + v.y * w.y + v.z * w.z := rfl

theorem add_real (v w : Vec3 ℝ) : v.add w = ⟨v.x + w.x, v.y + w.y, v.z + w.z⟩ := rfl

theorem scale_real (c : ℝ) (v : Vec3 ℝ) : v.scale c = ⟨c * v.x, c * v.y, c * v.z⟩ := rfl

theorem zero_real : (zero : Vec3 ℝ) = ⟨0, 0, 0⟩ := by
  simp only [zero, Scalar.zero_real]

theorem norm_real (v : Vec3 ℝ) : v.norm = √(v.dot v) := by
  have h : v.norm = √(Scalar.zero + v.x * v.x + v.y * v.y + v.z * v.z) := rfl
  rw [h, Scalar.zero_real, zero_add, dot_real]

theorem dot_self_nonneg (v : Vec3 ℝ) : 0 ≤ v.dot v := by
  rw [dot_real]
  nlinarith [mul_self_nonneg v.x, mul_self_nonneg v.y, mul_self_nonneg v.z]

theorem norm_zero : (zero : Vec3 ℝ).norm = 0 := by
  rw [norm_real, zero_real, dot_real]
  simp

/-- Only the zero vector has no length. -/
theorem norm_eq_zero_iff {v : Vec3 ℝ} : v.norm = 0 ↔ v = zero := by
  constructor
  · intro h
    rw [norm_real, Real.sqrt_eq_zero (dot_self_nonneg v), dot_real] at h
    have hx := mul_self_nonneg v.x
    have hy := mul_self_nonneg v.y
    have hz := mul_self_nonneg v.z
    rw [zero_real]
    ext
    · exact mul_self_eq_zero.mp (by linarith)
    · exact mul_self_eq_zero.mp (by linarith)
    · exact mul_self_eq_zero.mp (by linarith)
  · rintro rfl
    exact norm_zero

theorem norm_scale {c : ℝ} (hc : 0 ≤ c) (v : Vec3 ℝ) : (v.scale c).norm = c * v.norm := by
  have h : (v.scale c).dot (v.scale c) = c ^ 2 * v.dot v := by
    rw [dot_real, dot_real, scale_real]
    ring
  rw [norm_real, norm_real, h, Real.sqrt_mul (sq_nonneg c), Real.sqrt_sq hc]

end Vec3

/-! ## Matrices -/

namespace Mat3

/-- The entries as a function of row and column. -/
def toMatrix (m : Mat3 ℝ) : Matrix (Fin 3) (Fin 3) ℝ :=
  !![m.row1.x, m.row1.y, m.row1.z; m.row2.x, m.row2.y, m.row2.z; m.row3.x, m.row3.y, m.row3.z]

theorem toMatrix_injective : Function.Injective toMatrix := by
  intro m n h
  have entry (i j : Fin 3) : m.toMatrix i j = n.toMatrix i j := congrFun (congrFun h i) j
  ext
  · exact entry 0 0
  · exact entry 0 1
  · exact entry 0 2
  · exact entry 1 0
  · exact entry 1 1
  · exact entry 1 2
  · exact entry 2 0
  · exact entry 2 1
  · exact entry 2 2

/-- A matrix times a number. -/
noncomputable def scale (c : ℝ) (m : Mat3 ℝ) : Mat3 ℝ :=
  ⟨m.row1.scale c, m.row2.scale c, m.row3.scale c⟩

/-- A change of frame: the rows are perpendicular to each other and have length one. -/
def IsOrthogonal (m : Mat3 ℝ) : Prop := m.mul m.transpose = identity

theorem toMatrix_zero : (zero : Mat3 ℝ).toMatrix = 0 := by
  ext i j
  fin_cases i <;> fin_cases j <;> simp [toMatrix, zero, Vec3.zero_real]

theorem toMatrix_identity : (identity : Mat3 ℝ).toMatrix = 1 := by
  ext i j
  fin_cases i <;> fin_cases j <;> simp [toMatrix, identity]

theorem toMatrix_add (m n : Mat3 ℝ) : (m.add n).toMatrix = m.toMatrix + n.toMatrix := by
  ext i j
  fin_cases i <;> fin_cases j <;> simp [toMatrix, add, Vec3.add_real]

theorem toMatrix_scale (c : ℝ) (m : Mat3 ℝ) : (m.scale c).toMatrix = c • m.toMatrix := by
  ext i j
  fin_cases i <;> fin_cases j <;> simp [toMatrix, scale, Vec3.scale_real]

theorem toMatrix_outer (v w : Vec3 ℝ) :
    (outer v w).toMatrix = Matrix.vecMulVec v.toFun w.toFun := by
  ext i j
  fin_cases i <;> fin_cases j <;>
    simp [toMatrix, outer, Vec3.scale_real, Vec3.toFun, Matrix.vecMulVec_apply]

theorem toMatrix_transpose (m : Mat3 ℝ) : m.transpose.toMatrix = m.toMatrix.transpose := by
  ext i j
  fin_cases i <;> fin_cases j <;> rfl

theorem toFun_apply (m : Mat3 ℝ) (v : Vec3 ℝ) :
    (m.apply v).toFun = m.toMatrix.mulVec v.toFun := by
  ext i
  fin_cases i <;>
    simp [toMatrix, apply, Vec3.dot_real, Vec3.toFun, Matrix.mulVec, dotProduct,
      Fin.sum_univ_three]

theorem toMatrix_mul (m n : Mat3 ℝ) : (m.mul n).toMatrix = m.toMatrix * n.toMatrix := by
  ext i j
  fin_cases i <;> fin_cases j <;>
    simp [toMatrix, mul, apply, transpose, Vec3.dot_real, Matrix.mul_apply,
      Fin.sum_univ_three, mul_comm]

theorem trace_toMatrix (m : Mat3 ℝ) : m.toMatrix.trace = m.trace := by
  have h : m.trace = m.row1.x + m.row2.y + m.row3.z := rfl
  rw [h, Matrix.trace_fin_three]
  simp [toMatrix]

theorem det_real (m : Mat3 ℝ) :
    m.det = m.row1.x * (m.row2.y * m.row3.z - m.row3.y * m.row2.z)
      - m.row1.y * (m.row2.x * m.row3.z - m.row3.x * m.row2.z)
      + m.row1.z * (m.row2.x * m.row3.y - m.row3.x * m.row2.y) := rfl

theorem det_toMatrix (m : Mat3 ℝ) : m.toMatrix.det = m.det := by
  rw [det_real, Matrix.det_fin_three]
  simp [toMatrix]
  ring

/-! ## The inverse -/

/-- A matrix whose determinant is not zero has its inverse by cofactors. -/
theorem inverse?_of_det_ne_zero {m : Mat3 ℝ} (h : m.det ≠ 0) :
    ∃ n, m.inverse? = some n ∧ n.toMatrix = (m.toMatrix)⁻¹ := by
  have hne : ¬ (m.det == Scalar.zero) = true := by simpa using h
  refine ⟨_, if_neg hne, ?_⟩
  symm
  apply Matrix.inv_eq_right_inv
  -- each entry of the product is the determinant, expanded along a row, over itself
  have hd := det_real m
  ext i j
  fin_cases i <;> fin_cases j <;>
    (simp only [toMatrix, Matrix.mul_apply, Fin.sum_univ_three]
     simp
     field_simp
     rw [hd]
     ring)

/-! ## Changes of frame -/

namespace IsOrthogonal

variable {m : Mat3 ℝ}

theorem mul_transpose (h : m.IsOrthogonal) : m.toMatrix * m.toMatrix.transpose = 1 := by
  rw [← toMatrix_transpose, ← toMatrix_mul, h, toMatrix_identity]

theorem transpose_mul (h : m.IsOrthogonal) : m.toMatrix.transpose * m.toMatrix = 1 :=
  mul_eq_one_comm.mp h.mul_transpose

theorem det_sq (h : m.IsOrthogonal) : m.det ^ 2 = 1 := by
  have hdet := congrArg Matrix.det h.mul_transpose
  rw [Matrix.det_mul, Matrix.det_transpose, Matrix.det_one, det_toMatrix] at hdet
  rw [sq, hdet]

end IsOrthogonal

end Mat3

namespace Vec3

theorem dot_eq_dotProduct (v w : Vec3 ℝ) : v.dot w = v.toFun ⬝ᵥ w.toFun := by
  simp [dot_real, toFun, dotProduct, Fin.sum_univ_three]

/-- A change of frame keeps every length. -/
theorem norm_apply_of_orthogonal {m : Mat3 ℝ} (h : m.IsOrthogonal) (v : Vec3 ℝ) :
    (m.apply v).norm = v.norm := by
  have hdot : (m.apply v).dot (m.apply v) = v.dot v := by
    rw [dot_eq_dotProduct, dot_eq_dotProduct, Mat3.toFun_apply, Matrix.dotProduct_mulVec,
      Matrix.vecMul_mulVec, h.transpose_mul, Matrix.vecMul_one]
  rw [norm_real, norm_real, hdot]

theorem norm_scale_apply {m : Mat3 ℝ} (h : m.IsOrthogonal) {c : ℝ} (hc : 0 ≤ c) (v : Vec3 ℝ) :
    ((m.apply v).scale c).norm = c * v.norm := by
  rw [norm_scale hc, norm_apply_of_orthogonal h]

theorem apply_scale (m : Mat3 ℝ) (c : ℝ) (v : Vec3 ℝ) :
    (m.apply v).scale c = (m.scale c).apply v := by
  simp only [Mat3.apply, Mat3.scale, scale_real, dot_real, Vec3.mk.injEq]
  refine ⟨?_, ?_, ?_⟩ <;> ring

theorem apply_identity (v : Vec3 ℝ) : Mat3.identity.apply v = v := by
  apply toFun_injective
  rw [Mat3.toFun_apply, Mat3.toMatrix_identity, Matrix.one_mulVec]

theorem apply_mul (m n : Mat3 ℝ) (v : Vec3 ℝ) : m.apply (n.apply v) = (m.mul n).apply v := by
  apply toFun_injective
  rw [Mat3.toFun_apply, Mat3.toFun_apply, Mat3.toFun_apply, Mat3.toMatrix_mul,
    Matrix.mulVec_mulVec]

end Vec3

end GyroDelay
