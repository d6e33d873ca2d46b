import Mathlib.Algebra.Order.Star.Real
import Mathlib.LinearAlgebra.Matrix.PosDef
import GyroDelay.Proofs.Calibration

/-!
# Calibration by least squares

The rows of a stream are the rows of a matrix (`dataMatrix`), so the normal equations of a
calibration are those of linear algebra (`transpose_mul_dataMatrix`). What a solution leaves over
is perpendicular to the first stream. Any other linear map therefore adds the squares of the
images of its difference to the squared error (`squaredError_eq_add`), and these vanish only if
there is no difference.

* `solve_isLeastSquares`: the calibration fails exactly for a normal matrix whose determinant is
  small in proportion, and is otherwise the only solution of the normal equations and the only
  linear map of least squared error.
-/

namespace GyroDelay.Calibration

open Matrix

/-! ## Rows as matrices -/

/-- The first `n` rows of a stream, with zero rows for those that it has not. -/
noncomputable def dataMatrix (n : ℕ) (xs : List (Vec3 ℝ)) : Matrix (Fin n) (Fin 3) ℝ :=
  Matrix.of fun i => (xs.getD i Vec3.zero).toFun

theorem dataMatrix_row (n : ℕ) (xs : List (Vec3 ℝ)) (i : Fin n) (j : Fin 3) :
    dataMatrix n xs i j = (xs.getD i Vec3.zero).toFun j := rfl

theorem transpose_mul_dataMatrix {n : ℕ} {xs ys : List (Vec3 ℝ)} (hx : xs.length = n)
    (hy : ys.length = n) :
    (dataMatrix n xs)ᵀ * dataMatrix n ys = (crossMatrix xs ys).toMatrix := by
  rw [toMatrix_crossMatrix]
  induction n generalizing xs ys with
  | zero =>
    obtain rfl := List.length_eq_zero_iff.mp hx
    ext i j
    simp [Matrix.mul_apply]
  | succ n ih =>
    obtain ⟨x, xs, rfl⟩ := List.exists_cons_of_length_eq_add_one hx
    obtain ⟨y, ys, rfl⟩ := List.exists_cons_of_length_eq_add_one hy
    rw [List.zipWith_cons_cons, List.sum_cons, ← ih (by simpa using hx) (by simpa using hy)]
    ext i j
    rw [Matrix.add_apply, Matrix.mul_apply, Matrix.mul_apply, Fin.sum_univ_succ,
      Matrix.vecMulVec_apply]
    rfl

/-! ## What a linear map leaves over -/

/-- What is left of the second row when the image of the first one is taken away. -/
noncomputable def residual (m : Mat3 ℝ) (x y : Vec3 ℝ) : Vec3 ℝ :=
  y.add ((m.apply x).scale (-1))

/-- The sum of the squared lengths of what a linear map leaves over. -/
noncomputable def squaredError (m : Mat3 ℝ) (xs ys : List (Vec3 ℝ)) : ℝ :=
  (List.zipWith (fun x y => (residual m x y).dot (residual m x y)) xs ys).sum

theorem toFun_residual (m : Mat3 ℝ) (x y : Vec3 ℝ) :
    (residual m x y).toFun = y.toFun - m.toMatrix.mulVec x.toFun := by
  rw [← Mat3.toFun_apply]
  ext i
  fin_cases i <;> simp [residual, Vec3.add_real, Vec3.scale_real, Vec3.toFun, sub_eq_add_neg]

theorem dataMatrix_residual {n : ℕ} {xs ys : List (Vec3 ℝ)} (hx : xs.length = n)
    (hy : ys.length = n) (m : Mat3 ℝ) :
    dataMatrix n (List.zipWith (residual m) xs ys) =
      dataMatrix n ys - dataMatrix n xs * m.toMatrixᵀ := by
  ext i j
  have hxi : (i : ℕ) < xs.length := by omega
  have hyi : (i : ℕ) < ys.length := by omega
  have hrow : (List.zipWith (residual m) xs ys).getD i Vec3.zero =
      residual m (xs.getD i Vec3.zero) (ys.getD i Vec3.zero) := by
    simp [List.getD_eq_getElem?_getD, hxi, hyi]
  rw [dataMatrix_row, hrow, toFun_residual, Matrix.sub_apply, Matrix.mul_apply, Pi.sub_apply,
    Matrix.mulVec, dotProduct]
  congr 1
  exact Finset.sum_congr rfl fun k _ => mul_comm _ _

theorem squaredError_eq_trace {n : ℕ} {xs ys : List (Vec3 ℝ)} (hx : xs.length = n)
    (hy : ys.length = n) (m : Mat3 ℝ) :
    squaredError m xs ys =
      ((dataMatrix n ys - dataMatrix n xs * m.toMatrixᵀ)ᵀ *
        (dataMatrix n ys - dataMatrix n xs * m.toMatrixᵀ)).trace := by
  have hlen : (List.zipWith (residual m) xs ys).length = n := by
    rw [List.length_zipWith, hx, hy, min_self]
  rw [← dataMatrix_residual hx hy, transpose_mul_dataMatrix hlen hlen, toMatrix_crossMatrix,
    ← Matrix.traceAddMonoidHom_apply, map_list_sum, squaredError, List.zipWith_self, List.map_map,
    List.map_zipWith]
  congr 2
  funext x y
  rw [Function.comp_apply, Matrix.traceAddMonoidHom_apply, Matrix.trace_vecMulVec,
    Vec3.dot_eq_dotProduct]

/-! ## The least squared error -/

theorem trace_transpose_mul_self_nonneg {n : ℕ} (d : Matrix (Fin n) (Fin 3) ℝ) :
    0 ≤ (dᵀ * d).trace := by
  rw [← Matrix.conjTranspose_eq_transpose_of_trivial]
  exact (Matrix.posSemidef_conjTranspose_mul_self d).trace_nonneg

theorem trace_crossMatrix_nonneg (xs : List (Vec3 ℝ)) : 0 ≤ (crossMatrix xs xs).trace := by
  rw [← Mat3.trace_toMatrix, ← transpose_mul_dataMatrix rfl rfl]
  exact trace_transpose_mul_self_nonneg _

section Solution

variable {n : ℕ} {xs ys : List (Vec3 ℝ)} (hx : xs.length = n) (hy : ys.length = n) {m : Mat3 ℝ}
  (hm : (crossMatrix xs xs).toMatrix * m.toMatrixᵀ = (crossMatrix xs ys).toMatrix)

include hx hy hm

/-- Another linear map than a solution adds the squares of the images of the difference. -/
theorem squaredError_eq_add (m' : Mat3 ℝ) :
    squaredError m' xs ys = squaredError m xs ys +
      ((dataMatrix n xs * (m.toMatrix - m'.toMatrix)ᵀ)ᵀ *
        (dataMatrix n xs * (m.toMatrix - m'.toMatrix)ᵀ)).trace := by
  rw [squaredError_eq_trace hx hy, squaredError_eq_trace hx hy]
  set x := dataMatrix n xs with hxs
  set r := dataMatrix n ys - x * m.toMatrixᵀ with hr
  set d := (m.toMatrix - m'.toMatrix)ᵀ with hd
  -- the rest is perpendicular to the first stream
  have hrest : xᵀ * r = 0 := by
    rw [hr, Matrix.mul_sub, ← Matrix.mul_assoc, hxs, transpose_mul_dataMatrix hx hx,
      transpose_mul_dataMatrix hx hy, hm, sub_self]
  have hsplit : dataMatrix n ys - x * m'.toMatrixᵀ = r + x * d := by
    rw [hr, hd, Matrix.transpose_sub, Matrix.mul_sub]
    abel
  have hright : (x * d)ᵀ * r = 0 := by
    rw [Matrix.transpose_mul, Matrix.mul_assoc, hrest, Matrix.mul_zero]
  have hleft : rᵀ * (x * d) = 0 := by
    rw [← Matrix.transpose_transpose (rᵀ * (x * d)), Matrix.transpose_mul,
      Matrix.transpose_transpose, hright, Matrix.transpose_zero]
  rw [hsplit, Matrix.transpose_add, Matrix.add_mul, Matrix.mul_add, Matrix.mul_add, hleft, hright,
    add_zero, zero_add, Matrix.trace_add]

theorem squaredError_lt (hregular : IsRegular (crossMatrix xs xs)) {m' : Mat3 ℝ} (hne : m' ≠ m) :
    squaredError m xs ys < squaredError m' xs ys := by
  rw [squaredError_eq_add hx hy hm m']
  set d := dataMatrix n xs * (m.toMatrix - m'.toMatrix)ᵀ with hd
  have hnonneg := trace_transpose_mul_self_nonneg d
  refine lt_add_of_pos_right _ (lt_of_le_of_ne hnonneg fun hzero => hne ?_)
  -- no image of the difference is left, and the rows of the first stream span the space
  rw [← Matrix.conjTranspose_eq_transpose_of_trivial, eq_comm,
    Matrix.trace_conjTranspose_mul_self_eq_zero_iff] at hzero
  have hnormal : (crossMatrix xs xs).toMatrix * (m.toMatrix - m'.toMatrix)ᵀ = 0 := by
    rw [← transpose_mul_dataMatrix hx hx, Matrix.mul_assoc, ← hd, hzero, Matrix.mul_zero]
  have hunit : IsUnit (crossMatrix xs xs).toMatrix := by
    rw [Matrix.isUnit_iff_isUnit_det, Mat3.det_toMatrix]
    exact hregular.det_ne_zero.isUnit
  have hdifference := hunit.mul_right_eq_zero.mp hnormal
  rw [Matrix.transpose_eq_zero, sub_eq_zero] at hdifference
  exact Mat3.toMatrix_injective hdifference.symm

end Solution

/-! ## The calibration -/

/-- The only solution of the normal equations, and the only linear map of least squared error. -/
structure IsLeastSquares (xs ys : List (Vec3 ℝ)) (m : Mat3 ℝ) : Prop where
  solves_iff (m' : Mat3 ℝ) :
    (dataMatrix xs.length xs)ᵀ * dataMatrix xs.length xs * m'.toMatrixᵀ =
      (dataMatrix xs.length xs)ᵀ * dataMatrix xs.length ys ↔ m' = m
  lt_of_ne (m' : Mat3 ℝ) : m' ≠ m → squaredError m xs ys < squaredError m' xs ys

/-- The determinant of a normal matrix is small in proportion to its mean diagonal entry. -/
theorem not_isRegular_iff (xs : List (Vec3 ℝ)) :
    ¬ IsRegular (crossMatrix xs xs) ↔
      |((dataMatrix xs.length xs)ᵀ * dataMatrix xs.length xs).det| ≤
        1 / 1000000000000 *
          (((dataMatrix xs.length xs)ᵀ * dataMatrix xs.length xs).trace / 3) ^ 3 := by
  have hmean : 0 ≤ ((crossMatrix xs xs).trace / 3) ^ 3 :=
    pow_nonneg (div_nonneg (trace_crossMatrix_nonneg xs) zero_le_three) 3
  rw [transpose_mul_dataMatrix rfl rfl, Mat3.det_toMatrix, Mat3.trace_toMatrix, IsRegular, not_lt,
    abs_of_nonneg hmean]

theorem solve_eq_solveNormal {xs ys : List (Vec3 ℝ)} (hlen : xs.length = ys.length)
    (h3 : 3 ≤ xs.length) :
    solve xs ys = solveNormal (crossMatrix xs xs) (crossMatrix xs ys) := by
  rw [solve, if_neg (not_not_intro hlen), leastRows, if_neg (not_lt.mpr h3)]

/-- **Least squares.** The calibration of equally many rows, at least three, fails exactly if the
determinant of the normal matrix is tiny in proportion to its mean diagonal entry cubed, never
because an inverse is missing. It is otherwise the linear map of least squared error, and any
linear map is found again from the rows and their images. -/
theorem solve_isLeastSquares {xs ys : List (Vec3 ℝ)} (hlen : xs.length = ys.length)
    (h3 : 3 ≤ xs.length) :
    let normal := (dataMatrix xs.length xs)ᵀ * dataMatrix xs.length xs
    let isSingular := |normal.det| ≤ 1 / 1000000000000 * (normal.trace / 3) ^ 3
    (isSingular → solve xs ys = .error (.singularSystem normal.det)) ∧
      (¬ isSingular → (crossMatrix xs xs).inverse? ≠ none ∧
        (∃ m, solve xs ys = .ok m ∧ IsLeastSquares xs ys m) ∧
        ∀ a : Mat3 ℝ, solve xs (apply a xs) = .ok a) := by
  intro normal isSingular
  have hsingular : isSingular ↔ ¬ IsRegular (crossMatrix xs xs) := (not_isRegular_iff xs).symm
  have hnormal : normal = (crossMatrix xs xs).toMatrix := transpose_mul_dataMatrix rfl rfl
  constructor
  · intro h
    rw [solve_eq_solveNormal hlen h3, solveNormal_of_not_isRegular (hsingular.mp h), hnormal,
      Mat3.det_toMatrix]
  · intro h
    have hregular := not_not.mp (mt hsingular.mpr h)
    refine ⟨?_, ?_, fun a => solve_image h3 hregular a⟩
    · obtain ⟨inverse, hinverse, -⟩ := Mat3.inverse?_of_det_ne_zero hregular.det_ne_zero
      rw [hinverse]
      exact Option.some_ne_none inverse
    · obtain ⟨m, hm, hsolves⟩ := solveNormal_of_isRegular hregular (crossMatrix xs ys)
      refine ⟨m, (solve_eq_solveNormal hlen h3).trans hm, ?_, ?_⟩
      · intro m'
        rw [transpose_mul_dataMatrix rfl rfl, transpose_mul_dataMatrix rfl hlen.symm]
        constructor
        · intro hm'
          have hsame := (solveNormal_eq_ok hregular hm').symm.trans hm
          exact Except.ok.inj hsame
        · rintro rfl
          exact hsolves
      · intro m' hne
        exact squaredError_lt rfl hlen.symm hsolves hregular hne

/-- The first axis is seen twice, once doubled and once at rest, and the fit lies in between. -/
theorem solve_between_two_images :
    let xs : List (Vec3 ℝ) := [⟨1, 0, 0⟩, ⟨0, 1, 0⟩, ⟨0, 0, 1⟩, ⟨1, 0, 0⟩]
    let ys : List (Vec3 ℝ) := [⟨2, 0, 0⟩, ⟨0, 1, 0⟩, ⟨0, 0, 1⟩, ⟨0, 0, 0⟩]
    xs.length = ys.length ∧ 3 ≤ xs.length ∧ solve xs ys = .ok Mat3.identity ∧
      IsLeastSquares xs ys Mat3.identity := by
  intro xs ys
  have hlen : xs.length = ys.length := rfl
  have h3 : 3 ≤ xs.length := by decide
  have hcross : crossMatrix xs ys = ⟨⟨2, 0, 0⟩, ⟨0, 1, 0⟩, ⟨0, 0, 1⟩⟩ := by
    simp [xs, ys, crossMatrix, Mat3.outer, Mat3.add, Mat3.zero, Vec3.zero_real, Vec3.scale_real,
      Vec3.add_real]
  have hnormal : crossMatrix xs xs = ⟨⟨2, 0, 0⟩, ⟨0, 1, 0⟩, ⟨0, 0, 1⟩⟩ := by
    simp [xs, crossMatrix, Mat3.outer, Mat3.add, Mat3.zero, Vec3.zero_real, Vec3.scale_real,
      Vec3.add_real]
    norm_num
  have hregular : IsRegular (crossMatrix xs xs) := by
    rw [hnormal, IsRegular, Mat3.det_real]
    norm_num [Mat3.trace]
  obtain ⟨-, hsolve⟩ := solve_isLeastSquares hlen h3
  obtain ⟨-, ⟨m, hm, hleast⟩, -⟩ := hsolve (mt (not_isRegular_iff xs).mpr (not_not.mpr hregular))
  obtain rfl : Mat3.identity = m := by
    rw [← hleast.solves_iff, transpose_mul_dataMatrix rfl rfl,
      transpose_mul_dataMatrix rfl hlen.symm, hcross, hnormal, Mat3.toMatrix_identity,
      Matrix.transpose_one, Matrix.mul_one]
  exact ⟨hlen, h3, hm, hleast⟩

end GyroDelay.Calibration
