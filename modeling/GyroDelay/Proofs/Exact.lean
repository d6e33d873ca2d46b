import Mathlib.Analysis.SpecialFunctions.Trigonometric.Basic
import GyroDelay.Scalar

/-!
# Exact arithmetic

The real numbers with the operations of the estimation. A statement in exact arithmetic
is a statement about the definitions of the estimation at this instance.

Every real number is finite and above minus infinity, the square root is exact, and the
sign of zero is positive. The number of points of a grid has no bound here, since every
natural number is the length of a list; rounding to an integer keeps to 64 signed bits.
-/

namespace GyroDelay

-- Quotients of real numbers are those of the field, not those of the instance below.
noncomputable instance realDiv : Div ℝ := DivInvMonoid.toDiv

/-- The nearest integer to a real number, halves away from zero. -/
noncomputable def nearestInt (x : ℝ) : ℤ := if 0 ≤ x then ⌊x + 1 / 2⌋ else ⌈x - 1 / 2⌉

/-- The angle of a full turn. -/
noncomputable def fullTurn : ℝ := 2 * Real.pi

noncomputable instance : Scalar ℝ where
  toBEq := instBEqOfDecidableEq
  ofNat n := n
  ofInt i := i
  isFinite _ := true
  abs x := |x|
  sqrt x := √x
  sign x := if 0 ≤ x then 1 else -1
  lesser := min
  greater := max
  ceilNat x := ⌈x⌉₊
  roundInt x := max (-2 ^ 63) (min (2 ^ 63 - 1) (nearestInt x))
  isAboveLeast _ := true
  turn k n := (Real.cos (fullTurn * k / n), Real.sin (fullTurn * k / n))
  decLt := inferInstance
  decLe := inferInstance

namespace Scalar

/-! ## The operations on real numbers -/

@[simp] theorem ofNat_real (n : ℕ) : (ofNat n : ℝ) = n := rfl

@[simp] theorem ofInt_real (i : ℤ) : (ofInt i : ℝ) = i := rfl

@[simp] theorem zero_real : (zero : ℝ) = 0 := Nat.cast_zero

@[simp] theorem isFinite_real (x : ℝ) : isFinite x = true := rfl

@[simp] theorem abs_real (x : ℝ) : Scalar.abs x = |x| := rfl

@[simp] theorem sqrt_real (x : ℝ) : Scalar.sqrt x = √x := rfl

@[simp] theorem lesser_real (x y : ℝ) : lesser x y = min x y := rfl

@[simp] theorem greater_real (x y : ℝ) : greater x y = max x y := rfl

@[simp] theorem ceilNat_real (x : ℝ) : ceilNat x = ⌈x⌉₊ := rfl

@[simp] theorem isAboveLeast_real (x : ℝ) : isAboveLeast x = true := rfl

theorem sign_real (x : ℝ) : Scalar.sign x = if 0 ≤ x then 1 else -1 := rfl

theorem turn_real (k n : ℕ) :
    (turn k n : ℝ × ℝ) = (Real.cos (2 * Real.pi * k / n), Real.sin (2 * Real.pi * k / n)) := rfl

/-- The sum that starts at zero is the sum of the list. -/
theorem sum_real (xs : List ℝ) : Scalar.sum xs = xs.sum := by
  have h : Scalar.sum xs = xs.foldl (· + ·) 0 := by
    rw [← zero_real]
    rfl
  rw [h, List.sum_eq_foldl]

/-- The signs do not change when a real number is squared. -/
theorem sign_mul_self_real (x : ℝ) : Scalar.sign x * Scalar.sign x = 1 := by
  rw [sign_real]
  split <;> norm_num

/-- A sign times its number is the magnitude. -/
theorem sign_mul_real (x : ℝ) : Scalar.sign x * x = |x| := by
  rw [sign_real]
  split
  · rename_i h
    rw [abs_of_nonneg h, one_mul]
  · rename_i h
    rw [abs_of_neg (lt_of_not_ge h), neg_one_mul]

end Scalar

end GyroDelay
