import GyroDelay.Bits
import GyroDelay.Proofs.Exact
import GyroDelay.TimeUnit

/-!
# Rounding to integers

Rounding moves a number by one half at most (`abs_nearestInt_sub_le`), keeps numbers at a
distance of one apart (`nearestInt_lt_nearestInt`), and changes no integer. The rounded number
of units is within 64 bits; a number of units that is within 64 bits is rounded to the nearest
integer (`roundInt_eq_nearestInt`), and what was rounded once stays (`roundInt_mul_div`).
-/

namespace GyroDelay

theorem abs_nearestInt_sub_le (x : ℝ) : |(nearestInt x : ℝ) - x| ≤ 1 / 2 := by
  rw [nearestInt, abs_le]
  split
  · have hle := Int.floor_le (x + 1 / 2)
    have hlt := Int.lt_floor_add_one (x + 1 / 2)
    constructor <;> linarith
  · have hle := Int.le_ceil (x - 1 / 2)
    have hlt := Int.ceil_lt_add_one (x - 1 / 2)
    constructor <;> linarith

theorem nearestInt_intCast (k : ℤ) : nearestInt k = k := by
  have hnear := abs_le.mp (abs_nearestInt_sub_le k)
  have hlow : (k : ℝ) - 1 < nearestInt k := by linarith [hnear.1]
  have hhigh : (nearestInt k : ℝ) < k + 1 := by linarith [hnear.2]
  have hlow' : k - 1 < nearestInt k := by exact_mod_cast hlow
  have hhigh' : nearestInt k < k + 1 := by exact_mod_cast hhigh
  omega

/-- Halves are rounded away from zero, so numbers at a distance of one never round to the same
integer. -/
theorem nearestInt_lt_nearestInt {x y : ℝ} (h : x + 1 ≤ y) : nearestInt x < nearestInt y := by
  by_cases hx : 0 ≤ x
  · have hy : 0 ≤ y := by linarith
    rw [nearestInt, nearestInt, if_pos hx, if_pos hy]
    calc ⌊x + 1 / 2⌋ < ⌊x + 1 / 2⌋ + 1 := Int.lt_succ _
      _ = ⌊x + 1 / 2 + 1⌋ := (Int.floor_add_one _).symm
      _ ≤ ⌊y + 1 / 2⌋ := Int.floor_le_floor (by linarith)
  · have hceil := Int.ceil_lt_add_one (x - 1 / 2)
    have hnear := (abs_le.mp (abs_nearestInt_sub_le y)).1
    have hlt : (nearestInt x : ℝ) < nearestInt y := by
      rw [nearestInt, if_neg hx]
      linarith
    exact_mod_cast hlt

theorem roundInt_real (x : ℝ) :
    Scalar.roundInt x = max (-2 ^ 63) (min (2 ^ 63 - 1) (nearestInt x)) := rfl

theorem isSigned_iff {i : ℤ} : isSigned 64 i = true ↔ -2 ^ 63 ≤ i ∧ i ≤ 2 ^ 63 - 1 := by
  rw [isSigned, Bool.and_eq_true, decide_eq_true_eq, decide_eq_true_eq]
  change -2 ^ 63 ≤ i ∧ i < 2 ^ 63 ↔ _
  omega

theorem isSigned_roundInt_real (x : ℝ) : isSigned 64 (Scalar.roundInt x) = true := by
  rw [isSigned_iff, roundInt_real]
  omega

theorem isSigned_roundInt_float (x : Float) : isSigned 64 (Scalar.roundInt x) = true := by
  rw [isSigned_iff]
  have hlow := x.round.toInt64.le_toInt
  have hhigh := x.round.toInt64.toInt_lt
  change -2 ^ 63 ≤ x.round.toInt64.toInt ∧ x.round.toInt64.toInt ≤ 2 ^ 63 - 1
  omega

/-- Numbers within 64 bits are rounded to the nearest integer. -/
theorem roundInt_eq_nearestInt {x : ℝ} (hlow : -2 ^ 63 ≤ x) (hhigh : x ≤ 2 ^ 63 - 1) :
    Scalar.roundInt x = nearestInt x := by
  have hnear := abs_le.mp (abs_nearestInt_sub_le x)
  have hlow' : ((-2 ^ 63 - 1 : ℤ) : ℝ) < nearestInt x := by
    push_cast
    linarith [hnear.1]
  have hhigh' : (nearestInt x : ℝ) < (2 ^ 63 : ℤ) := by
    push_cast
    linarith [hnear.2]
  have hlow'' := Int.cast_lt.mp hlow'
  have hhigh'' := Int.cast_lt.mp hhigh'
  rw [roundInt_real]
  omega

theorem factor_pos (unit : TimeUnit) : 0 < (unit.factor : ℝ) := by
  cases unit <;> simp [TimeUnit.factor, TimeUnit.perSecond]

/-- What was rounded once is not rounded again. -/
theorem roundInt_mul_div {k : ℤ} (h : isSigned 64 k = true) (unit : TimeUnit) :
    Scalar.roundInt ((k : ℝ) * unit.factor / unit.factor) = k := by
  obtain ⟨hlow, hhigh⟩ := isSigned_iff.mp h
  rw [mul_div_cancel_right₀ _ (factor_pos unit).ne', roundInt_real, nearestInt_intCast]
  omega

end GyroDelay
