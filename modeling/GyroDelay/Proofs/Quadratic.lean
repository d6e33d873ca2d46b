import Mathlib.Tactic.FieldSimp
import Mathlib.Tactic.LinearCombination
import GyroDelay.Proofs.Exact
import GyroDelay.Quadratic

/-!
# The roots of a quadratic

In exact arithmetic `properRoots` returns the roots of the quadratic: with a discriminant
that is not negative they are real and have the sum and the product that the coefficients
prescribe (`properRoots_of_nonneg`), with a negative one they are conjugate and have them too
(`properRoots_of_neg`). A positive factor on all coefficients changes nothing (`roots_mul`).
-/

namespace GyroDelay.Quadratic

open Scalar

/-- The discriminant, whose sign tells how many real roots there are. -/
noncomputable def discriminant (c₂ c₁ c₀ : ℝ) : ℝ := c₁ * c₁ - 4 * c₂ * c₀

/-- The numerator of the root with the larger magnitude. -/
noncomputable def numerator (c₂ c₁ c₀ : ℝ) : ℝ :=
  -(ofNat 1 / ofNat 2) * (c₁ + Scalar.sign c₁ * √(discriminant c₂ c₁ c₀))

theorem numerator_eq (c₂ c₁ c₀ : ℝ) :
    numerator c₂ c₁ c₀ = -(1 / 2) * (c₁ + Scalar.sign c₁ * √(discriminant c₂ c₁ c₀)) := by
  rw [numerator, ofNat_real, ofNat_real, Nat.cast_one, Nat.cast_ofNat]

theorem properRoots_real (c₂ c₁ c₀ : ℝ) :
    properRoots c₂ c₁ c₀ =
      if 0 ≤ discriminant c₂ c₁ c₀ then
        if numerator c₂ c₁ c₀ = 0 then (⟨0, 0⟩, ⟨0, 0⟩)
        else (⟨numerator c₂ c₁ c₀ / c₂, 0⟩, ⟨c₀ / numerator c₂ c₁ c₀, 0⟩)
      else
        (⟨-c₁ / (2 * c₂), √(-discriminant c₂ c₁ c₀) / (2 * |c₂|)⟩,
          ⟨-c₁ / (2 * c₂), -(√(-discriminant c₂ c₁ c₀) / (2 * |c₂|))⟩) := by
  simp only [properRoots, real, zero_real, ofNat_real, sqrt_real, abs_real, beq_iff_eq,
    numerator_eq, Nat.cast_ofNat, Nat.cast_one]
  rfl

theorem roots_real (c₂ c₁ c₀ : ℝ) :
    roots c₂ c₁ c₀ =
      if c₂ = 0 then
        if c₁ = 0 then .error .degenerateQuadratic
        else .ok (⟨-c₀ / c₁, 0⟩, ⟨-c₀ / c₁, 0⟩)
      else .ok (properRoots c₂ c₁ c₀) := by
  simp only [roots, real, zero_real, beq_iff_eq]

/-- There is a fault exactly if nothing depends on the unknown. -/
theorem roots_eq_error_iff (c₂ c₁ c₀ : ℝ) (fault : Fault ℝ) :
    roots c₂ c₁ c₀ = .error fault ↔ fault = .degenerateQuadratic ∧ c₂ = 0 ∧ c₁ = 0 := by
  rw [roots_real]
  by_cases h₂ : c₂ = 0
  · by_cases h₁ : c₁ = 0
    · simp [h₂, h₁, eq_comm]
    · simp [h₂, h₁]
  · simp [h₂]

/-! ## Real roots -/

/-- The numerator is a root of the quadratic with the leading coefficient moved to the end. -/
theorem numerator_root {c₂ c₁ c₀ : ℝ} (h : 0 ≤ discriminant c₂ c₁ c₀) :
    numerator c₂ c₁ c₀ ^ 2 + c₁ * numerator c₂ c₁ c₀ + c₂ * c₀ = 0 := by
  have hsqrt := Real.mul_self_sqrt h
  have hsign := sign_mul_self_real c₁
  rw [numerator_eq]
  rw [discriminant] at hsqrt ⊢
  generalize √(c₁ * c₁ - 4 * c₂ * c₀) = w at hsqrt ⊢
  generalize Scalar.sign c₁ = σ at hsign ⊢
  linear_combination (w * w / 4) * hsign + (1 / 4) * hsqrt

/-- The numerator vanishes only for a double root at zero. -/
theorem numerator_eq_zero {c₂ c₁ c₀ : ℝ} (hn : numerator c₂ c₁ c₀ = 0) : c₁ = 0 := by
  have hsqrt := Real.sqrt_nonneg (discriminant c₂ c₁ c₀)
  have hsign := sign_mul_self_real c₁
  have habs := sign_mul_real c₁
  rw [numerator_eq] at hn
  generalize √(discriminant c₂ c₁ c₀) = w at hsqrt hn
  have hle : |c₁| = -w := by
    rw [← habs]
    linear_combination (-2 * Scalar.sign c₁) * hn - w * hsign
  exact abs_nonpos_iff.mp (by linarith)

/-- **Real roots.** Without a negative discriminant both roots are real, their sum and their
product are those of the quadratic. -/
theorem properRoots_of_nonneg {c₂ c₁ c₀ : ℝ} (h₂ : c₂ ≠ 0) (h : 0 ≤ discriminant c₂ c₁ c₀) :
    ∃ r₀ r₁ : ℝ, properRoots c₂ c₁ c₀ = (⟨r₀, 0⟩, ⟨r₁, 0⟩) ∧
      c₂ * (r₀ + r₁) = -c₁ ∧ c₂ * (r₀ * r₁) = c₀ := by
  have hroot := numerator_root h
  rw [properRoots_real, if_pos h]
  split
  · rename_i hn
    have h₁ := numerator_eq_zero hn
    have h₀ : c₀ = 0 := by
      rw [hn, h₁] at hroot
      simpa [h₂] using hroot
    exact ⟨0, 0, rfl, by simp [h₁], by simp [h₀]⟩
  · rename_i hn
    refine ⟨_, _, rfl, ?_, ?_⟩
    · field_simp
      linear_combination hroot
    · field_simp

/-! ## Conjugate roots -/

/-- **Conjugate roots.** With a negative discriminant the roots are conjugate and not real, their
sum and their product are those of the quadratic. -/
theorem properRoots_of_neg {c₂ c₁ c₀ : ℝ} (h₂ : c₂ ≠ 0) (h : discriminant c₂ c₁ c₀ < 0) :
    ∃ im : ℝ, 0 < im ∧
      properRoots c₂ c₁ c₀ = (⟨-c₁ / (2 * c₂), im⟩, ⟨-c₁ / (2 * c₂), -im⟩) ∧
      c₂ * ((-c₁ / (2 * c₂)) ^ 2 + im ^ 2) = c₀ := by
  have hpos : 0 < 2 * |c₂| := mul_pos zero_lt_two (abs_pos.mpr h₂)
  refine ⟨√(-discriminant c₂ c₁ c₀) / (2 * |c₂|), ?_, ?_, ?_⟩
  · exact div_pos (Real.sqrt_pos.mpr (neg_pos.mpr h)) hpos
  · rw [properRoots_real, if_neg (not_le.mpr h)]
  · rw [div_pow, div_pow, mul_pow, mul_pow, sq_abs, Real.sq_sqrt (neg_nonneg.mpr h.le),
      discriminant]
    field_simp
    ring

/-! ## Scaling -/

theorem sign_mul {c : ℝ} (hc : 0 < c) (x : ℝ) : Scalar.sign (c * x) = Scalar.sign x := by
  rw [sign_real, sign_real]
  exact if_congr (mul_nonneg_iff_of_pos_left hc) rfl rfl

theorem discriminant_mul (c c₂ c₁ c₀ : ℝ) :
    discriminant (c * c₂) (c * c₁) (c * c₀) = c ^ 2 * discriminant c₂ c₁ c₀ := by
  rw [discriminant, discriminant]
  ring

theorem numerator_mul {c : ℝ} (hc : 0 < c) (c₂ c₁ c₀ : ℝ) :
    numerator (c * c₂) (c * c₁) (c * c₀) = c * numerator c₂ c₁ c₀ := by
  rw [numerator_eq, numerator_eq, discriminant_mul, sign_mul hc, Real.sqrt_mul (sq_nonneg c),
    Real.sqrt_sq hc.le]
  ring

theorem properRoots_mul {c : ℝ} (hc : 0 < c) (c₂ c₁ c₀ : ℝ) :
    properRoots (c * c₂) (c * c₁) (c * c₀) = properRoots c₂ c₁ c₀ := by
  have hne : c ≠ 0 := hc.ne'
  have hsign : 0 ≤ c ^ 2 * discriminant c₂ c₁ c₀ ↔ 0 ≤ discriminant c₂ c₁ c₀ :=
    mul_nonneg_iff_of_pos_left (pow_pos hc 2)
  have hzero : c * numerator c₂ c₁ c₀ = 0 ↔ numerator c₂ c₁ c₀ = 0 := by simp [hne]
  have hre : -(c * c₁) / (2 * (c * c₂)) = -c₁ / (2 * c₂) := by
    rw [← mul_neg, mul_left_comm, mul_div_mul_left _ _ hne]
  have him : √(-(c ^ 2 * discriminant c₂ c₁ c₀)) / (2 * |c * c₂|) =
      √(-discriminant c₂ c₁ c₀) / (2 * |c₂|) := by
    rw [← mul_neg, Real.sqrt_mul (sq_nonneg c), Real.sqrt_sq hc.le, abs_mul, abs_of_pos hc,
      mul_left_comm, mul_div_mul_left _ _ hne]
  rw [properRoots_real, properRoots_real, discriminant_mul, numerator_mul hc, hre, him,
    mul_div_mul_left _ _ hne, mul_div_mul_left _ _ hne]
  simp only [hsign, hzero]

/-- A positive factor on all coefficients changes neither the roots nor the fault. -/
theorem roots_mul {c : ℝ} (hc : 0 < c) (c₂ c₁ c₀ : ℝ) :
    roots (c * c₂) (c * c₁) (c * c₀) = roots c₂ c₁ c₀ := by
  have hne : c ≠ 0 := hc.ne'
  have hlinear : -(c * c₀) / (c * c₁) = -c₀ / c₁ := by
    rw [← mul_neg, mul_div_mul_left _ _ hne]
  rw [roots_real, roots_real, properRoots_mul hc, hlinear]
  simp only [mul_eq_zero, hne, false_or]

end GyroDelay.Quadratic
