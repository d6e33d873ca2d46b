import GyroDelay.Proofs.Correlation.Fourier
import GyroDelay.Proofs.PartialReal
import GyroDelay.Proofs.Quadratic

/-!
# A quadratic is the product of its factors

The roots of a quadratic come with their multiplicity: the quadratic is its leading coefficient
times the two linear factors, at every complex number (`roots_factor`). The route to the roots
depends on the sign of the discriminant and on whether the numerator of the larger one vanishes.
On each route they have the sum and the product that the coefficients prescribe, and the
factorization follows from these (`factor_of_sum_of_prod`).

No route takes a quotient by zero: in arithmetic where such a quotient is undefined, the roots are
the same and defined (`properRoots_defined`).
-/

namespace GyroDelay.Quadratic

open Scalar PartialReal

/-! ## Factors -/

/-- Two numbers with the sum and the product that a quadratic prescribes give its factors. -/
theorem factor_of_sum_of_prod {c₂ c₁ c₀ r₀ r₁ : ℂ} (hsum : c₂ * (r₀ + r₁) = -c₁)
    (hprod : c₂ * (r₀ * r₁) = c₀) (x : ℂ) :
    c₂ * x ^ 2 + c₁ * x + c₀ = c₂ * (x - r₀) * (x - r₁) := by
  linear_combination x * hsum - hprod

section Factors

variable {c₂ c₁ c₀ : ℝ} (h₂ : c₂ ≠ 0)

include h₂

theorem factor_of_nonneg (h : 0 ≤ discriminant c₂ c₁ c₀) :
    ∃ r₀ r₁ : Rect ℝ, properRoots c₂ c₁ c₀ = (r₀, r₁) ∧ (r₀.im = 0 ∧ r₁.im = 0) ∧
      ∀ x : ℂ, c₂ * x ^ 2 + c₁ * x + c₀ = c₂ * (x - r₀.toComplex) * (x - r₁.toComplex) := by
  obtain ⟨r₀, r₁, hroots, hsum, hprod⟩ := properRoots_of_nonneg h₂ h
  refine ⟨⟨r₀, 0⟩, ⟨r₁, 0⟩, hroots, ⟨rfl, rfl⟩, factor_of_sum_of_prod ?_ ?_⟩
  · change (c₂ * ((r₀ : ℂ) + r₁) : ℂ) = -c₁
    exact_mod_cast hsum
  · change (c₂ * ((r₀ : ℂ) * r₁) : ℂ) = c₀
    exact_mod_cast hprod

theorem factor_of_neg (h : discriminant c₂ c₁ c₀ < 0) :
    ∃ r₀ r₁ : Rect ℝ, properRoots c₂ c₁ c₀ = (r₀, r₁) ∧ (r₀.im ≠ 0 ∧ r₁ = r₀.conj) ∧
      ∀ x : ℂ, c₂ * x ^ 2 + c₁ * x + c₀ = c₂ * (x - r₀.toComplex) * (x - r₁.toComplex) := by
  obtain ⟨im, hpos, hroots, hprod⟩ := properRoots_of_neg h₂ h
  have hsum : c₂ * (2 * (-c₁ / (2 * c₂))) = -c₁ := by field_simp
  rw [sq, sq] at hprod
  refine ⟨⟨-c₁ / (2 * c₂), im⟩, Rect.conj ⟨-c₁ / (2 * c₂), im⟩, hroots, ⟨hpos.ne', rfl⟩,
    factor_of_sum_of_prod ?_ ?_⟩
  · rw [Rect.toComplex_conj, Complex.add_conj]
    exact_mod_cast hsum
  · rw [Rect.toComplex_conj, Complex.mul_conj]
    exact_mod_cast hprod

/-! ## Quotients -/

/-- **No quotient by zero.** The roots of a quadratic are defined, and the same, where a quotient
by zero is undefined. -/
theorem properRoots_defined :
    properRoots (defined c₂) (defined c₁) (defined c₀) =
      (properRoots c₂ c₁ c₀).map (Rect.map defined) (Rect.map defined) := by
  have hdisc : c₁ * c₁ - 4 * c₂ * c₀ = discriminant c₂ c₁ c₀ := rfl
  have htwo : (2 : ℝ) ≠ 0 := two_ne_zero
  have hright : 2 * |c₂| ≠ 0 := mul_ne_zero htwo (abs_pos.mpr h₂).ne'
  have hleft : 2 * c₂ ≠ 0 := mul_ne_zero htwo h₂
  rw [properRoots_real]
  simp only [properRoots, real, ofNat_defined, zero_defined, mul_defined, sub_defined,
    le_defined, Nat.cast_ofNat, Nat.cast_one, hdisc]
  by_cases h : 0 ≤ discriminant c₂ c₁ c₀
  · simp only [if_pos h, sqrt_defined h, sign_defined, mul_defined, add_defined,
      div_defined htwo, neg_defined, beq_defined, beq_iff_eq, ← numerator_eq]
    by_cases hn : numerator c₂ c₁ c₀ = 0
    · simp only [if_pos hn]
      rfl
    · simp only [if_neg hn, div_defined h₂, div_defined hn]
      rfl
  · have hneg : 0 ≤ -discriminant c₂ c₁ c₀ := (neg_pos.mpr (not_le.mp h)).le
    simp only [if_neg h, neg_defined, sqrt_defined hneg, abs_defined, mul_defined,
      div_defined hleft, div_defined hright]
    rfl

theorem roots_defined : roots (defined c₂) (defined c₁) (defined c₀) =
    .ok ((properRoots c₂ c₁ c₀).map (Rect.map defined) (Rect.map defined)) := by
  rw [roots, zero_defined, beq_defined, if_neg (by simpa using h₂), properRoots_defined h₂]

end Factors

theorem roots_defined_linear {c₁ : ℝ} (h₁ : c₁ ≠ 0) (c₀ : ℝ) :
    roots (defined 0) (defined c₁) (defined c₀) =
      .ok (⟨defined (-c₀ / c₁), defined 0⟩, ⟨defined (-c₀ / c₁), defined 0⟩) := by
  rw [roots, zero_defined, beq_defined, if_pos (by simp), beq_defined, if_neg (by simpa using h₁),
    neg_defined, div_defined h₁, real, zero_defined]

/-! ## The roots -/

/-- **The factors of a quadratic.** With a leading coefficient the quadratic is that coefficient
times its two linear factors, at every complex number; the roots are both real or conjugate, as
the discriminant tells, and no quotient by zero is taken on the way to them. A linear equation has
its root twice, and without any unknown there is a fault. -/
theorem roots_factor (c₂ c₁ c₀ : ℝ) :
    (c₂ ≠ 0 → ∃ r₀ r₁ : Rect ℝ, roots c₂ c₁ c₀ = .ok (r₀, r₁) ∧
      (∀ x : ℂ, c₂ * x ^ 2 + c₁ * x + c₀ = c₂ * (x - r₀.toComplex) * (x - r₁.toComplex)) ∧
      (0 ≤ c₁ ^ 2 - 4 * c₂ * c₀ → r₀.im = 0 ∧ r₁.im = 0) ∧
      (c₁ ^ 2 - 4 * c₂ * c₀ < 0 → r₀.im ≠ 0 ∧ r₁ = r₀.conj) ∧
      roots (defined c₂) (defined c₁) (defined c₀) = .ok (r₀.map defined, r₁.map defined)) ∧
    (c₂ = 0 → c₁ ≠ 0 → ∃ r : ℝ, c₁ * r + c₀ = 0 ∧
      roots c₂ c₁ c₀ = .ok (⟨r, 0⟩, ⟨r, 0⟩) ∧
      roots (defined c₂) (defined c₁) (defined c₀) =
        .ok (⟨defined r, defined 0⟩, ⟨defined r, defined 0⟩)) ∧
    ∀ fault, roots c₂ c₁ c₀ = .error fault ↔ fault = .degenerateQuadratic ∧ c₂ = 0 ∧ c₁ = 0 := by
  refine ⟨fun h₂ => ?_, fun h₂ h₁ => ?_, roots_eq_error_iff c₂ c₁ c₀⟩
  · have hroots : roots c₂ c₁ c₀ = .ok (properRoots c₂ c₁ c₀) := by rw [roots_real, if_neg h₂]
    have hdisc : c₁ ^ 2 - 4 * c₂ * c₀ = discriminant c₂ c₁ c₀ := by rw [discriminant, sq]
    rw [hroots, roots_defined h₂, hdisc]
    rcases le_or_gt 0 (discriminant c₂ c₁ c₀) with h | h
    · obtain ⟨r₀, r₁, hproper, hreal, hfactor⟩ := factor_of_nonneg h₂ h
      rw [hproper]
      exact ⟨r₀, r₁, rfl, hfactor, fun _ => hreal, fun hneg => absurd h (not_le.mpr hneg), rfl⟩
    · obtain ⟨r₀, r₁, hproper, hconj, hfactor⟩ := factor_of_neg h₂ h
      rw [hproper]
      exact ⟨r₀, r₁, rfl, hfactor, fun hnonneg => absurd h (not_lt.mpr hnonneg), fun _ => hconj,
        rfl⟩
  · subst h₂
    refine ⟨-c₀ / c₁, ?_, ?_, roots_defined_linear h₁ c₀⟩
    · rw [mul_div_cancel₀ _ h₁, neg_add_cancel]
    · rw [roots_real, if_pos rfl, if_neg h₁]

/-- One quadratic with conjugate roots, one with real roots of opposite signs, a linear equation
and one without an unknown. -/
theorem roots_factor_each_route :
    ((1 : ℝ) ≠ 0 ∧ (2 : ℝ) ^ 2 - 4 * 1 * 5 < 0 ∧ ∃ r₀ r₁ : Rect ℝ, roots 1 2 5 = .ok (r₀, r₁) ∧
      (r₀.im ≠ 0 ∧ r₁ = r₀.conj) ∧
      roots (defined 1) (defined 2) (defined 5) = .ok (r₀.map defined, r₁.map defined)) ∧
    ((0 : ℝ) ≤ 0 ^ 2 - 4 * 1 * (-4) ∧ ∃ r₀ r₁ : Rect ℝ, roots 1 0 (-4) = .ok (r₀, r₁) ∧
      (r₀.im = 0 ∧ r₁.im = 0) ∧ ((2 : ℂ) - r₀.toComplex) * (2 - r₁.toComplex) = 0) ∧
    ((2 : ℝ) ≠ 0 ∧ ∃ r : ℝ, 2 * r + -1 = 0 ∧ roots 0 2 (-1) = .ok (⟨r, 0⟩, ⟨r, 0⟩)) ∧
    roots (0 : ℝ) 0 1 = .error .degenerateQuadratic := by
  refine ⟨⟨one_ne_zero, by norm_num, ?_⟩, ⟨by norm_num, ?_⟩, ⟨two_ne_zero, ?_⟩, ?_⟩
  · obtain ⟨r₀, r₁, hroots, -, -, hconj, hdefined⟩ := (roots_factor 1 2 5).1 one_ne_zero
    exact ⟨r₀, r₁, hroots, hconj (by norm_num), hdefined⟩
  · obtain ⟨r₀, r₁, hroots, hfactor, hreal, -⟩ := (roots_factor 1 0 (-4)).1 one_ne_zero
    have hproduct : ((2 : ℂ) - r₀.toComplex) * (2 - r₁.toComplex) = 0 := by
      have htwo := hfactor 2
      simp only [Complex.ofReal_one, one_mul] at htwo
      rw [← htwo]
      norm_num
    exact ⟨r₀, r₁, hroots, hreal (by norm_num), hproduct⟩
  · obtain ⟨r, hr, hroots, -⟩ := (roots_factor 0 2 (-1)).2.1 rfl two_ne_zero
    exact ⟨r, hr, hroots⟩
  · exact ((roots_factor 0 0 1).2.2 _).mpr ⟨rfl, rfl, rfl⟩

end GyroDelay.Quadratic
