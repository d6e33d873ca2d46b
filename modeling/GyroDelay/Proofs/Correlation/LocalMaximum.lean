import Mathlib
import GyroDelay.Proofs.Correlation.Maximum
import GyroDelay.Proofs.Spline.NaturalSpline

/-!
# The chosen stationary point is the local maximum

`Segment.maximum` tells the two stationary points of a cubic apart by the sign of the slope between
them. In exact arithmetic it takes the strict local maximum of the cubic on the whole line, if there
is one (`maximum_of_isStrictLocalMax`): at such a place the slope vanishes and the cubic is curved
downwards, and of the roots of the slope only the chosen one is of that kind.

Without a strict local maximum the result is any stationary point. If there is none at all, the
slope has conjugate roots and the policy decides (`maximum_of_neg`); a slope that is constant is a
fault. `maximum_spec` puts the cases together.
-/

namespace GyroDelay

open scoped Topology Filter

/-- The values of a function near `t` are below its value at `t`. -/
def IsStrictLocalMax (f : ℝ → ℝ) (t : ℝ) : Prop := ∀ᶠ u in 𝓝[≠] t, f u < f t

namespace IsStrictLocalMax

variable {f : ℝ → ℝ} {t : ℝ} (h : IsStrictLocalMax f t)

include h

theorem isLocalMax : IsLocalMax f t := by
  refine (eventually_nhdsWithin_iff.mp h).mono fun u hu => ?_
  by_cases hut : u = t
  · rw [hut]
  · exact (hu hut).le

/-- The function is lower at some distance on both sides. -/
theorem exists_both_sides : ∃ k ≠ 0, f (t + k) < f t ∧ f (t - k) < f t := by
  obtain ⟨ε, hε, hnear⟩ := Metric.eventually_nhds_iff.mp (eventually_nhdsWithin_iff.mp h)
  have hk : 0 < ε / 2 := half_pos hε
  have hdist : |ε / 2| < ε := by rw [abs_of_pos hk]; exact half_lt_self hε
  refine ⟨ε / 2, hk.ne', hnear ?_ ?_, hnear ?_ ?_⟩
  · rwa [Real.dist_eq, add_sub_cancel_left]
  · simpa using hk.ne'
  · rwa [Real.dist_eq, sub_sub_cancel_left, abs_neg]
  · simpa using hk.ne'

end IsStrictLocalMax

namespace Spline.Segment

open Quadratic

variable {s : Segment ℝ} {t : ℝ}

/-! ## Strict local maxima of a cubic -/

theorem hasDerivAt_eval (s : Segment ℝ) (t : ℝ) : HasDerivAt s.eval (s.slope t) t := by
  have heval : s.eval = fun u => s.polynomial.eval u := funext fun u => (s.eval_polynomial u).symm
  rw [heval, ← s.eval_derivative]
  exact s.polynomial.hasDerivAt t

theorem deriv_eval (s : Segment ℝ) (t : ℝ) : deriv s.eval t = s.slope t :=
  (s.hasDerivAt_eval t).deriv

theorem slope_eq_zero_of_isStrictLocalMax (h : IsStrictLocalMax s.eval t) : s.slope t = 0 :=
  h.isLocalMax.hasDerivAt_eq_zero (s.hasDerivAt_eval t)

/-- A cubic is curved downwards at a strict local maximum. The odd powers of the distance cancel
when both sides are added. -/
theorem curvature_neg_of_isStrictLocalMax (h : IsStrictLocalMax s.eval t) :
    3 * s.d * t + s.c < 0 := by
  obtain ⟨k, hk, hright, hleft⟩ := h.exists_both_sides
  have hsum : s.eval (t + k) + s.eval (t - k) - 2 * s.eval t =
      2 * (k ^ 2 * (3 * s.d * t + s.c)) := by
    rw [eval_real, eval_real, eval_real]
    ring
  have hneg : k ^ 2 * (3 * s.d * t + s.c) < 0 := by linarith
  exact (pos_iff_neg_of_mul_neg hneg).mp (by positivity)

/-! ## Stationary points and the discriminant -/

theorem discriminant_eq_of_slope_eq_zero (h : s.slope t = 0) :
    discriminant (3 * s.d) (2 * s.c) s.b = (2 * (3 * s.d * t + s.c)) ^ 2 := by
  rw [slope_real] at h
  rw [discriminant]
  linear_combination (-12 * s.d) * h

theorem discriminant_nonneg_of_slope_eq_zero (h : s.slope t = 0) :
    0 ≤ discriminant (3 * s.d) (2 * s.c) s.b := by
  rw [discriminant_eq_of_slope_eq_zero h]
  exact sq_nonneg _

/-- With a quadratic slope whose roots are real, the slope vanishes at the chosen place. -/
theorem maximum_of_nonneg (hd : s.d ≠ 0) (h : 0 ≤ discriminant (3 * s.d) (2 * s.c) s.b) :
    ∃ t, (∀ policy, s.maximum policy = .ok t) ∧ s.slope t = 0 := by
  obtain ⟨t, u, hmax, hc, hb, -⟩ := maximum_of_real_roots hd h
  refine ⟨t, hmax, ?_⟩
  rw [slope_real, hc, hb]
  ring

/-! ## The cases -/

/-- **The local maximum.** A strict local maximum of a cubic is the stationary point that is
chosen. -/
theorem maximum_of_isStrictLocalMax (h : IsStrictLocalMax s.eval t) (policy : RootPolicy) :
    s.maximum policy = .ok t := by
  have hslope := slope_eq_zero_of_isStrictLocalMax h
  have hcurved := curvature_neg_of_isStrictLocalMax h
  by_cases hd : s.d = 0
  · have hc : s.c ≠ 0 := by
      rintro hc
      rw [hd, hc] at hcurved
      simp at hcurved
    obtain ⟨u, hmax, hu⟩ := maximum_of_parabola hd hc
    have htu : 2 * s.c * t = 2 * s.c * u := by
      rw [slope_real, hd] at hslope
      linarith
    rw [hmax policy, mul_left_cancel₀ (mul_ne_zero two_ne_zero hc) htu]
  · obtain ⟨r, u, hmax, hc, hb, hside⟩ :=
      maximum_of_real_roots hd (discriminant_nonneg_of_slope_eq_zero hslope)
    have hroots : 3 * s.d * ((t - r) * (t - u)) = 0 := by
      rw [slope_real, hc, hb] at hslope
      linear_combination hslope
    rcases mul_eq_zero.mp (mul_left_cancel₀ (mul_ne_zero three_ne_zero hd)
      (hroots.trans (mul_zero _).symm)) with htr | htu
    · rw [hmax policy, sub_eq_zero.mp htr]
    · -- at the other root the cubic is not curved downwards
      rw [hc, sub_eq_zero.mp htu] at hcurved
      linarith

theorem realRoots_realPart (z w : Rect ℝ) :
    realRoots .realPart (z, w) = .ok (z.re, w.re) := by
  simp only [realRoots, ite_self]

theorem realRoots_reject {im : ℝ} (him : 0 < im) (re : ℝ) :
    realRoots .reject (⟨re, im⟩, ⟨re, -im⟩) = .error (.complexRoots re im) := by
  have hmax : Scalar.greater (Scalar.abs im) (Scalar.abs (-im)) = im := by
    rw [Scalar.greater_real, Scalar.abs_real, Scalar.abs_real, abs_neg, max_self, abs_of_pos him]
  simp only [realRoots, hmax, Scalar.zero_real, beq_iff_eq, if_neg him.ne']

/-- **Conjugate roots.** If the slope has no real root, the inflection point is taken or the
conjugate roots are reported. -/
theorem maximum_of_neg (hd : s.d ≠ 0) (h : discriminant (3 * s.d) (2 * s.c) s.b < 0) :
    ∃ im : ℝ, 0 < im ∧ 3 * s.d * ((-s.c / (3 * s.d)) ^ 2 + im ^ 2) = s.b ∧
      s.maximum .reject = .error (.complexRoots (-s.c / (3 * s.d)) im) ∧
      s.maximum .realPart = .ok (-s.c / (3 * s.d)) := by
  have h₂ : 3 * s.d ≠ 0 := mul_ne_zero three_ne_zero hd
  obtain ⟨im, him, hproper, hprod⟩ := properRoots_of_neg h₂ h
  have hre : -(2 * s.c) / (2 * (3 * s.d)) = -s.c / (3 * s.d) := by
    rw [← mul_neg, mul_div_mul_left _ _ two_ne_zero]
  rw [hre] at hproper hprod
  have hroots : roots (3 * s.d) (2 * s.c) s.b =
      .ok (⟨-s.c / (3 * s.d), im⟩, ⟨-s.c / (3 * s.d), -im⟩) := by
    rw [roots_real, if_neg h₂, hproper]
  refine ⟨im, him, hprod, ?_, ?_⟩
  · rw [maximum_real, hroots]
    simp only [bind, Except.bind, realRoots_reject him]
  · rw [maximum_real, hroots]
    simp only [bind, Except.bind, realRoots_realPart, min_self, max_self, ite_self, pure,
      Except.pure]

/-- A slope is constant, or quadratic without a real root, or the result is one of its roots. -/
theorem maximum_cases (s : Segment ℝ) :
    (s.d = 0 ∧ s.c = 0) ∨ (s.d ≠ 0 ∧ discriminant (3 * s.d) (2 * s.c) s.b < 0) ∨
      ∃ t, (∀ policy, s.maximum policy = .ok t) ∧ s.slope t = 0 := by
  by_cases hd : s.d = 0
  · by_cases hc : s.c = 0
    · exact .inl ⟨hd, hc⟩
    · obtain ⟨t, hmax, ht⟩ := maximum_of_parabola hd hc
      refine .inr (.inr ⟨t, hmax, ?_⟩)
      rw [slope_real, hd]
      linarith
  · rcases lt_or_ge (discriminant (3 * s.d) (2 * s.c) s.b) 0 with h | h
    · exact .inr (.inl ⟨hd, h⟩)
    · exact .inr (.inr (maximum_of_nonneg hd h))

theorem maximum_eq_degenerate_iff (s : Segment ℝ) (policy : RootPolicy) :
    s.maximum policy = .error .degenerateQuadratic ↔ s.d = 0 ∧ s.c = 0 := by
  constructor
  · intro h
    rcases s.maximum_cases with hconstant | ⟨hd, hneg⟩ | ⟨t, hmax, -⟩
    · exact hconstant
    · obtain ⟨im, -, -, hreject, hkeep⟩ := maximum_of_neg hd hneg
      cases policy with
      | realPart => cases hkeep.symm.trans h
      | reject => cases hreject.symm.trans h
    · cases (hmax policy).symm.trans h
  · rintro ⟨hd, hc⟩
    exact maximum_of_constant hd hc policy

/-- **The stationary point of a cubic.** A strict local maximum on the line is what is returned,
whatever the policy. There is the fault of a degenerate quadratic exactly for a constant slope. A
proper cubic without a stationary point has its conjugate roots rejected or its inflection point
returned, and every other cubic has one of its stationary points returned. -/
theorem maximum_spec (s : Segment ℝ) :
    (∀ t, IsStrictLocalMax s.eval t → ∀ policy, s.maximum policy = .ok t) ∧
    (∀ policy, s.maximum policy = .error .degenerateQuadratic ↔ s.d = 0 ∧ s.c = 0) ∧
    (s.d ≠ 0 ∧ (∀ t, deriv s.eval t ≠ 0) →
      (∃ im : ℝ, 0 < im ∧ 3 * s.d * ((-s.c / (3 * s.d)) ^ 2 + im ^ 2) = s.b ∧
        s.maximum .reject = .error (.complexRoots (-s.c / (3 * s.d)) im)) ∧
      s.maximum .realPart = .ok (-s.c / (3 * s.d))) ∧
    (¬ (s.d = 0 ∧ s.c = 0) → ¬ (s.d ≠ 0 ∧ ∀ t, deriv s.eval t ≠ 0) →
      ∀ policy, ∃ t, s.maximum policy = .ok t ∧ deriv s.eval t = 0) := by
  simp only [deriv_eval]
  refine ⟨fun t => maximum_of_isStrictLocalMax, s.maximum_eq_degenerate_iff, ?_, ?_⟩
  · rintro ⟨hd, hslope⟩
    have hneg : discriminant (3 * s.d) (2 * s.c) s.b < 0 := by
      by_contra hnonneg
      obtain ⟨t, -, ht⟩ := maximum_of_nonneg hd (not_lt.mp hnonneg)
      exact hslope t ht
    obtain ⟨im, him, hprod, hreject, hkeep⟩ := maximum_of_neg hd hneg
    exact ⟨⟨im, him, hprod, hreject⟩, hkeep⟩
  · intro hconstant hnone policy
    rcases s.maximum_cases with h | ⟨hd, hneg⟩ | ⟨t, hmax, ht⟩
    · exact absurd h hconstant
    · refine absurd ⟨hd, fun t ht => ?_⟩ hnone
      exact absurd (discriminant_nonneg_of_slope_eq_zero ht) (not_le.mpr hneg)
    · exact ⟨t, hmax policy, ht⟩

/-- A cubic with a maximum, one without a stationary point and one with a saddle. -/
theorem maximum_of_three_cubics :
    let falling : Segment ℝ := ⟨-1, 3 / 2, 0, 0⟩
    let rising : Segment ℝ := ⟨1, 1, 1, 0⟩
    let saddle : Segment ℝ := ⟨1, 0, 0, 0⟩
    (IsStrictLocalMax falling.eval 1 ∧ ∀ policy, falling.maximum policy = .ok 1) ∧
    ((rising.d ≠ 0 ∧ ∀ t, deriv rising.eval t ≠ 0) ∧
      (∃ im, rising.maximum .reject = .error (.complexRoots (-1 / (3 * 1)) im)) ∧
      rising.maximum .realPart = .ok (-1 / (3 * 1))) ∧
    (¬ (saddle.d = 0 ∧ saddle.c = 0) ∧ deriv saddle.eval 0 = 0 ∧
      ∀ policy, ∃ t, saddle.maximum policy = .ok t ∧ deriv saddle.eval t = 0) := by
  intro falling rising saddle
  have hmax : IsStrictLocalMax falling.eval 1 := by
    have hnear : ∀ᶠ u : ℝ in 𝓝[≠] 1, 0 < u :=
      eventually_nhdsWithin_of_eventually_nhds (eventually_gt_nhds one_pos)
    filter_upwards [hnear, self_mem_nhdsWithin] with u hu hne
    have hdrop : falling.eval 1 - falling.eval u = (u - 1) ^ 2 * (u + 1 / 2) := by
      simp only [falling, eval_real]
      ring
    have hsq : 0 < (u - 1) ^ 2 := sq_pos_of_ne_zero (sub_ne_zero.mpr hne)
    have hpos : 0 < (u - 1) ^ 2 * (u + 1 / 2) := mul_pos hsq (by linarith)
    linarith
  have hnone : rising.d ≠ 0 ∧ ∀ t, deriv rising.eval t ≠ 0 := by
    refine ⟨one_ne_zero, fun t => ?_⟩
    simp only [deriv_eval, slope_real, rising]
    nlinarith [sq_nonneg (3 * t + 1)]
  have hcubic : ¬ (saddle.d = 0 ∧ saddle.c = 0) := fun h => one_ne_zero h.1
  have hzero : deriv saddle.eval 0 = 0 := by
    rw [deriv_eval, slope_zero]
  obtain ⟨⟨im, -, -, hreject⟩, hkeep⟩ := (maximum_spec rising).2.2.1 hnone
  exact ⟨⟨hmax, (maximum_spec falling).1 1 hmax⟩, ⟨hnone, ⟨im, hreject⟩, hkeep⟩, hcubic, hzero,
    (maximum_spec saddle).2.2.2 hcubic fun h => h.2 0 hzero⟩

end Spline.Segment

end GyroDelay
