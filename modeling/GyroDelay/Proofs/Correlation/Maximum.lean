import GyroDelay.Correlation.Peak
import GyroDelay.Proofs.Quadratic
import GyroDelay.Proofs.Spline.Shape

/-!
# The maximum of a segment

Which stationary point `Segment.maximum` returns in exact arithmetic: the one at which the
slope changes from rising to falling (`maximum_of_real_roots`). From that and the values
and slopes at the ends of the unit interval follows where it lies.

* `maximum_of_rising_start`: a segment that does not fall at its start and does not end
  higher than it starts has its maximum in the interval, unless it is constant.
* `maximum_of_falling_end`: a segment that falls at its end and ends higher than it starts
  has its maximum inside the interval.

Neither depends on the policy for complex roots.
-/

namespace GyroDelay.Spline.Segment

open Scalar Quadratic

theorem slopeSum_real (s : Segment ℝ) (t : ℝ) : s.slopeSum t = s.slope t := by
  rw [slope_real]
  simp only [slopeSum, ofNat_real, zero_real, Nat.cast_ofNat, Nat.cast_one]
  ring

theorem realRoots_real (policy : RootPolicy) (r₀ r₁ : ℝ) :
    realRoots policy (⟨r₀, 0⟩, ⟨r₁, 0⟩) = .ok (r₀, r₁) := by
  simp [realRoots]

/-! ## The stationary point that is chosen -/

theorem maximum_real (s : Segment ℝ) (policy : RootPolicy) :
    s.maximum policy = (do
      let roots ← roots (3 * s.d) (2 * s.c) s.b
      let (r₀, r₁) ← realRoots policy roots
      return if s.slope ((r₀ + r₁) / 2) < 0 then min r₀ r₁ else max r₀ r₁) := by
  simp only [maximum, slopeSum_real, ofNat_real, zero_real, lesser_real, greater_real,
    Nat.cast_ofNat]

theorem maximum_of_roots {s : Segment ℝ} {r₀ r₁ : ℝ}
    (h : roots (3 * s.d) (2 * s.c) s.b = .ok (⟨r₀, 0⟩, ⟨r₁, 0⟩)) (policy : RootPolicy) :
    s.maximum policy =
      .ok (if s.slope ((r₀ + r₁) / 2) < 0 then min r₀ r₁ else max r₀ r₁) := by
  rw [maximum_real, h]
  simp only [bind, Except.bind, realRoots_real, pure, Except.pure]

theorem maximum_of_constant {s : Segment ℝ} (hd : s.d = 0) (hc : s.c = 0) (policy : RootPolicy) :
    s.maximum policy = .error .degenerateQuadratic := by
  have h : roots (3 * s.d) (2 * s.c) s.b = .error .degenerateQuadratic := by
    rw [roots_real, hd, hc]
    simp
  rw [maximum_real, h]
  rfl

theorem maximum_of_parabola {s : Segment ℝ} (hd : s.d = 0) (hc : s.c ≠ 0) :
    ∃ t, (∀ policy, s.maximum policy = .ok t) ∧ 2 * s.c * t = -s.b := by
  have h : roots (3 * s.d) (2 * s.c) s.b =
      .ok (⟨-s.b / (2 * s.c), 0⟩, ⟨-s.b / (2 * s.c), 0⟩) := by
    rw [roots_real, hd]
    simp [hc]
  refine ⟨-s.b / (2 * s.c), ?_, by field_simp⟩
  intro policy
  rw [maximum_of_roots h, min_self, max_self, ite_self]

/-- **The chosen stationary point.** If the slope has two real roots, the chosen one is the
smaller one for a slope that opens upwards and the larger one for a slope that opens
downwards. -/
theorem maximum_of_real_roots {s : Segment ℝ} (hd : s.d ≠ 0)
    (h : 0 ≤ discriminant (3 * s.d) (2 * s.c) s.b) :
    ∃ t u, (∀ policy, s.maximum policy = .ok t) ∧ s.c = -(3 / 2) * s.d * (t + u) ∧
      s.b = 3 * s.d * (t * u) ∧ s.d * (t - u) ≤ 0 := by
  have h₂ : 3 * s.d ≠ 0 := mul_ne_zero (by norm_num) hd
  obtain ⟨r₀, r₁, hproper, hsum, hprod⟩ := properRoots_of_nonneg h₂ h
  have hroots : roots (3 * s.d) (2 * s.c) s.b = .ok (⟨r₀, 0⟩, ⟨r₁, 0⟩) := by
    rw [roots_real, if_neg h₂, hproper]
  have hmiddle : s.slope ((r₀ + r₁) / 2) = -(3 / 4) * s.d * (r₀ - r₁) ^ 2 := by
    rw [slope_real]
    linear_combination (1 / 2 * (r₀ + r₁)) * hsum - hprod
  have hc : s.c = -(3 / 2) * s.d * (r₀ + r₁) := by linear_combination (1 / 2) * hsum
  have hb : s.b = 3 * s.d * (r₀ * r₁) := by linear_combination -hprod
  have hsq := sq_nonneg (r₀ - r₁)
  have hle : min r₀ r₁ ≤ max r₀ r₁ := min_le_max
  by_cases hfall : s.slope ((r₀ + r₁) / 2) < 0
  · refine ⟨min r₀ r₁, max r₀ r₁, ?_, by rw [min_add_max, hc], by rw [min_mul_max, hb], ?_⟩
    · intro policy
      rw [maximum_of_roots hroots, if_pos hfall]
    · have hpos : 0 < s.d := by
        rw [hmiddle] at hfall
        by_contra hneg
        nlinarith
      nlinarith
  · refine ⟨max r₀ r₁, min r₀ r₁, ?_, by rw [max_add_min, hc], by rw [max_mul_min, hb], ?_⟩
    · intro policy
      rw [maximum_of_roots hroots, if_neg hfall]
    · rw [hmiddle] at hfall
      rcases lt_or_gt_of_ne hd with hneg | hpos
      · nlinarith
      · have hzero : (r₀ - r₁) ^ 2 = 0 := by nlinarith
        have heq : r₀ = r₁ := sub_eq_zero.mp (pow_eq_zero_iff (two_ne_zero) |>.mp hzero)
        rw [heq, min_self, max_self, sub_self, mul_zero]

/-! ## Where it lies -/

theorem discriminant_nonneg_of_le {d c b : ℝ} (hb : 0 ≤ b) (h : d + c + b ≤ 0) :
    0 ≤ discriminant (3 * d) (2 * c) b := by
  rw [discriminant]
  by_contra hneg
  have hdb : c ^ 2 < 3 * (d * b) := by nlinarith
  have hd : 0 < d := by
    by_contra hd
    nlinarith [mul_nonneg (neg_nonneg.mpr (not_lt.mp hd)) hb, sq_nonneg c]
  nlinarith [sq_nonneg (d - b), mul_nonneg hd.le hb]

/-- A slope with the roots `t` and `u` that is not negative at zero and has no positive mean
over the unit interval falls through `t` in it. -/
theorem root_mem_of_mean_nonpos {d t u : ℝ} (hd : d ≠ 0) (hside : d * (t - u) ≤ 0)
    (hstart : 0 ≤ d * (t * u)) (hmean : d * (2 - 3 * (t + u) + 6 * (t * u)) ≤ 0) :
    0 ≤ t ∧ t < 1 ∧ 0 ≤ d * (t ^ 2 * (3 * u - t)) := by
  rcases lt_or_gt_of_ne hd with hneg | hpos
  · have htu : u ≤ t := by nlinarith
    have hprod : t * u ≤ 0 := by nlinarith
    have hsum : 0 ≤ 2 - 3 * (t + u) + 6 * (t * u) := by nlinarith
    have ht : 0 ≤ t := by nlinarith
    have hu : u ≤ 0 := by nlinarith
    refine ⟨ht, by nlinarith, ?_⟩
    have hfactor : t ^ 2 * (3 * u - t) ≤ 0 :=
      mul_nonpos_of_nonneg_of_nonpos (sq_nonneg t) (by linarith)
    nlinarith
  · have htu : t ≤ u := by nlinarith
    have hprod : 0 ≤ t * u := by nlinarith
    have hsum : 2 - 3 * (t + u) + 6 * (t * u) ≤ 0 := by nlinarith
    have ht : 0 ≤ t := by
      by_contra hlt
      nlinarith
    refine ⟨ht, by nlinarith, ?_⟩
    exact mul_nonneg hpos.le (mul_nonneg (sq_nonneg t) (by linarith))

/-- A segment that does not fall at its start and does not end higher than it starts has its
maximum in the interval, unless it is constant. -/
theorem maximum_of_rising_start {s : Segment ℝ} (hstart : 0 ≤ s.slope 0)
    (hend : s.eval 1 ≤ s.eval 0) :
    (s.d = 0 ∧ s.c = 0 ∧ s.b = 0 ∧ ∀ policy, s.maximum policy = .error .degenerateQuadratic) ∨
    ∃ t, (∀ policy, s.maximum policy = .ok t) ∧ 0 ≤ t ∧ t < 1 ∧ s.slope t = 0 ∧
      s.eval 0 ≤ s.eval t := by
  rw [slope_zero] at hstart
  have hmean : s.d + s.c + s.b ≤ 0 := by
    rw [eval_real, eval_real] at hend
    linarith
  by_cases hd : s.d = 0
  · by_cases hc : s.c = 0
    · left
      exact ⟨hd, hc, by linarith, maximum_of_constant hd hc⟩
    · right
      have hneg : s.c < 0 := lt_of_le_of_ne (by linarith) hc
      obtain ⟨t, hmax, ht⟩ := maximum_of_parabola hd hc
      have h0 : 0 ≤ t := by nlinarith
      refine ⟨t, hmax, h0, by nlinarith, ?_, ?_⟩
      · rw [slope_real, hd]
        linarith
      · rw [eval_real, eval_real, hd]
        nlinarith
  · right
    obtain ⟨t, u, hmax, hc, hb, hside⟩ :=
      maximum_of_real_roots hd (discriminant_nonneg_of_le hstart hmean)
    obtain ⟨h0, h1, hrise⟩ := root_mem_of_mean_nonpos hd hside (by linarith)
      (by rw [hc, hb] at hmean; linarith)
    refine ⟨t, hmax, h0, h1, ?_, ?_⟩
    · rw [slope_real, hc, hb]
      ring
    · have hval : s.eval t - s.eval 0 = s.d * (t ^ 2 * (3 * u - t)) / 2 := by
        rw [eval_real, eval_real, hc, hb]
        ring
      linarith

/-- A segment that falls at its end and ends higher than it starts has its maximum inside the
interval. -/
theorem maximum_of_falling_end {s : Segment ℝ} (hstart : s.eval 0 < s.eval 1)
    (hend : s.slope 1 < 0) :
    ∃ t, (∀ policy, s.maximum policy = .ok t) ∧ 0 < t ∧ t < 1 ∧ s.slope t = 0 ∧
      s.eval 1 ≤ s.eval t := by
  have hmean : 0 < s.d + s.c + s.b := by
    rw [eval_real, eval_real] at hstart
    linarith
  have hfall : 3 * s.d + 2 * s.c + s.b < 0 := by
    rw [slope_real] at hend
    linarith
  by_cases hd : s.d = 0
  · have hneg : s.c < 0 := by linarith
    obtain ⟨t, hmax, ht⟩ := maximum_of_parabola hd hneg.ne
    refine ⟨t, hmax, by nlinarith, by nlinarith, ?_, ?_⟩
    · rw [slope_real, hd]
      linarith
    · rw [eval_real, eval_real, hd]
      have hb : s.b = -(2 * s.c * t) := by linarith
      rw [hb]
      nlinarith [sq_nonneg (1 - t)]
  · -- the segment read backwards starts at its end
    have hdisc : discriminant (3 * -s.d) (2 * (3 * s.d + s.c)) (-(3 * s.d + 2 * s.c + s.b)) =
        discriminant (3 * s.d) (2 * s.c) s.b := by
      rw [discriminant, discriminant]
      ring
    have hnonneg := discriminant_nonneg_of_le (d := -s.d) (c := 3 * s.d + s.c)
      (b := -(3 * s.d + 2 * s.c + s.b)) (by linarith) (by linarith)
    rw [hdisc] at hnonneg
    obtain ⟨t, u, hmax, hc, hb, hside⟩ := maximum_of_real_roots hd hnonneg
    have hprod : 3 * s.d + 2 * s.c + s.b = 3 * s.d * ((1 - t) * (1 - u)) := by
      rw [hc, hb]
      ring
    obtain ⟨h0, h1, hrise⟩ := root_mem_of_mean_nonpos (neg_ne_zero.mpr hd) (t := 1 - t)
      (u := 1 - u) (by linarith) (by linarith) (by rw [hc, hb] at hmean; linarith)
    have hne : t ≠ 1 := by
      rintro rfl
      rw [hprod] at hfall
      simp at hfall
    refine ⟨t, hmax, by linarith, lt_of_le_of_ne (by linarith) hne, ?_, ?_⟩
    · rw [slope_real, hc, hb]
      ring
    · have hval : s.eval t - s.eval 1 = -s.d * ((1 - t) ^ 2 * (3 * (1 - u) - (1 - t))) / 2 := by
        rw [eval_real, eval_real, hc, hb]
        ring
      linarith

end GyroDelay.Spline.Segment
