import GyroDelay.Proofs.Correlation.Direct
import GyroDelay.Proofs.Correlation.Refinement
import GyroDelay.Proofs.Spline.Linearity

/-!
# The scale of a correlation curve

The gains of two sensors multiply their correlation curve by a number
(`Curve.between_map_mul`). A positive factor on all entries of a curve changes neither the
refined peak nor the fault (`refine_scale`): the segments of the scaled curve are the scaled
segments (`Curve.segments_scale`), and no factor moves the stationary points of a cubic or
the sign of its slopes.
-/

namespace GyroDelay

theorem mul_neg_iff_of_pos {k : ℝ} (hk : 0 < k) (x : ℝ) : k * x < 0 ↔ x < 0 := by
  rw [← not_le, ← not_le, mul_nonneg_iff_of_pos_left hk]

namespace Spline

/-! ## Segments -/

namespace Segment

/-- A cubic times a number. -/
noncomputable def scale (k : ℝ) (s : Segment ℝ) : Segment ℝ :=
  ⟨k * s.d, k * s.c, k * s.b, k * s.a⟩

theorem scale_hermite (k dx a₀ a₁ b₀ b₁ : ℝ) :
    (hermite dx a₀ a₁ b₀ b₁).scale k = hermite dx (k * a₀) (k * a₁) (k * b₀) (k * b₁) := by
  simp only [hermite_real, scale, Segment.mk.injEq, and_self, and_true]
  refine ⟨?_, ?_⟩ <;> ring

theorem slope_scale (k : ℝ) (s : Segment ℝ) (t : ℝ) : (s.scale k).slope t = k * s.slope t := by
  rw [slope_real, slope_real, scale]
  ring

theorem maximum_scale {k : ℝ} (hk : 0 < k) (s : Segment ℝ) (policy : RootPolicy) :
    (s.scale k).maximum policy = s.maximum policy := by
  have hroots : Quadratic.roots (3 * (s.scale k).d) (2 * (s.scale k).c) (s.scale k).b =
      Quadratic.roots (3 * s.d) (2 * s.c) s.b := by
    rw [scale, mul_left_comm 3, mul_left_comm 2, Quadratic.roots_mul hk]
  have hneg (t : ℝ) : (s.scale k).slope t < 0 ↔ s.slope t < 0 := by
    rw [slope_scale, mul_neg_iff_of_pos hk]
  rw [maximum_real, maximum_real, hroots]
  simp only [hneg]

end Segment

/-! ## Splines -/

theorem mix_zero (k : ℝ) (xs : List ℝ) : mix k 0 xs xs = xs.map (k * ·) := by
  have h := mix_map k 0 id id xs
  rw [List.map_id] at h
  rw [h]
  exact List.map_congr_left fun x _ => by simp

theorem slopes_mix {s t : Natural ℝ} (h : s.pieces.size = t.pieces.size) (u v : ℝ) :
    (s.mix u v t).slopes = mix u v s.slopes t.slopes := by
  rw [Natural.slopes, Natural.slopes, Natural.slopes, mix,
    List.zipWith_append (by simpa using h)]
  congr 1
  apply List.ext_getElem
  · simp [Natural.mix, h]
  · intro i _ _
    simp [Natural.mix, Piece.mix, Segment.mix]

section Through

variable {knots values : List ℝ} (h : knots.length = values.length) (h2 : 2 ≤ values.length)
  (k : ℝ)

include h h2

theorem slopes_through_scale :
    (Natural.through knots (values.map (k * ·))).slopes =
      (Natural.through knots values).slopes.map (k * ·) := by
  rw [← mix_zero, through_mix k 0 h h h2, slopes_mix rfl, mix_zero]

theorem pinnedSlopes_through_scale :
    (Natural.through knots (values.map (k * ·))).pinnedSlopes =
      (Natural.through knots values).pinnedSlopes.map (k * ·) := by
  simp [Natural.pinnedSlopes, slopes_through_scale h h2]

theorem segments_through_scale :
    (Natural.through knots (values.map (k * ·))).segments =
      (Natural.through knots values).segments.map (Segment.scale k) := by
  have hk : knots.length = (values.map (k * ·)).length := by rw [List.length_map, h]
  have h2k : 2 ≤ (values.map (k * ·)).length := by rw [List.length_map]; exact h2
  have hspacing : (Natural.through knots (values.map (k * ·))).spacing =
      (Natural.through knots values).spacing := by
    rw [Natural.spacing, Natural.spacing, knots_through hk h2k, knots_through h h2]
  rw [Natural.segments, hspacing, values_through hk h2k, pinnedSlopes_through_scale h h2,
    Natural.segments, values_through h h2]
  apply List.ext_getElem
  · simp
  · intro i _ _
    simp [Segment.scale_hermite]

end Through

end Spline

namespace Correlation

open Spline

/-! ## Curves -/

/-- A correlation curve with all entries multiplied by a number. -/
noncomputable def Curve.scale (k : ℝ) (c : Curve ℝ) : Curve ℝ := ⟨c.values.map (k * ·), c.peak⟩

theorem signal_map_mul (u : ℝ) (xs : List ℝ) (i : ℤ) :
    signal (xs.map (u * ·)) i = u * signal xs i := by
  have hget (n : ℕ) : (xs.map (u * ·)).getD n 0 = u * xs.getD n 0 := by
    have h := List.getD_map (n := n) xs 0 (u * ·)
    rwa [mul_zero] at h
  rw [signal, signal, hget, mul_ite, mul_zero]

theorem direct_map_mul (u v : ℝ) (xs ys : List ℝ) (lag : ℤ) :
    direct (xs.map (u * ·)) (ys.map (v * ·)) lag = u * v * direct xs ys lag := by
  rw [direct_eq_sum_signal, direct_eq_sum_signal, List.length_map, Finset.mul_sum]
  apply Finset.sum_congr rfl
  intro m _
  rw [signal_map_mul, signal_map_mul]
  ring

theorem full_map_mul (u v : ℝ) (xs ys : List ℝ) :
    full (xs.map (u * ·)) (ys.map (v * ·)) = (full xs ys).map (List.map (u * v * ·)) := by
  by_cases hempty : xs = [] ∨ ys = []
  · have hfault : xs.isEmpty || ys.isEmpty := by simpa using hempty
    simp [full, hfault, Except.map]
  · obtain ⟨hx, hy⟩ := not_or.mp hempty
    obtain ⟨values, hok, hlen, hget⟩ := full_eq_ok hx hy
    obtain ⟨values', hok', hlen', hget'⟩ := full_eq_ok (a := xs.map (u * ·)) (b := ys.map (v * ·))
      (by simpa using hx) (by simpa using hy)
    rw [List.length_map, List.length_map, ← hlen] at hlen'
    rw [hok, hok', Except.map]
    congr 1
    apply List.ext_getElem?
    intro i
    rw [List.getElem?_map]
    by_cases hi : i < values.length
    · rw [hget i hi, hget' i (hlen' ▸ hi), direct_map_mul, List.length_map]
      rfl
    · rw [List.getElem?_eq_none (by omega), List.getElem?_eq_none (by omega)]
      rfl

/-- The gains of two signals scale their curve and leave its peak where it is. -/
theorem Curve.between_map_mul {u v : ℝ} (hu : 0 < u) (hv : 0 < v) (xs ys : List ℝ) :
    Curve.between (xs.map (u * ·)) (ys.map (v * ·)) =
      (Curve.between xs ys).map (Curve.scale (u * v)) := by
  rw [between, between, full_map_mul]
  cases full xs ys with
  | error fault => rfl
  | ok values =>
    simp only [Except.map, scale, argmax_map_mul (mul_pos hu hv)]

theorem Curve.segments_scale (k : ℝ) (c : Curve ℝ) :
    (c.scale k).segments = c.segments.map (List.map (Segment.scale k)) := by
  have hlen : (c.scale k).values.length = c.values.length := List.length_map _
  by_cases h2 : 2 ≤ c.values.length
  · rw [segments_eq_ok (hlen ▸ h2), segments_eq_ok h2, spline, hlen, scale,
      segments_through_scale (length_indexKnots _) h2]
    rfl
  · have hfit (values : List ℝ) (hv : values.length = c.values.length) :
        Natural.fit (indexKnots c.values.length) values =
          .error (.invalidInput (.fewKnots c.values.length)) := by
      rw [Natural.fit, if_neg (by rw [length_indexKnots, hv]; simp), length_indexKnots,
        if_pos (by omega)]
    rw [segments, segments, hlen, between_index]
    simp only [bind, Except.bind, hfit _ hlen, hfit _ rfl, Except.map]

theorem refine_scale {k : ℝ} (hk : 0 < k) (segments : List (Segment ℝ)) (peak : ℕ)
    (policy : RootPolicy) :
    refine (segments.map (Segment.scale k)).toArray peak policy =
      refine segments.toArray peak policy := by
  rw [Correlation.refine, Correlation.refine, List.getElem?_toArray, List.getElem?_toArray,
    List.getElem?_map]
  cases segments[peak]? with
  | none => simp
  | some s =>
    have hneg : (s.scale k).b < Scalar.zero ↔ s.b < Scalar.zero := by
      rw [Scalar.zero_real, Segment.scale, mul_neg_iff_of_pos hk]
    have hbefore (i : ℕ) : (segments.map (Segment.scale k)).toArray.getD i (s.scale k) =
        (segments.toArray.getD i s).scale k := by
      rw [Array.getD_eq_getD_getElem?, Array.getD_eq_getD_getElem?, List.getElem?_toArray,
        List.getElem?_toArray, List.getElem?_map]
      cases segments[i]? <;> rfl
    cases peak with
    | zero =>
      simp only [Option.map_some, hneg, Segment.maximum_scale hk, List.size_toArray,
        List.length_map]
    | succ p => simp only [Option.map_some, hneg, hbefore, Segment.maximum_scale hk]

end Correlation

end GyroDelay
