import GyroDelay.Proofs.Correlation.Argmax
import GyroDelay.Proofs.Correlation.Maximum
import GyroDelay.Proofs.Spline.Hermite

/-!
# The refined peak

In exact arithmetic the peak that is refined from a correlation curve lies less than one
sample from its highest entry, at a stationary point of the spline that is no lower
(`refine_of_interior_peak`). Complex roots and a peak at the boundary do not occur as long
as the highest entry is not the last one.

The segments are Hermite cubics, so the values at both ends and the slopes there are known
without solving the equations of the spline. A first maximum is above the entry before it
and not below the entry after it, and that together with the sign of the slope places the
maximum of the cubic inside the segment (`Segment.maximum_of_rising_start`,
`Segment.maximum_of_falling_end`).
-/

namespace GyroDelay

namespace Correlation

open Spline Scalar

/-! ## The segments of a curve -/

/-- The indices of a curve as knots. -/
noncomputable def indexKnots (n : ℕ) : List ℝ := (List.range n).map fun i : ℕ => (i : ℝ)

theorem length_indexKnots (n : ℕ) : (indexKnots n).length = n := by
  simp [indexKnots]

theorem pairwise_indexKnots (n : ℕ) : (indexKnots n).Pairwise (· < ·) := by
  rw [indexKnots, List.pairwise_map]
  exact List.pairwise_lt_range.imp fun h => Nat.cast_lt.mpr h

theorem differences_indexKnots (n : ℕ) : ∀ d ∈ differences (indexKnots n), d = 1 := by
  intro d hd
  obtain ⟨i, hi, rfl⟩ := List.getElem_of_mem hd
  simp [differences, indexKnots]

theorem between_index (n : ℕ) :
    Grid.between zero (ofNat n) (ofNat 1) = .ok (indexKnots n) := by
  have hsize : Grid.size (zero : ℝ) (ofNat n) (ofNat 1) = .ok n := by
    simp [Grid.size]
  rw [Grid.between, hsize]
  simp [Except.map, Grid.points, indexKnots]

/-- The spline through a correlation curve over its indices. -/
noncomputable def Curve.spline (c : Curve ℝ) : Natural ℝ :=
  Natural.through (indexKnots c.values.length) c.values

namespace Curve

variable {c : Curve ℝ} (h : 2 ≤ c.values.length)

include h

theorem fit_spline : Natural.fit (indexKnots c.values.length) c.values = .ok c.spline :=
  fit_eq_ok (length_indexKnots _) h (pairwise_indexKnots _)

theorem segments_eq_ok : c.segments = .ok c.spline.segments := by
  rw [segments, between_index]
  simp only [bind, Except.bind, fit_spline h, pure, Except.pure]

theorem values_spline : c.spline.values = c.values :=
  values_through (length_indexKnots _) h

theorem length_slopes_spline : c.spline.pinnedSlopes.length = c.values.length := by
  rw [spline, length_pinnedSlopes_through (length_indexKnots _) h]

/-- Each segment takes the entries and the pinned slopes at its ends. -/
theorem exists_segment {i : ℕ} (hi : i + 1 < c.values.length) :
    ∃ s, c.spline.segments[i]? = some s ∧
      s.eval 0 = c.values.getD i 0 ∧ s.eval 1 = c.values.getD (i + 1) 0 ∧
      s.slope 0 = c.spline.pinnedSlopes.getD i 0 ∧
      s.slope 1 = c.spline.pinnedSlopes.getD (i + 1) 0 := by
  have hform : IsHermiteForm c.spline (indexKnots c.values.length) c.values 1 :=
    isHermiteForm_through (length_indexKnots _) h one_pos (differences_indexKnots _)
  have hlt : i < c.spline.segments.length := by
    rw [hform.length_segments, length_indexKnots]
    omega
  have hs := List.getElem?_eq_getElem hlt
  exact ⟨_, hs, hform.ends i _ hs⟩

end Curve

/-! ## The step back -/

theorem refine_of_rising {segments : Array (Segment ℝ)} {p : ℕ} {s : Segment ℝ}
    (hs : segments[p]? = some s) (hb : 0 ≤ s.b) (policy : RootPolicy) :
    refine segments p policy = (s.maximum policy).map (⟨p, false, ·⟩) := by
  have hb' : ¬ s.b < zero := by
    rw [zero_real]
    exact not_lt.mpr hb
  rw [Correlation.refine, hs]
  simp only [if_neg hb']

theorem refine_of_falling {segments : Array (Segment ℝ)} {p : ℕ} {s before : Segment ℝ}
    (hs : segments[p + 1]? = some s) (hbefore : segments[p]? = some before) (hb : s.b < 0)
    (policy : RootPolicy) :
    refine segments (p + 1) policy = (before.maximum policy).map (⟨p, true, ·⟩) := by
  have hb' : s.b < zero := by
    rw [zero_real]
    exact hb
  rw [Correlation.refine, hs]
  simp only [if_pos hb', Array.getD_eq_getD_getElem?, hbefore, Option.getD_some]

/-! ## The refined peak -/

/-- A refined peak of a curve: a stationary point of a segment of the spline that is no lower
than the highest entry and less than one sample away from it. -/
structure IsRefined (c : Curve ℝ) (peak : Peak ℝ) : Prop where
  /-- The segment begins at the highest entry, or it was moved back by one. -/
  place : (peak.index = c.peak ∧ peak.corrected = false) ∨
    (peak.index + 1 = c.peak ∧ peak.corrected = true)
  offset_nonneg : 0 ≤ peak.offset
  offset_lt_one : peak.offset < 1
  /-- The cubic of the segment is stationary there and no lower than the highest entry. -/
  stationary : ∃ s, c.spline.segments[peak.index]? = some s ∧ s.slope peak.offset = 0 ∧
    c.values.getD c.peak 0 ≤ s.eval peak.offset
  near : |peak.index + peak.offset - c.peak| < 1

/-- A curve that is constant from its highest entry to the next one, with no slope at either. -/
def IsFlat (c : Curve ℝ) : Prop :=
  c.values.getD (c.peak + 1) 0 = c.values.getD c.peak 0 ∧
    c.spline.pinnedSlopes.getD c.peak 0 = 0 ∧ c.spline.pinnedSlopes.getD (c.peak + 1) 0 = 0

section Interior

variable {c : Curve ℝ} (hmax : IsFirstMax c.values c.peak) (hp : c.peak + 1 < c.values.length)

include hmax hp

/-- Without a negative slope at the highest entry the maximum is in the segment after it. -/
theorem refine_rising (hslope : 0 ≤ c.spline.pinnedSlopes.getD c.peak 0) :
    (IsFlat c ∧ ∀ policy,
      refine c.spline.segments.toArray c.peak policy = .error .degenerateQuadratic) ∨
    ∃ peak, IsRefined c peak ∧ ∀ policy,
      refine c.spline.segments.toArray c.peak policy = .ok peak := by
  obtain ⟨s, hs, h0, h1, hb0, hb1⟩ := c.exists_segment (by omega) hp
  have hb : 0 ≤ s.b := by
    rw [← Segment.slope_zero, hb0]
    exact hslope
  have hget : c.spline.segments.toArray[c.peak]? = some s := by simpa using hs
  have hrefine := refine_of_rising hget hb
  have hle := hmax.le (c.peak + 1) hp
  rcases Segment.maximum_of_rising_start (hb0 ▸ hslope) (by rw [h0, h1]; exact hle) with
    ⟨hd, hc, hb, hfault⟩ | ⟨t, ht, ht0, ht1, hstat, hval⟩
  · left
    refine ⟨⟨?_, ?_, ?_⟩, ?_⟩
    · rw [← h0, ← h1, Segment.eval_real, Segment.eval_real, hd, hc, hb]
      ring
    · rw [← hb0, Segment.slope_zero, hb]
    · rw [← hb1, Segment.slope_real, hd, hc, hb]
      ring
    · intro policy
      rw [hrefine, hfault]
      rfl
  · right
    refine ⟨⟨c.peak, false, t⟩, ⟨Or.inl ⟨rfl, rfl⟩, ht0, ht1, ⟨s, hs, hstat, ?_⟩, ?_⟩, ?_⟩
    · rw [← h0]
      exact hval
    · rw [add_sub_cancel_left, abs_of_nonneg ht0]
      exact ht1
    · intro policy
      rw [hrefine, ht]
      rfl

/-- A negative slope at the highest entry puts the maximum into the segment before it. -/
theorem refine_falling (hslope : c.spline.pinnedSlopes.getD c.peak 0 < 0) :
    ∃ peak, IsRefined c peak ∧ ∀ policy,
      refine c.spline.segments.toArray c.peak policy = .ok peak := by
  -- the slope at the first entry is pinned to zero, so there is an entry before this one
  obtain ⟨p, hpeak⟩ : ∃ p, c.peak = p + 1 := by
    refine Nat.exists_eq_succ_of_ne_zero fun h0 => ?_
    rw [h0, Natural.pinnedSlopes_zero] at hslope
    exact lt_irrefl 0 hslope
  rw [hpeak] at hslope hp
  obtain ⟨s, hs, -, -, hb, -⟩ := c.exists_segment (by omega) hp
  obtain ⟨before, hbefore, h0, h1, -, hb1⟩ := c.exists_segment (by omega) (Nat.lt_of_succ_lt hp)
  have hget : c.spline.segments.toArray[p + 1]? = some s := by simpa using hs
  have hgetBefore : c.spline.segments.toArray[p]? = some before := by simpa using hbefore
  have hrefine := refine_of_falling hget hgetBefore (by rw [← Segment.slope_zero, hb]; exact hslope)
  have hlt : before.eval 0 < before.eval 1 := by
    rw [h0, h1, ← hpeak]
    exact hmax.before p (by omega)
  obtain ⟨t, ht, ht0, ht1, hstat, hval⟩ :=
    Segment.maximum_of_falling_end hlt (by rw [hb1]; exact hslope)
  refine ⟨⟨p, true, t⟩, ⟨Or.inr ⟨hpeak.symm, rfl⟩, ht0.le, ht1, ⟨before, hbefore, hstat, ?_⟩, ?_⟩,
    ?_⟩
  · rw [hpeak, ← h1]
    exact hval
  · rw [hpeak, Nat.cast_succ, abs_sub_lt_iff]
    constructor <;> linarith
  · intro policy
    rw [hpeak, hrefine, ht]
    rfl

/-- The two cases of the step back together. -/
theorem refine_interior :
    (IsFlat c ∧ ∀ policy,
      refine c.spline.segments.toArray c.peak policy = .error .degenerateQuadratic) ∨
    ∃ peak, IsRefined c peak ∧ ∀ policy,
      refine c.spline.segments.toArray c.peak policy = .ok peak := by
  by_cases hslope : c.spline.pinnedSlopes.getD c.peak 0 < 0
  · exact Or.inr (refine_falling hmax hp hslope)
  · exact refine_rising hmax hp (not_lt.mp hslope)

end Interior

/-- **The refined peak.** If the first maximum of a curve is not its last entry, then the
refined peak is the same for both policies. Either the curve is flat there and has no single
stationary point, or the peak is less than one sample away and no lower than the maximum. -/
theorem refine_of_interior_peak (values : List ℝ) (h : argmax values + 2 ≤ values.length) :
    let c : Curve ℝ := ⟨values, argmax values⟩
    Natural.fit (indexKnots values.length) values = .ok c.spline ∧
      c.segments = .ok c.spline.segments ∧
      ((IsFlat c ∧ ∀ policy,
          refine c.spline.segments.toArray c.peak policy = .error .degenerateQuadratic) ∨
        ∃ peak, IsRefined c peak ∧ ∀ policy,
          refine c.spline.segments.toArray c.peak policy = .ok peak) := by
  intro c
  have h2 : 2 ≤ c.values.length := Nat.le_of_add_left_le h
  have hne : values ≠ [] := List.length_pos_iff.mp (by omega)
  exact ⟨c.fit_spline h2, c.segments_eq_ok h2, refine_interior (isFirstMax_argmax hne) h⟩

theorem argmax_three : argmax [(0 : ℝ), 1, 0] = 1 := by
  refine argmax_eq ⟨by decide, ?_, ?_⟩
  · intro i hi
    obtain rfl : i = 0 := by omega
    norm_num
  · intro i hi
    obtain rfl | rfl | rfl : i = 0 ∨ i = 1 ∨ i = 2 := by
      simp only [List.length_cons, List.length_nil] at hi
      omega
    all_goals norm_num

/-- A single tooth has a refined peak. -/
theorem refine_three :
    argmax [(0 : ℝ), 1, 0] + 2 ≤ [(0 : ℝ), 1, 0].length ∧
      ∃ peak, IsRefined ⟨[0, 1, 0], 1⟩ peak ∧ ∀ policy,
        refine (Curve.spline ⟨[0, 1, 0], 1⟩).segments.toArray 1 policy = .ok peak := by
  have h : argmax [(0 : ℝ), 1, 0] + 2 ≤ [(0 : ℝ), 1, 0].length := by
    rw [argmax_three]
    decide
  refine ⟨h, ?_⟩
  have hrefine := (refine_of_interior_peak [0, 1, 0] h).2.2
  rw [argmax_three] at hrefine
  rcases hrefine with ⟨⟨hflat, -⟩, -⟩ | hpeak
  · norm_num at hflat
  · exact hpeak

end Correlation

end GyroDelay
