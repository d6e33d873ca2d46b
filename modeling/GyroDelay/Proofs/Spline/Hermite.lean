import Mathlib.Analysis.Calculus.Deriv.Polynomial
import Mathlib.Topology.Algebra.Module.ModuleTopology
import GyroDelay.Proofs.Spline.NaturalSpline

/-!
# The segments of a spline and the spline

For uniform knots the segments of a spline are rebuilt from its values and slopes at the knots,
with both end slopes pinned to zero. In exact arithmetic each of them takes the values and the
pinned slopes at its knots, so that the segments join with the same value and slope
(`fit_isHermiteForm`). The pinned slopes at the inner knots are the derivatives of the spline
(`hasDerivAt_knot`). A cubic is determined by its values and slopes at two places
(`Segment.hermite_eq`), so a segment without a pinned end is the cubic of the spline there. The
first and the last one are not, unless the spline has no slope at its ends.
-/

namespace GyroDelay.Spline

/-! ## Hermite cubics -/

namespace Segment

theorem hermite_real (dx a₀ a₁ b₀ b₁ : ℝ) :
    hermite dx a₀ a₁ b₀ b₁ =
      { d := -2 * (-(2 * b₀ + b₁) / dx + 3 * (a₁ - a₀) / (dx * dx)) / (3 * dx)
          + (b₁ - b₀) / (3 * dx * dx)
        c := -(2 * b₀ + b₁) / dx + 3 * (a₁ - a₀) / (dx * dx)
        b := b₀
        a := a₀ } := by
  simp only [hermite, Scalar.ofNat_real, Nat.cast_ofNat]

theorem eval_hermite_zero (dx a₀ a₁ b₀ b₁ : ℝ) : (hermite dx a₀ a₁ b₀ b₁).eval 0 = a₀ := by
  rw [hermite_real, eval_real]
  ring

theorem slope_hermite_zero (dx a₀ a₁ b₀ b₁ : ℝ) : (hermite dx a₀ a₁ b₀ b₁).slope 0 = b₀ := by
  rw [hermite_real, slope_real]
  ring

section Width

variable {dx : ℝ} (h : dx ≠ 0)

include h

theorem eval_hermite (a₀ a₁ b₀ b₁ : ℝ) : (hermite dx a₀ a₁ b₀ b₁).eval dx = a₁ := by
  rw [hermite_real, eval_real]
  field_simp
  ring

theorem slope_hermite (a₀ a₁ b₀ b₁ : ℝ) : (hermite dx a₀ a₁ b₀ b₁).slope dx = b₁ := by
  rw [hermite_real, slope_real]
  field_simp
  ring

/-- A cubic is the only one with its values and slopes at two places. -/
theorem hermite_eq (p : Segment ℝ) :
    hermite dx (p.eval 0) (p.eval dx) (p.slope 0) (p.slope dx) = p := by
  obtain ⟨d, c, b, a⟩ := p
  rw [hermite_real, eval_real, eval_real, slope_real, slope_real, mk.injEq]
  refine ⟨?_, ?_, by ring, by ring⟩
  · field_simp
    ring
  · field_simp
    ring

end Width

end Segment

/-! ## Pinned slopes -/

namespace Natural

variable (s : Natural ℝ)

theorem pinnedSlopes_last : s.pinnedSlopes.getD (s.pinnedSlopes.length - 1) 0 = 0 := by
  rw [← getLastD_eq_getD, pinnedSlopes, List.getLastD_concat, Scalar.zero_real]

theorem pinnedSlopes_inner {i : ℕ} (hi : i + 2 < s.slopes.length) :
    s.pinnedSlopes.getD (i + 1) 0 = s.slopes.getD (i + 1) 0 := by
  have hlen : i < (s.slopes.drop 1).dropLast.length := by
    rw [List.length_dropLast, List.length_drop]
    omega
  rw [pinnedSlopes, List.cons_append, List.getD_cons_succ, List.getD_append _ _ _ _ hlen,
    List.getD_eq_getElem _ _ hlen, List.getElem_dropLast, List.getElem_drop,
    List.getD_eq_getElem _ _ (by omega)]
  congr 1
  exact Nat.add_comm 1 i

end Natural

section Through

variable {knots values : List ℝ} (h : knots.length = values.length) (h2 : 2 ≤ values.length)

include h h2

theorem length_pinnedSlopes_through :
    (Natural.through knots values).pinnedSlopes.length = values.length := by
  have hslopes := length_slopes_through h h2
  rw [Natural.length_pinnedSlopes _ (by rwa [hslopes]), hslopes]

omit h2 in
theorem slopes_through_getD {i : ℕ} (hi : i + 1 < values.length) :
    (Natural.through knots values).slopes.getD i 0 = (cubicAt knots values i).slope 0 := by
  have hpiece : ((Natural.through knots values).pieces.toList.map (·.cubic.b))[i]? =
      some (cubicAt knots values i).b := by
    rw [List.getElem?_map, Array.getElem?_toList, pieces_getElem? h hi]
    rfl
  have hlt := (List.getElem?_eq_some_iff.mp hpiece).1
  rw [Natural.slopes, List.getD_append _ _ _ _ hlt, List.getD_eq_getElem?_getD, hpiece,
    Option.getD_some, Segment.slope_zero]

theorem pinnedSlopes_through_inner {i : ℕ} (hi : i + 2 < values.length) :
    (Natural.through knots values).pinnedSlopes.getD (i + 1) 0 =
      (cubicAt knots values (i + 1)).slope 0 := by
  rw [Natural.pinnedSlopes_inner _ (by rwa [length_slopes_through h h2]),
    slopes_through_getD h hi]

variable (hinc : knots.Pairwise (· < ·))

include hinc

/-- The spline has a derivative at an inner knot, the slope of the cubics on both sides. -/
theorem hasDerivAt_knot {i : ℕ} (hi : i + 2 < values.length) :
    HasDerivAt (Natural.through knots values).eval
      ((Natural.through knots values).pinnedSlopes.getD (i + 1) 0) (knots.getD (i + 1) 0) := by
  have hleft : knots.getD i 0 < knots.getD (i + 1) 0 := getD_lt_getD hinc (by omega) (by omega)
  have hright : knots.getD (i + 1) 0 < knots.getD (i + 2) 0 :=
    getD_lt_getD hinc (by omega) (by omega)
  have hderiv (j : ℕ) (hj : j + 1 < values.length)
      (hx : knots.getD (i + 1) 0 ∈ Set.Icc (knots.getD j 0) (knots.getD (j + 1) 0)) :=
    ((pieceAfter knots values j).hasDerivAt (knots.getD (i + 1) 0)).hasDerivWithinAt.congr
      (fun x hx => eval_on_piece h h2 hinc hj hx) (eval_on_piece h h2 hinc hj hx)
  have hbefore := hderiv i (by omega) (Set.right_mem_Icc.mpr hleft.le)
  have hafter := hderiv (i + 1) hi (Set.left_mem_Icc.mpr hright.le)
  rw [eval_derivative_pieceAfter, ← width, slope_cubicAt_succ h hinc hi] at hbefore
  rw [eval_derivative_pieceAfter, sub_self] at hafter
  have hboth := hbefore.union hafter
  rw [Set.Icc_union_Icc_eq_Icc hleft.le hright.le] at hboth
  rw [pinnedSlopes_through_inner h h2 hi]
  exact hboth.hasDerivAt (Icc_mem_nhds hleft hright)

end Through

/-! ## Segments over uniform knots -/

section Uniform

variable {knots values : List ℝ} (h : knots.length = values.length) {dx : ℝ}
  (hu : ∀ d ∈ differences knots, d = dx)

include hu

theorem pairwise_of_uniform (hpos : 0 < dx) : knots.Pairwise (· < ·) := by
  rw [pairwise_lt_iff_differences_pos]
  intro d hd
  rwa [hu d hd]

theorem width_of_uniform {i : ℕ} (hi : i + 1 < knots.length) : width knots i = dx :=
  hu _ (List.mem_of_getElem? (differences_getElem? knots hi))

include h

theorem spacing_through (h2 : 2 ≤ values.length) : (Natural.through knots values).spacing = dx := by
  have hgap := differences_getElem? knots (i := 0) (by omega)
  rw [Natural.spacing, knots_through h h2, List.headD_eq_head?_getD, List.head?_eq_getElem?, hgap]
  exact width_of_uniform hu (by omega)

/-- The segment between two neighbouring knots. -/
theorem segments_through_getElem? {i : ℕ} (hi : i + 1 < values.length) :
    (Natural.through knots values).segments[i]? =
      some (Segment.hermite dx (values.getD i 0) (values.getD (i + 1) 0)
        ((Natural.through knots values).pinnedSlopes.getD i 0)
        ((Natural.through knots values).pinnedSlopes.getD (i + 1) 0)) := by
  have hv := values_through h (by omega)
  have hs := length_pinnedSlopes_through h (by omega)
  rw [Natural.segments_getElem? _ (by rwa [hv]) (by rw [hv, hs]), hv,
    spacing_through h hu (by omega)]

/-- Between inner knots nothing is pinned, and the segment is the cubic of the spline. -/
theorem segments_through_inner (hpos : 0 < dx) {i : ℕ} (hi : i + 3 < values.length) :
    (Natural.through knots values).segments[i + 1]? = some (cubicAt knots values (i + 1)) := by
  have hinc := pairwise_of_uniform hu hpos
  have hwidth := width_of_uniform hu (i := i + 1) (by omega)
  have hvalue : (cubicAt knots values (i + 1)).eval dx = values.getD (i + 2) 0 := by
    rw [← hwidth]
    exact eval_cubicAt (hwidth.symm ▸ hpos.ne')
  have hslope : (cubicAt knots values (i + 1)).slope dx =
      (cubicAt knots values (i + 2)).slope 0 := by
    rw [← hwidth]
    exact slope_cubicAt_succ h hinc hi
  rw [segments_through_getElem? h hu (by omega), pinnedSlopes_through_inner h (by omega) (by omega),
    pinnedSlopes_through_inner h (by omega) hi, ← hvalue, ← hslope,
    ← eval_cubicAt_zero (i + 1), Segment.hermite_eq hpos.ne']

end Uniform

/-- What the segments of a spline through points have to do with the spline, for knots at
distances `dx`. -/
structure IsHermiteForm (s : Natural ℝ) (knots values : List ℝ) (dx : ℝ) : Prop where
  length_segments : s.segments.length = knots.length - 1
  length_pinnedSlopes : s.pinnedSlopes.length = knots.length
  pinned_first : s.pinnedSlopes.getD 0 0 = 0
  pinned_last : s.pinnedSlopes.getD (knots.length - 1) 0 = 0
  pinned_inner : ∀ i, i + 2 < knots.length →
    HasDerivAt s.eval (s.pinnedSlopes.getD (i + 1) 0) (knots.getD (i + 1) 0)
  /-- A segment takes the values and the pinned slopes at its knots. -/
  ends : ∀ i p, s.segments[i]? = some p →
    p.eval 0 = values.getD i 0 ∧ p.eval dx = values.getD (i + 1) 0 ∧
      p.slope 0 = s.pinnedSlopes.getD i 0 ∧ p.slope dx = s.pinnedSlopes.getD (i + 1) 0
  join : ∀ i p q, s.segments[i]? = some p → s.segments[i + 1]? = some q →
    p.eval dx = q.eval 0 ∧ p.slope dx = q.slope 0
  /-- A segment that touches neither end is the cubic of the spline. -/
  inner : ∀ i p, 0 < i → i + 2 < knots.length → s.segments[i]? = some p →
    s.pieces[i]? = some ⟨knots.getD i 0, p⟩ ∧
      ∀ t ∈ Set.Icc 0 dx, p.eval t = s.eval (knots.getD i 0 + t)

theorem isHermiteForm_through {knots values : List ℝ} (h : knots.length = values.length)
    (h2 : 2 ≤ values.length) {dx : ℝ} (hpos : 0 < dx) (hu : ∀ d ∈ differences knots, d = dx) :
    IsHermiteForm (Natural.through knots values) knots values dx := by
  have hinc := pairwise_of_uniform hu hpos
  have hslopes := length_pinnedSlopes_through h h2
  have hlength : (Natural.through knots values).segments.length = values.length - 1 := by
    simp only [Natural.segments, List.length_zipWith, List.length_zip, List.length_tail,
      values_through h h2, hslopes]
    omega
  have hlt (i : ℕ) (p : Segment ℝ) (hp : (Natural.through knots values).segments[i]? = some p) :
      i + 1 < values.length := by
    have := (List.getElem?_eq_some_iff.mp hp).1
    omega
  have hends (i : ℕ) (p : Segment ℝ) (hp : (Natural.through knots values).segments[i]? = some p) :
      p.eval 0 = values.getD i 0 ∧ p.eval dx = values.getD (i + 1) 0 ∧
        p.slope 0 = (Natural.through knots values).pinnedSlopes.getD i 0 ∧
        p.slope dx = (Natural.through knots values).pinnedSlopes.getD (i + 1) 0 := by
    rw [segments_through_getElem? h hu (hlt i p hp)] at hp
    cases hp
    exact ⟨Segment.eval_hermite_zero _ _ _ _ _, Segment.eval_hermite hpos.ne' _ _ _ _,
      Segment.slope_hermite_zero _ _ _ _ _, Segment.slope_hermite hpos.ne' _ _ _ _⟩
  constructor
  case length_segments => rw [hlength, h]
  case length_pinnedSlopes => rw [hslopes, h]
  case pinned_first => exact Natural.pinnedSlopes_zero _
  case pinned_last =>
    rw [h, ← hslopes]
    exact Natural.pinnedSlopes_last _
  case pinned_inner =>
    intro i hi
    exact hasDerivAt_knot h h2 hinc (h ▸ hi)
  case ends => exact hends
  case join =>
    intro i p q hp hq
    obtain ⟨-, hvalue, -, hslope⟩ := hends i p hp
    obtain ⟨hvalue', -, hslope', -⟩ := hends (i + 1) q hq
    exact ⟨hvalue.trans hvalue'.symm, hslope.trans hslope'.symm⟩
  case inner =>
    intro i p hi hi' hp
    obtain ⟨i, rfl⟩ := Nat.exists_eq_add_one_of_ne_zero hi.ne'
    have hwidth := width_of_uniform hu (i := i + 1) (by omega)
    rw [segments_through_inner h hu hpos (by omega)] at hp
    cases hp
    refine ⟨pieces_getElem? h (by omega), fun t ht => ?_⟩
    have hle : t ≤ knots.getD (i + 2) 0 - knots.getD (i + 1) 0 := ht.2.trans_eq hwidth.symm
    have hmem : knots.getD (i + 1) 0 + t ∈
        Set.Icc (knots.getD (i + 1) 0) (knots.getD (i + 2) 0) :=
      ⟨le_add_of_nonneg_right ht.1, le_sub_iff_add_le'.mp hle⟩
    rw [eval_on_piece h h2 hinc (by omega) hmem, eval_pieceAfter, add_sub_cancel_left]

/-- **The Hermite form.** A fit through two or more knots at distances `dx` succeeds. Its segments
take the values and the pinned slopes at the knots, they join with the same value and slope, and
those that touch neither end are the cubics of the spline. -/
theorem fit_isHermiteForm {knots values : List ℝ} (h : knots.length = values.length)
    (h2 : 2 ≤ values.length) {dx : ℝ} (hpos : 0 < dx) (hu : ∀ d ∈ differences knots, d = dx) :
    ∃ s, Natural.fit knots values = .ok s ∧ IsHermiteForm s knots values dx :=
  ⟨Natural.through knots values, fit_eq_ok h h2 (pairwise_of_uniform hu hpos),
    isHermiteForm_through h h2 hpos hu⟩

/-- Of the three segments through four points the middle one is the spline. -/
theorem fit_four_points :
    (∀ d ∈ differences [(0 : ℝ), 2, 4, 6], d = 2) ∧
      ∃ s p, Natural.fit [0, 2, 4, 6] [(1 : ℝ), 0, 3, 1] = .ok s ∧
        IsHermiteForm s [0, 2, 4, 6] [1, 0, 3, 1] 2 ∧ s.segments[1]? = some p ∧
        ∀ t ∈ Set.Icc 0 2, p.eval t = s.eval (2 + t) := by
  have hu : ∀ d ∈ differences [(0 : ℝ), 2, 4, 6], d = 2 := by
    norm_num [differences]
  have hlength : ([0, 2, 4, 6] : List ℝ).length = ([1, 0, 3, 1] : List ℝ).length := rfl
  obtain ⟨s, hfit, hform⟩ := fit_isHermiteForm hlength (by simp) two_pos hu
  have hlen : 1 < s.segments.length := by
    rw [hform.length_segments]
    decide
  refine ⟨hu, s, s.segments[1], hfit, hform, List.getElem?_eq_getElem hlen, ?_⟩
  exact (hform.inner 1 _ one_pos (by decide) (List.getElem?_eq_getElem hlen)).2

end GyroDelay.Spline
