import GyroDelay.Proofs.Spline.Linearity

/-!
# Splines read by another clock

In exact arithmetic a spline through knots that another clock stamps (`retime`) takes the
same values at the same instants (`eval_through_retime`). A clock that runs `c` times as fast
multiplies the widths of the pieces by `c`. The equations for the second derivatives then
have their left sides multiplied by `c` and their right sides divided by it, so the solution
is divided by `c` twice (`solveTridiagonal_dilate`), and the coefficients of the cubics are
divided once for each power (`cubics_retime`).
-/

namespace GyroDelay

/-- The time that a clock shows which runs `c` times as fast and is `s` ahead at time zero. -/
noncomputable def retime (c s t : ℝ) : ℝ := c * t + s

theorem retime_sub_retime (c s t u : ℝ) : retime c s t - retime c s u = c * (t - u) := by
  rw [retime, retime]
  ring

theorem retime_lt_retime {c : ℝ} (hc : 0 < c) (s : ℝ) {t u : ℝ} :
    retime c s t < retime c s u ↔ t < u := by
  rw [← sub_pos, retime_sub_retime, mul_pos_iff_of_pos_left hc, sub_pos]

theorem retime_le_retime {c : ℝ} (hc : 0 < c) (s : ℝ) {t u : ℝ} :
    retime c s t ≤ retime c s u ↔ t ≤ u := by
  rw [← not_lt, ← not_lt, retime_lt_retime hc]

theorem differences_retime (c s : ℝ) (times : List ℝ) :
    differences (times.map (retime c s)) = (differences times).map (c * ·) := by
  apply List.ext_getElem
  · simp only [length_differences, List.length_map]
  · intro i _ _
    simp only [differences, List.getElem_zipWith, List.getElem_tail, List.getElem_map,
      retime_sub_retime]

namespace Spline

/-! ## The equations for the second derivatives -/

/-- An equation with its left side multiplied by `u` and its solution by `w`. -/
noncomputable def Equation.dilate (u w : ℝ) (e : Equation ℝ) : Equation ℝ :=
  { sub := u * e.sub, diag := u * e.diag, sup := u * e.sup, rhs := u * (w * e.rhs) }

noncomputable def Eliminated.dilate (w : ℝ) (e : Eliminated ℝ) : Eliminated ℝ :=
  { e with rhs := w * e.rhs }

section Elimination

variable {u : ℝ} (hu : u ≠ 0) (w : ℝ)

include hu in
theorem eliminate_dilate (before : Option (Eliminated ℝ)) (e : Equation ℝ) :
    eliminate (before.map (Eliminated.dilate w)) (e.dilate u w) =
      (eliminate before e).dilate w := by
  cases before with
  | none =>
    simp only [eliminate, Option.map_none, Equation.dilate, Eliminated.dilate,
      mul_div_mul_left _ _ hu, mul_div_assoc]
  | some p =>
    -- the factor of the left side cancels between the pivot and what it divides
    have hpivot : u * e.diag - u * e.sub * p.sup = u * (e.diag - e.sub * p.sup) := by ring
    have hrhs : u * (w * e.rhs) - u * e.sub * (w * p.rhs) = u * (w * (e.rhs - e.sub * p.rhs)) := by
      ring
    simp only [eliminate, Option.map_some, Equation.dilate, Eliminated.dilate, hpivot, hrhs,
      mul_div_mul_left _ _ hu, mul_div_assoc]

include hu in
theorem forward_dilate (system : List (Equation ℝ)) :
    forward (system.map (Equation.dilate u w)) = (forward system).map (Eliminated.dilate w) := by
  have hrun (done : List (Eliminated ℝ)) :
      (system.map (Equation.dilate u w)).foldl (fun done e => eliminate done.head? e :: done)
          (done.map (Eliminated.dilate w)) =
        (system.foldl (fun done e => eliminate done.head? e :: done) done).map
          (Eliminated.dilate w) := by
    induction system generalizing done with
    | nil => rfl
    | cons e system ih =>
      rw [List.map_cons, List.foldl_cons, List.foldl_cons, List.head?_map, eliminate_dilate hu,
        ← List.map_cons, ih]
  exact hrun []

theorem substitute_dilate (after : List ℝ) (e : Eliminated ℝ) :
    substitute (after.map (w * ·)) (e.dilate w) = (substitute after e).map (w * ·) := by
  cases after with
  | nil => rfl
  | cons v rest =>
    simp only [substitute, Eliminated.dilate, List.map_cons, List.cons.injEq, and_true]
    ring

include hu in
theorem solveTridiagonal_dilate (system : List (Equation ℝ)) :
    solveTridiagonal (system.map (Equation.dilate u w)) =
      (solveTridiagonal system).map (w * ·) := by
  have hrun (rows : List (Eliminated ℝ)) (after : List ℝ) :
      (rows.map (Eliminated.dilate w)).foldl substitute (after.map (w * ·)) =
        (rows.foldl substitute after).map (w * ·) := by
    induction rows generalizing after with
    | nil => rfl
    | cons e rows ih =>
      rw [List.map_cons, List.foldl_cons, List.foldl_cons, substitute_dilate, ih]
  unfold solveTridiagonal
  rw [forward_dilate hu]
  exact hrun _ []

end Elimination

section Knots

variable {c : ℝ} (hc : c ≠ 0) (s : ℝ) (knots values : List ℝ)

theorem chords_retime :
    chords (knots.map (retime c s)) values = (chords knots values).map (c⁻¹ * ·) := by
  apply List.ext_getElem
  · simp only [chords, List.length_zipWith, List.length_map, length_differences]
  · intro i _ _
    simp only [chords, differences_retime, List.getElem_zipWith, List.getElem_map]
    ring

include hc

theorem curvatureSystem_dilate (widths chords : List ℝ) :
    curvatureSystem (widths.map (c * ·)) (chords.map (c⁻¹ * ·)) =
      (curvatureSystem widths chords).map (Equation.dilate c (c⁻¹ * c⁻¹)) := by
  apply List.ext_getElem
  · simp only [curvatureSystem, List.length_zipWith, List.length_zip, List.length_tail,
      List.length_map]
  · -- a right side is a difference of chords: divided by `c`, not by `c` twice like the solution
    intro i _ _
    simp only [curvatureSystem, Equation.dilate, List.getElem_zipWith, List.getElem_zip,
      List.getElem_tail, List.getElem_map, Equation.mk.injEq, true_and]
    refine ⟨by ring, ?_⟩
    field_simp

theorem bends_retime :
    bends (knots.map (retime c s)) values = (bends knots values).map (c⁻¹ * c⁻¹ * ·) := by
  unfold bends curvatures
  rw [differences_retime, chords_retime, curvatureSystem_dilate hc, solveTridiagonal_dilate hc]
  simp

end Knots

/-! ## Pieces and splines -/

/-- The cubic at `k` times the argument. -/
noncomputable def Segment.dilate (k : ℝ) (p : Segment ℝ) : Segment ℝ :=
  ⟨k ^ 3 * p.d, k ^ 2 * p.c, k * p.b, p.a⟩

theorem Segment.eval_dilate (k : ℝ) (p : Segment ℝ) (t : ℝ) :
    (p.dilate k).eval t = p.eval (k * t) := by
  simp only [Segment.eval, Segment.dilate]
  ring

noncomputable def Piece.retime (c s : ℝ) (p : Piece ℝ) : Piece ℝ :=
  ⟨GyroDelay.retime c s p.start, p.cubic.dilate c⁻¹⟩

/-- A spline read by another clock. -/
noncomputable def Natural.retime (c s : ℝ) (n : Natural ℝ) : Natural ℝ :=
  { pieces := n.pieces.map (Piece.retime c s)
    lastKnot := GyroDelay.retime c s n.lastKnot
    lastValue := n.lastValue
    lastSlope := c⁻¹ * n.lastSlope }

section Through

variable {c : ℝ} (hc : c ≠ 0) (s : ℝ) (knots values : List ℝ)

include hc

theorem pieceCubic_dilate (h chord y m₀ m₁ : ℝ) :
    pieceCubic (c * h) (c⁻¹ * chord) y (c⁻¹ * c⁻¹ * m₀) (c⁻¹ * c⁻¹ * m₁) =
      (pieceCubic h chord y m₀ m₁).dilate c⁻¹ := by
  simp only [pieceCubic, Segment.dilate, Scalar.ofNat_real, Segment.mk.injEq, and_true]
  refine ⟨by ring, by ring, ?_⟩
  field_simp

theorem cubics_retime :
    cubics (knots.map (retime c s)) values =
      (cubics knots values).map (Segment.dilate c⁻¹) := by
  apply List.ext_getElem
  · simp only [cubics, differences_retime, chords_retime, bends_retime hc, List.length_zipWith,
      List.length_zip, List.length_tail, List.length_map]
  · intro i _ _
    simp only [cubics, differences_retime, chords_retime, bends_retime hc, List.getElem_zipWith,
      List.getElem_zip, List.getElem_tail, List.getElem_map, pieceCubic_dilate hc]

theorem endSlope_dilate (p : Segment ℝ) (h : ℝ) :
    endSlope (p.dilate c⁻¹) (c * h) = c⁻¹ * endSlope p h := by
  simp only [endSlope, Segment.dilate, Scalar.ofNat_real]
  field_simp

theorem through_retime {knots : List ℝ} (hne : knots ≠ []) :
    Natural.through (knots.map (retime c s)) values =
      (Natural.through knots values).retime c s := by
  have hlast : (knots.map (retime c s)).getLastD 0 = retime c s (knots.getLastD 0) := by
    obtain ⟨xs, x, rfl⟩ := (List.eq_nil_or_concat' knots).resolve_left hne
    rw [List.map_append, List.map_singleton, List.getLastD_concat, List.getLastD_concat]
  have hcubic : ((cubics knots values).map (Segment.dilate c⁻¹)).getLastD ⟨0, 0, 0, 0⟩ =
      ((cubics knots values).getLastD ⟨0, 0, 0, 0⟩).dilate c⁻¹ := by
    have h := getLastD_map (Segment.dilate c⁻¹) (cubics knots values) ⟨0, 0, 0, 0⟩
    simpa only [Segment.dilate, mul_zero] using h
  have hwidth : ((differences knots).map (c * ·)).getLastD 0 =
      c * (differences knots).getLastD 0 := by
    have h := getLastD_map (c * ·) (differences knots) 0
    simpa only [mul_zero] using h
  rw [through_eq, through_eq, hlast, cubics_retime hc, differences_retime, hcubic, hwidth,
    endSlope_dilate hc]
  simp only [Natural.retime, List.map_toArray, Natural.mk.injEq, and_true]
  rw [List.zipWith_map, List.map_zipWith]
  rfl

end Through

/-! ## Values -/

namespace Natural

variable {c : ℝ} (hc : 0 < c) (s : ℝ)

include hc

/-- A spline read by another clock has the same values at the same instants. -/
theorem eval_retime (n : Natural ℝ) (x : ℝ) :
    (n.retime c s).eval (GyroDelay.retime c s x) = n.eval x := by
  have htail : (n.retime c s).tail = n.tail.retime c s := by
    simp [tail, retime, Piece.retime, Segment.dilate]
  have hget (i : ℕ) : (n.retime c s).pieces.getD i (n.retime c s).tail =
      (n.pieces.getD i n.tail).retime c s := by
    rw [htail, retime, Array.getD_eq_getD_getElem?, Array.getD_eq_getD_getElem?,
      Array.getElem?_map, Option.getD_map]
  -- the search compares starts with the argument, and a clock keeps their order
  have hplace : startsUpTo (n.retime c s).pieces (GyroDelay.retime c s x) 0
      (n.retime c s).pieces.size = startsUpTo n.pieces x 0 n.pieces.size := by
    have hsize : (n.retime c s).pieces.size = n.pieces.size := Array.size_map
    rw [hsize]
    refine startsUpTo_eq (fun i => ?_) 0 _
    rw [retime, Array.getElem?_map, Option.map_map]
    congr 1
    funext p
    exact decide_eq_decide.mpr (retime_le_retime hc s)
  rw [eval_real, eval_real, hplace]
  generalize startsUpTo n.pieces x 0 n.pieces.size - 1 = i
  have hlast : (n.retime c s).lastKnot = GyroDelay.retime c s n.lastKnot := rfl
  simp only [hget, hlast, Piece.retime, retime_lt_retime hc, retime_sub_retime,
    Segment.eval_dilate, inv_mul_cancel_left₀ hc.ne']
  by_cases hlow : x < (n.pieces.getD 0 n.tail).start
  · rw [if_pos hlow, if_pos hlow]
    simp only [Segment.dilate]
    field_simp
  · by_cases hhigh : n.lastKnot < x
    · rw [if_neg hlow, if_neg hlow, if_pos hhigh, if_pos hhigh]
      simp only [retime]
      field_simp
    · rw [if_neg hlow, if_neg hlow, if_neg hhigh, if_neg hhigh]

end Natural

theorem eval_through_retime {c : ℝ} (hc : 0 < c) (s : ℝ) {knots : List ℝ} (hne : knots ≠ [])
    (values : List ℝ) (x : ℝ) :
    (Natural.through (knots.map (retime c s)) values).eval (retime c s x) =
      (Natural.through knots values).eval x := by
  rw [through_retime hc.ne' s values hne, Natural.eval_retime hc]

end Spline

end GyroDelay
