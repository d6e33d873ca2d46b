import GyroDelay.Proofs.Spline.Elimination
import GyroDelay.Proofs.Spline.Linearity

/-!
# Splines pass through their points

In exact arithmetic the cubics of a fit through strictly increasing knots join at the knots
(`eval_cubicAt`, `slope_cubicAt_succ`). The equations for the second derivatives have a dominant
diagonal, so they are solved (`bends_equation`), and they say that neighbouring cubics have the
same slope where they meet.

The bisection counts the pieces that begin at or before an argument (`startsUpTo_eq_count`), so
an argument in the range of the knots is looked up in its own piece (`pieceAt_through`). At a
knot the spline takes the value that belongs to it (`eval_knot`).
-/

namespace GyroDelay.Spline

/-! ## The parts of a spline by their index -/

/-- The width of the piece after a knot. -/
noncomputable def width (knots : List ℝ) (i : ℕ) : ℝ := knots.getD (i + 1) 0 - knots.getD i 0

/-- The slope of the chord over the piece after a knot. -/
noncomputable def chord (knots values : List ℝ) (i : ℕ) : ℝ := width values i / width knots i

/-- The second derivative at a knot. -/
noncomputable def bend (knots values : List ℝ) (i : ℕ) : ℝ := (bends knots values).getD i 0

/-- The cubic on the piece after a knot. -/
noncomputable def cubicAt (knots values : List ℝ) (i : ℕ) : Segment ℝ :=
  pieceCubic (width knots i) (chord knots values i) (values.getD i 0) (bend knots values i)
    (bend knots values (i + 1))

theorem width_pos {knots : List ℝ} (hinc : knots.Pairwise (· < ·)) {i : ℕ}
    (hi : i + 1 < knots.length) : 0 < width knots i :=
  sub_pos.mpr (getD_lt_getD hinc (Nat.lt_succ_self i) hi)

section Parts

variable {knots values : List ℝ} (h : knots.length = values.length)

include h

theorem chords_getElem? {i : ℕ} (hi : i + 1 < values.length) :
    (chords knots values)[i]? = some (chord knots values i) := by
  rw [chords, List.getElem?_zipWith_eq_some]
  exact ⟨_, _, differences_getElem? values hi, differences_getElem? knots (by omega), rfl⟩

theorem cubics_getElem? {i : ℕ} (hi : i + 1 < values.length) :
    (cubics knots values)[i]? = some (cubicAt knots values i) := by
  have hbends := length_bends h (by omega)
  rw [cubics, List.getElem?_zipWith_eq_some]
  refine ⟨(width knots i, chord knots values i),
    (values.getD i 0, bend knots values i, bend knots values (i + 1)), ?_, ?_, rfl⟩
  · rw [List.getElem?_zip_eq_some]
    exact ⟨differences_getElem? knots (by omega), chords_getElem? h hi⟩
  · rw [List.getElem?_zip_eq_some, zip_tail_getElem? _ (by omega),
      List.getD_eq_getElem _ _ (by omega), List.getElem?_eq_getElem (by omega)]
    exact ⟨rfl, rfl⟩

theorem pieces_getElem? {i : ℕ} (hi : i + 1 < values.length) :
    (Natural.through knots values).pieces[i]? =
      some ⟨knots.getD i 0, cubicAt knots values i⟩ := by
  rw [through_eq, List.getElem?_toArray, List.getElem?_zipWith_eq_some]
  refine ⟨knots.getD i 0, _, ?_, cubics_getElem? h hi, rfl⟩
  rw [List.getD_eq_getElem _ _ (by omega), List.getElem?_eq_getElem]

theorem size_pieces (h2 : 2 ≤ values.length) :
    (Natural.through knots values).pieces.size = values.length - 1 := by
  rw [through_eq, List.size_toArray, List.length_zipWith, length_cubics h h2]
  omega

/-! ## The equations for the second derivatives -/

theorem curvatureSystem_getElem? {i : ℕ} (hi : i + 2 < values.length) :
    (curvatureSystem (differences knots) (chords knots values))[i]? =
      some ⟨width knots i, 2 * (width knots i + width knots (i + 1)), width knots (i + 1),
        6 * (chord knots values (i + 1) - chord knots values i)⟩ := by
  have hwidth (j : ℕ) (hj : j + 1 < values.length) :
      (differences knots).getD j 0 = width knots j := by
    rw [List.getD_eq_getElem?_getD, differences_getElem? knots (by omega)]
    rfl
  have hchord (j : ℕ) (hj : j + 1 < values.length) :
      (chords knots values).getD j 0 = chord knots values j := by
    rw [List.getD_eq_getElem?_getD, chords_getElem? h hj]
    rfl
  rw [curvatureSystem, List.getElem?_zipWith_eq_some]
  refine ⟨_, _, zip_tail_getElem? _ ?_, zip_tail_getElem? _ ?_, ?_⟩
  · rw [length_differences]
    omega
  · rw [length_chords h]
    omega
  · rw [hwidth i (by omega), hwidth (i + 1) hi, hchord i (by omega), hchord (i + 1) hi]
    simp only [Scalar.ofNat_real]
    norm_num

theorem exists_of_mem_curvatureSystem {e : Equation ℝ}
    (he : e ∈ curvatureSystem (differences knots) (chords knots values)) :
    ∃ i, i + 2 < values.length ∧
      e = ⟨width knots i, 2 * (width knots i + width knots (i + 1)), width knots (i + 1),
        6 * (chord knots values (i + 1) - chord knots values i)⟩ := by
  obtain ⟨i, hi⟩ := List.getElem?_of_mem he
  have hlt := (List.getElem?_eq_some_iff.mp hi).1
  simp only [curvatureSystem, List.length_zipWith, List.length_zip, List.length_tail,
    length_differences, length_chords h] at hlt
  have hi2 : i + 2 < values.length := by omega
  rw [curvatureSystem_getElem? h hi2] at hi
  exact ⟨i, hi2, (Option.some.inj hi).symm⟩

variable (hinc : knots.Pairwise (· < ·))

include hinc

theorem isDominant_curvatureSystem :
    ∀ e ∈ curvatureSystem (differences knots) (chords knots values), e.IsDominant := by
  intro e he
  obtain ⟨i, hi, rfl⟩ := exists_of_mem_curvatureSystem h he
  have hleft := width_pos hinc (i := i) (by omega)
  have hright := width_pos hinc (i := i + 1) (by omega)
  rw [Equation.IsDominant, abs_of_pos hleft, abs_of_pos hright, abs_of_pos (by positivity)]
  linarith

theorem pivots_curvatureSystem_ne_zero :
    ∀ d ∈ pivots Eliminated.nothing (curvatureSystem (differences knots) (chords knots values)),
      d ≠ 0 :=
  pivots_ne_zero_of_isDominant (isDominant_curvatureSystem h hinc)

/-- The second derivatives fulfil the equations at the inner knots. -/
theorem bends_equation {i : ℕ} (hi : i + 2 < values.length) :
    width knots i * bend knots values i +
        2 * (width knots i + width knots (i + 1)) * bend knots values (i + 1) +
        width knots (i + 1) * bend knots values (i + 2) =
      6 * (chord knots values (i + 1) - chord knots values i) := by
  have hsolves := solves_solveTridiagonal (pivots_curvatureSystem_ne_zero h hinc)
  have hequation := hsolves.equation i _ (curvatureSystem_getElem? h hi)
  -- the zero behind the solution is also what an index past its end reads
  have hbend (j : ℕ) : bend knots values j = (0 :: solveTridiagonal (curvatureSystem
      (differences knots) (chords knots values))).getD j 0 := by
    rw [bend, bends, curvatures, Scalar.zero_real, List.getD_eq_getElem?_getD,
      List.getD_eq_getElem?_getD, List.cons_append, ← List.cons_append, List.getElem?_append]
    split
    · rfl
    · rename_i hge
      rw [List.getElem?_eq_none (not_lt.mp hge)]
      cases j - _ <;> rfl
  rw [hbend, hbend, hbend]
  exact hequation

end Parts

/-! ## Cubics at their knots -/

section Cubics

variable {knots values : List ℝ}

theorem bend_zero : bend knots values 0 = 0 := by
  rw [bend, bends, curvatures, Scalar.zero_real]
  rfl

theorem bend_last (h : knots.length = values.length) (h2 : 2 ≤ values.length) :
    bend knots values (values.length - 1) = 0 := by
  have hlen := length_bends h h2
  rw [bend, ← hlen, ← getLastD_eq_getD, bends, curvatures, Scalar.zero_real,
    List.getLastD_concat]

theorem eval_cubicAt_zero (i : ℕ) : (cubicAt knots values i).eval 0 = values.getD i 0 := by
  simp only [cubicAt, pieceCubic, Segment.eval, mul_zero, zero_add]

/-- A cubic takes the value at its right knot. -/
theorem eval_cubicAt {i : ℕ} (hw : width knots i ≠ 0) :
    (cubicAt knots values i).eval (width knots i) = values.getD (i + 1) 0 := by
  have hchord : chord knots values i * width knots i = width values i := div_mul_cancel₀ _ hw
  have hvalue : (cubicAt knots values i).eval (width knots i) =
      values.getD i 0 + chord knots values i * width knots i := by
    simp only [cubicAt, pieceCubic, Segment.eval, Scalar.ofNat_real]
    field_simp
    push_cast
    ring
  rw [hvalue, hchord, width]
  ring

/-- The slope of a cubic at its left knot. -/
theorem slope_cubicAt_zero (i : ℕ) : (cubicAt knots values i).slope 0 = chord knots values i -
    width knots i * (2 * bend knots values i + bend knots values (i + 1)) / 6 := by
  simp only [cubicAt, pieceCubic, Segment.slope, Scalar.ofNat_real]
  push_cast
  ring

/-- The slope of a cubic at its right knot. -/
theorem slope_cubicAt {i : ℕ} (hw : width knots i ≠ 0) :
    (cubicAt knots values i).slope (width knots i) = chord knots values i +
      width knots i * (bend knots values i + 2 * bend knots values (i + 1)) / 6 := by
  simp only [cubicAt, pieceCubic, Segment.slope, Scalar.ofNat_real]
  field_simp
  push_cast
  ring

/-- Neighbouring cubics have the same slope at their common knot. -/
theorem slope_cubicAt_succ (h : knots.length = values.length) (hinc : knots.Pairwise (· < ·))
    {i : ℕ} (hi : i + 2 < values.length) :
    (cubicAt knots values i).slope (width knots i) = (cubicAt knots values (i + 1)).slope 0 := by
  have hequation := bends_equation h hinc hi
  rw [slope_cubicAt (width_pos hinc (by omega)).ne', slope_cubicAt_zero]
  linarith

end Cubics

/-! ## Looking an argument up -/

namespace Natural

/-- The bisection counts the pieces that begin at or before an argument, when these are the
first ones. -/
theorem startsUpTo_eq_count {pieces : Array (Piece ℝ)} {x : ℝ} {count : ℕ}
    (h : ∀ (i : ℕ) (p : Piece ℝ), pieces[i]? = some p → (p.start ≤ x ↔ i < count))
    {low high : ℕ} (hlow : low ≤ count) (hcount : count ≤ high) (hhigh : high ≤ pieces.size) :
    startsUpTo pieces x low high = count := by
  fun_induction startsUpTo pieces x low high with
  | case1 low high hlt mid hnone =>
    have hsize : pieces.size ≤ mid := Array.getElem?_eq_none_iff.mp hnone
    omega
  | case2 low high hlt mid p hp hle ih =>
    have hmid := (h mid p hp).mp hle
    exact ih hmid hcount hhigh
  | case3 low high hlt mid p hp hgt ih =>
    have hmid := mt (h mid p hp).mpr hgt
    exact ih hlow (not_lt.mp hmid) (by omega)
  | case4 low high hge => omega

end Natural

section Lookup

variable {knots values : List ℝ} (h : knots.length = values.length)
  (hinc : knots.Pairwise (· < ·)) {i : ℕ} (hi : i + 1 < values.length) {x : ℝ}
  (hx : knots.getD i 0 ≤ x)
  (hx' : x < knots.getD (i + 1) 0 ∨ i + 2 = values.length ∧ x ≤ knots.getD (i + 1) 0)

include h hinc hi hx hx'

/-- An argument between two knots is looked up in the piece between them, the last knot in the
last piece. -/
theorem pieceAt_through :
    (Natural.through knots values).pieceAt x = ⟨knots.getD i 0, cubicAt knots values i⟩ := by
  have hsize := size_pieces h (by omega)
  have hcount : Natural.startsUpTo (Natural.through knots values).pieces x 0
      (Natural.through knots values).pieces.size = i + 1 := by
    refine Natural.startsUpTo_eq_count ?_ (Nat.zero_le _) (by omega) le_rfl
    intro j p hp
    have hj : j < (Natural.through knots values).pieces.size :=
      (Array.getElem?_eq_some_iff.mp hp).1
    rw [pieces_getElem? h (by omega)] at hp
    cases hp
    dsimp only
    rw [Nat.lt_succ_iff]
    constructor
    · intro hle
      by_contra hlt
      rcases hx' with hx' | ⟨hlast, -⟩
      · have hknots : knots.getD (i + 1) 0 ≤ knots.getD j 0 :=
          getD_le_getD hinc (by omega) (by omega)
        linarith
      · omega
    · intro hle
      exact (getD_le_getD hinc hle (by omega)).trans hx
  rw [Natural.pieceAt, hcount, Nat.add_sub_cancel, Array.getD_eq_getD_getElem?,
    pieces_getElem? h hi, Option.getD_some]

/-- The value at an argument between two knots. -/
theorem eval_through : (Natural.through knots values).eval x =
    (cubicAt knots values i).eval (x - knots.getD i 0) := by
  have hlast : (Natural.through knots values).lastKnot = knots.getD (values.length - 1) 0 := by
    rw [through_eq, getLastD_eq_getD, h]
  have hfirst : ¬ x < knots.getD 0 0 := by
    rw [not_lt]
    exact (getD_le_getD hinc (Nat.zero_le i) (by omega)).trans hx
  have hrange : ¬ knots.getD (values.length - 1) 0 < x := by
    rw [not_lt]
    rcases hx' with hx' | ⟨hi', hx'⟩
    · exact hx'.le.trans (getD_le_getD hinc (by omega) (by omega))
    · rw [show values.length - 1 = i + 1 by omega]
      exact hx'
  rw [Natural.eval, pieceAt_through h hinc hi hx hx', Array.getD_eq_getD_getElem?,
    pieces_getElem? h (by omega), Option.getD_some, hlast]
  simp only [if_neg hfirst, if_neg hrange]

end Lookup

/-- **A spline passes through its points.** -/
theorem eval_knot {knots values : List ℝ} (h : knots.length = values.length)
    (h2 : 2 ≤ values.length) (hinc : knots.Pairwise (· < ·)) {i : ℕ} (hi : i < values.length) :
    (Natural.through knots values).eval (knots.getD i 0) = values.getD i 0 := by
  rcases (Nat.succ_le_of_lt hi).eq_or_lt with hlast | hlt
  · obtain ⟨j, rfl⟩ := Nat.exists_eq_add_one_of_ne_zero (n := i) (by omega)
    rw [eval_through h hinc (i := j) (by omega) (getD_lt_getD hinc (by omega) (by omega)).le
      (Or.inr ⟨hlast, le_rfl⟩)]
    exact eval_cubicAt (width_pos hinc (by omega)).ne'
  · rw [eval_through h hinc hlt le_rfl (Or.inl (getD_lt_getD hinc (by omega) (by omega))),
      sub_self, eval_cubicAt_zero]

end GyroDelay.Spline
