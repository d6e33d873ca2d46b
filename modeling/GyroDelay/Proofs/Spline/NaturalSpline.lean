import Mathlib.Algebra.Polynomial.Derivative
import Mathlib.Algebra.Polynomial.SpecificDegree
import GyroDelay.Proofs.Spline.Defined

/-!
# The fitted spline is the natural one

In exact arithmetic a fit through two or more strictly increasing knots succeeds, also where a
quotient by zero is undefined, and yields the natural cubic spline of its points
(`fit_isNaturalSpline`): a polynomial of degree at most three between neighbouring knots, the same
first and second derivatives on both sides of each inner knot, no curvature at the ends, and
straight lines beyond them.
-/

namespace GyroDelay.Spline

open Polynomial

/-- A function is the natural cubic spline through points, and the polynomial `p i` is what it is
between knot `i` and the next one. -/
structure IsNaturalSpline (knots values : List ℝ) (f : ℝ → ℝ) (p : ℕ → ℝ[X]) : Prop where
  value : ∀ i < knots.length, f (knots.getD i 0) = values.getD i 0
  natDegree_le : ∀ i, i + 1 < knots.length → (p i).natDegree ≤ 3
  on_piece : ∀ i, i + 1 < knots.length →
    ∀ x ∈ Set.Icc (knots.getD i 0) (knots.getD (i + 1) 0), f x = (p i).eval x
  slope : ∀ i, i + 2 < knots.length → (derivative (p i)).eval (knots.getD (i + 1) 0) =
    (derivative (p (i + 1))).eval (knots.getD (i + 1) 0)
  bend : ∀ i, i + 2 < knots.length →
    (derivative (derivative (p i))).eval (knots.getD (i + 1) 0) =
      (derivative (derivative (p (i + 1)))).eval (knots.getD (i + 1) 0)
  bend_first : (derivative (derivative (p 0))).eval (knots.getD 0 0) = 0
  bend_last : (derivative (derivative (p (knots.length - 2)))).eval
    (knots.getD (knots.length - 1) 0) = 0
  before : ∀ x < knots.getD 0 0, f x =
    values.getD 0 0 + (derivative (p 0)).eval (knots.getD 0 0) * (x - knots.getD 0 0)
  after : ∀ x, knots.getD (knots.length - 1) 0 < x → f x =
    values.getD (knots.length - 1) 0 +
      (derivative (p (knots.length - 2))).eval (knots.getD (knots.length - 1) 0) *
        (x - knots.getD (knots.length - 1) 0)

/-! ## Cubics as polynomials -/

namespace Segment

/-- A cubic as a polynomial in the distance from its left knot. -/
noncomputable def polynomial (s : Segment ℝ) : ℝ[X] :=
  C s.d * X ^ 3 + C s.c * X ^ 2 + C s.b * X + C s.a

theorem eval_polynomial (s : Segment ℝ) (t : ℝ) : s.polynomial.eval t = s.eval t := by
  simp only [polynomial, eval_add, eval_mul, eval_C, eval_pow, eval_X, Segment.eval]
  ring

theorem derivative_polynomial (s : Segment ℝ) :
    derivative s.polynomial = C (3 * s.d) * X ^ 2 + C (2 * s.c) * X + C s.b := by
  simp only [polynomial, derivative_add, derivative_C_mul, derivative_X_pow, derivative_X,
    derivative_C, C_mul]
  norm_num
  ring

theorem eval_derivative (s : Segment ℝ) (t : ℝ) :
    (derivative s.polynomial).eval t = s.slope t := by
  rw [derivative_polynomial]
  simp only [eval_add, eval_mul, eval_C, eval_pow, eval_X, slope, Scalar.ofNat_real]
  push_cast
  ring

theorem eval_derivative_derivative (s : Segment ℝ) (t : ℝ) :
    (derivative (derivative s.polynomial)).eval t = 6 * s.d * t + 2 * s.c := by
  rw [derivative_polynomial]
  simp only [derivative_add, derivative_C_mul, derivative_X_pow, derivative_X, derivative_C,
    eval_add, eval_mul, eval_C, eval_pow, eval_X, eval_one, eval_zero]
  push_cast
  ring

end Segment

/-- The cubic between a knot and the next one, as a polynomial in the argument of the spline. -/
noncomputable def pieceAfter (knots values : List ℝ) (i : ℕ) : ℝ[X] :=
  (cubicAt knots values i).polynomial.comp (X - C (knots.getD i 0))

section Pieces

variable {knots values : List ℝ} (i : ℕ) (x : ℝ)

theorem natDegree_pieceAfter_le : (pieceAfter knots values i).natDegree ≤ 3 := by
  rw [pieceAfter, natDegree_comp, natDegree_X_sub_C, mul_one]
  exact natDegree_cubic_le

theorem eval_pieceAfter : (pieceAfter knots values i).eval x =
    (cubicAt knots values i).eval (x - knots.getD i 0) := by
  rw [pieceAfter, eval_comp, eval_sub, eval_X, eval_C, Segment.eval_polynomial]

theorem eval_derivative_pieceAfter : (derivative (pieceAfter knots values i)).eval x =
    (cubicAt knots values i).slope (x - knots.getD i 0) := by
  rw [pieceAfter, derivative_comp, derivative_X_sub_C, one_mul, eval_comp, eval_sub, eval_X,
    eval_C, Segment.eval_derivative]

theorem eval_derivative_derivative_pieceAfter :
    (derivative (derivative (pieceAfter knots values i))).eval x =
      6 * (cubicAt knots values i).d * (x - knots.getD i 0) + 2 * (cubicAt knots values i).c := by
  rw [pieceAfter, derivative_comp, derivative_X_sub_C, one_mul, derivative_comp,
    derivative_X_sub_C, one_mul, eval_comp, eval_sub, eval_X, eval_C,
    Segment.eval_derivative_derivative]

/-- The second derivative at the left knot. -/
theorem bend_pieceAfter_left :
    (derivative (derivative (pieceAfter knots values i))).eval (knots.getD i 0) =
      bend knots values i := by
  rw [eval_derivative_derivative_pieceAfter, sub_self]
  simp only [cubicAt, pieceCubic, Scalar.ofNat_real]
  push_cast
  ring

/-- The second derivative at the right knot. -/
theorem bend_pieceAfter_right {i : ℕ} (hw : width knots i ≠ 0) :
    (derivative (derivative (pieceAfter knots values i))).eval (knots.getD (i + 1) 0) =
      bend knots values (i + 1) := by
  rw [eval_derivative_derivative_pieceAfter, ← width]
  simp only [cubicAt, pieceCubic, Scalar.ofNat_real]
  field_simp
  push_cast
  ring

end Pieces

/-! ## Beyond the ends -/

section Ends

variable {knots values : List ℝ} (h : knots.length = values.length) (h2 : 2 ≤ values.length)

include h h2

theorem eval_before {x : ℝ} (hx : x < knots.getD 0 0) :
    (Natural.through knots values).eval x = values.getD 0 0 +
      (derivative (pieceAfter knots values 0)).eval (knots.getD 0 0) * (x - knots.getD 0 0) := by
  have hslope : (cubicAt knots values 0).slope 0 = (cubicAt knots values 0).b := by
    simp only [Segment.slope, mul_zero, zero_add]
  rw [Natural.eval, Array.getD_eq_getD_getElem?, pieces_getElem? h (by omega), Option.getD_some,
    eval_derivative_pieceAfter, sub_self, hslope]
  simp only [if_pos hx]
  rfl

/-- The slope behind the last knot is that of the last cubic. -/
theorem lastSlope_through {i : ℕ} (hi : i + 2 = values.length) :
    (Natural.through knots values).lastSlope = (cubicAt knots values i).slope (width knots i) := by
  have hcubic : (cubics knots values).getLastD ⟨0, 0, 0, 0⟩ = cubicAt knots values i := by
    rw [getLastD_eq_getD, length_cubics h h2, List.getD_eq_getElem?_getD,
      show values.length - 1 - 1 = i by omega, cubics_getElem? h (by omega), Option.getD_some]
  have hwidth : (differences knots).getLastD 0 = width knots i := by
    rw [getLastD_eq_getD, length_differences, List.getD_eq_getElem?_getD,
      show knots.length - 1 - 1 = i by omega, differences_getElem? knots (by omega),
      Option.getD_some]
    rfl
  rw [through_eq, hcubic, hwidth, endSlope, Segment.slope]
  ring

theorem eval_after (hinc : knots.Pairwise (· < ·)) {i : ℕ} (hi : i + 2 = values.length) {x : ℝ}
    (hx : knots.getD (i + 1) 0 < x) :
    (Natural.through knots values).eval x = values.getD (i + 1) 0 +
      (derivative (pieceAfter knots values i)).eval (knots.getD (i + 1) 0) *
        (x - knots.getD (i + 1) 0) := by
  have hfirst : ¬ x < knots.getD 0 0 := by
    have hlt : knots.getD 0 0 < knots.getD (i + 1) 0 := getD_lt_getD hinc (by omega) (by omega)
    linarith
  have hknot : (Natural.through knots values).lastKnot = knots.getD (i + 1) 0 := by
    rw [through_eq, getLastD_eq_getD, show knots.length - 1 = i + 1 by omega]
  have hvalue : (Natural.through knots values).lastValue = values.getD (i + 1) 0 := by
    rw [through_eq]
    exact (getLastD_eq_getD values 0).trans (by rw [show values.length - 1 = i + 1 by omega])
  rw [Natural.eval, Array.getD_eq_getD_getElem?, pieces_getElem? h (by omega), Option.getD_some,
    hknot, hvalue, lastSlope_through h h2 hi, eval_derivative_pieceAfter, ← width]
  simp only [if_neg hfirst, if_pos hx]

end Ends

/-! ## The natural spline -/

section Through

variable {knots values : List ℝ} (h : knots.length = values.length) (h2 : 2 ≤ values.length)
  (hinc : knots.Pairwise (· < ·))

include h h2 hinc

/-- Between two knots, both included, the spline is the cubic of its piece. At an inner knot it
is looked up in the next piece, which takes the same value there. -/
theorem eval_on_piece {i : ℕ} (hi : i + 1 < values.length) {x : ℝ}
    (hx : x ∈ Set.Icc (knots.getD i 0) (knots.getD (i + 1) 0)) :
    (Natural.through knots values).eval x = (pieceAfter knots values i).eval x := by
  rw [eval_pieceAfter]
  rcases hx.2.lt_or_eq with hlt | rfl
  · exact eval_through h hinc hi hx.1 (Or.inl hlt)
  · rw [eval_knot h h2 hinc hi, ← width, eval_cubicAt (width_pos hinc (by omega)).ne']

theorem isNaturalSpline_through : IsNaturalSpline knots values (Natural.through knots values).eval
    (pieceAfter knots values) := by
  obtain ⟨last, hlast⟩ : ∃ i, i + 2 = values.length := ⟨values.length - 2, by omega⟩
  have hpiece : knots.length - 2 = last := by omega
  have hknot : knots.length - 1 = last + 1 := by omega
  have hw (i : ℕ) (hi : i + 1 < knots.length) : width knots i ≠ 0 := (width_pos hinc hi).ne'
  constructor
  case value =>
    intro i hi
    exact eval_knot h h2 hinc (h ▸ hi)
  case natDegree_le =>
    intro i _
    exact natDegree_pieceAfter_le i
  case on_piece =>
    intro i hi x hx
    exact eval_on_piece h h2 hinc (h ▸ hi) hx
  case slope =>
    intro i hi
    rw [eval_derivative_pieceAfter, eval_derivative_pieceAfter, sub_self, ← width]
    exact slope_cubicAt_succ h hinc (h ▸ hi)
  case bend =>
    intro i hi
    rw [bend_pieceAfter_right (hw i (by omega)), bend_pieceAfter_left]
  case bend_first => rw [bend_pieceAfter_left, bend_zero]
  case bend_last =>
    rw [hpiece, hknot, bend_pieceAfter_right (hw last (by omega)),
      show last + 1 = values.length - 1 by omega, bend_last h h2]
  case before =>
    intro x hx
    exact eval_before h h2 hx
  case after =>
    rw [hpiece, hknot]
    intro x hx
    exact eval_after h h2 hinc hlast hx

end Through

open PartialReal in
/-- **Natural splines.** A fit through two or more strictly increasing knots succeeds, and takes no
quotient by zero, nor do the values of its spline. It yields the natural cubic spline of its points;
an argument in the range of the knots is looked up in the piece that it lies in. -/
theorem fit_isNaturalSpline {knots values : List ℝ} (h : knots.length = values.length)
    (h2 : 2 ≤ values.length) (hinc : knots.Pairwise (· < ·)) :
    ∃ (s : Natural ℝ) (p : ℕ → ℝ[X]), Natural.fit knots values = .ok s ∧
      Natural.fit (knots.map defined) (values.map defined) = .ok (s.map defined) ∧
      (∀ x, (s.map defined).eval (defined x) = defined (s.eval x)) ∧
      IsNaturalSpline knots values s.eval p ∧
      ∀ (i : ℕ) (x : ℝ), i + 1 < values.length → knots.getD i 0 ≤ x →
        (x < knots.getD (i + 1) 0 ∨ i + 2 = values.length ∧ x ≤ knots.getD (i + 1) 0) →
        s.pieces[i]? = some (s.pieceAt x) ∧ (s.pieceAt x).start = knots.getD i 0 := by
  refine ⟨Natural.through knots values, pieceAfter knots values, fit_eq_ok h h2 hinc,
    fit_defined h h2 hinc, fun x => Natural.eval_defined _ x, isNaturalSpline_through h h2 hinc, ?_⟩
  intro i x hi hx hx'
  rw [pieceAt_through h hinc hi hx hx']
  exact ⟨pieces_getElem? h hi, rfl⟩

open PartialReal in
/-- Three points with unequal distances. -/
theorem fit_three_points :
    ∃ (s : Natural ℝ) (p : ℕ → ℝ[X]), Natural.fit [0, 1, 3] [2, 5, -1] = .ok s ∧
      Natural.fit [defined 0, defined 1, defined 3] [defined 2, defined 5, defined (-1)] =
        .ok (s.map defined) ∧
      IsNaturalSpline [0, 1, 3] [2, 5, -1] s.eval p ∧
      s.pieces[1]? = some (s.pieceAt 3) ∧ (s.pieceAt 3).start = 1 := by
  obtain ⟨s, p, hfit, hdefined, -, hspline, hlookup⟩ :=
    fit_isNaturalSpline (show ([0, 1, 3] : List ℝ).length = ([2, 5, -1] : List ℝ).length from rfl)
      (by simp) (by norm_num)
  have hlast := hlookup 1 3 (by simp) (by simp) (Or.inr (by simp))
  exact ⟨s, p, hfit, hdefined, hspline, hlast⟩

end GyroDelay.Spline
