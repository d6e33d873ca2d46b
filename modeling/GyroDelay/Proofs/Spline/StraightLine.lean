import GyroDelay.Proofs.Recording
import GyroDelay.Proofs.Spline.Dilation
import GyroDelay.Proofs.Spline.NaturalSpline

/-!
# Straight lines and the laws of interpolation

In exact arithmetic a spline through points on a straight line is that line, at every argument
(`eval_through_line`). The chords of such points all have the same slope, so the equations for the
second derivatives have no right sides, and the elimination then finds no second derivatives
(`solveTridiagonal_eq_zero`).

Interpolation is linear in the values, keeps straight lines, depends on neither the origin nor the
scale of the arguments, and commutes with the linear maps of three-dimensional values
(`interpolate_laws`). All of it holds inside the range of the knots and beyond it.
-/

namespace GyroDelay.Spline

/-- Without right sides the solution is zero: these are its own right sides times zero. -/
theorem solveTridiagonal_eq_zero {system : List (Equation ℝ)} (h : ∀ e ∈ system, e.rhs = 0) :
    ∀ x ∈ solveTridiagonal system, x = 0 := by
  have hsame : system.map (Equation.dilate 1 0) = system := by
    refine (List.map_congr_left fun e he => ?_).trans (List.map_id system)
    simp only [Equation.dilate, one_mul, zero_mul, id_eq]
    rw [← h e he]
  have hsolve := solveTridiagonal_dilate one_ne_zero 0 system
  rw [hsame] at hsolve
  intro x hx
  rw [hsolve] at hx
  obtain ⟨y, -, rfl⟩ := List.mem_map.mp hx
  exact zero_mul y

/-! ## Splines that are straight lines -/

/-- A spline whose parts all lie on a line takes its values from the line everywhere. -/
theorem Natural.eval_of_line {s : Natural ℝ} {m q : ℝ}
    (hpieces : ∀ p ∈ s.pieces, p.cubic = ⟨0, 0, m, m * p.start + q⟩)
    (hvalue : s.lastValue = m * s.lastKnot + q) (hslope : s.lastSlope = m) (x : ℝ) :
    s.eval x = m * x + q := by
  have hget (i : ℕ) : (s.pieces.getD i s.tail).cubic =
      ⟨0, 0, m, m * (s.pieces.getD i s.tail).start + q⟩ := by
    rw [Array.getD_eq_getD_getElem?]
    cases hp : s.pieces[i]? with
    | none => rw [Option.getD_none, tail, hvalue, hslope]
    | some p => exact hpieces p (Array.mem_of_getElem? hp)
  rw [eval_real]
  simp only [hget, hvalue, hslope, Segment.eval]
  split_ifs <;> ring

section Line

variable {knots : List ℝ} (m q : ℝ)

theorem getD_line {i : ℕ} (hi : i < knots.length) :
    (knots.map fun x => m * x + q).getD i 0 = m * knots.getD i 0 + q := by
  rw [List.getD_eq_getElem _ _ (by rwa [List.length_map]), List.getElem_map,
    List.getD_eq_getElem _ _ hi]

variable (hinc : knots.Pairwise (· < ·))

include hinc

theorem chord_line {i : ℕ} (hi : i + 1 < knots.length) :
    chord knots (knots.map fun x => m * x + q) i = m := by
  have hw : width knots i ≠ 0 := (width_pos hinc hi).ne'
  have hrise : width (knots.map fun x => m * x + q) i = m * width knots i := by
    rw [width, getD_line m q hi, getD_line m q (Nat.lt_of_succ_lt hi), width]
    ring
  rw [chord, hrise, mul_div_cancel_right₀ _ hw]

theorem bend_line (i : ℕ) : bend knots (knots.map fun x => m * x + q) i = 0 := by
  have hlen : knots.length = (knots.map fun x => m * x + q).length := (List.length_map _).symm
  have hrhs : ∀ e ∈ curvatureSystem (differences knots)
      (chords knots (knots.map fun x => m * x + q)), e.rhs = 0 := by
    intro e he
    obtain ⟨j, hj, rfl⟩ := exists_of_mem_curvatureSystem hlen he
    rw [chord_line m q hinc (by omega), chord_line m q hinc (by omega), sub_self, mul_zero]
  have hmem : ∀ x ∈ bends knots (knots.map fun x => m * x + q), x = 0 := by
    intro x hx
    rw [bends, curvatures, Scalar.zero_real] at hx
    rcases List.mem_append.mp hx with hx | hx
    · rcases List.mem_cons.mp hx with hx | hx
      · exact hx
      · exact solveTridiagonal_eq_zero hrhs x hx
    · exact List.mem_singleton.mp hx
  rw [bend, List.getD_eq_getElem?_getD]
  cases hx : (bends knots (knots.map fun x => m * x + q))[i]? with
  | none => rfl
  | some x => exact hmem x (List.mem_of_getElem? hx)

theorem cubicAt_line {i : ℕ} (hi : i + 1 < knots.length) :
    cubicAt knots (knots.map fun x => m * x + q) i = ⟨0, 0, m, m * knots.getD i 0 + q⟩ := by
  rw [cubicAt, chord_line m q hinc hi, bend_line m q hinc, bend_line m q hinc,
    getD_line m q (Nat.lt_of_succ_lt hi)]
  simp [pieceCubic]

/-- **Straight lines are reproduced.** -/
theorem eval_through_line (h2 : 2 ≤ knots.length) (x : ℝ) :
    (Natural.through knots (knots.map fun x => m * x + q)).eval x = m * x + q := by
  have hlen : knots.length = (knots.map fun x => m * x + q).length := (List.length_map _).symm
  obtain ⟨last, hlast⟩ : ∃ i, i + 2 = knots.length := ⟨knots.length - 2, by omega⟩
  refine Natural.eval_of_line ?_ ?_ ?_ x
  · intro p hp
    obtain ⟨i, hi⟩ := Array.getElem?_of_mem hp
    have hlt := (Array.getElem?_eq_some_iff.mp hi).1
    rw [size_pieces hlen (hlen ▸ h2), ← hlen] at hlt
    rw [pieces_getElem? hlen (by omega), cubicAt_line m q hinc (by omega)] at hi
    cases hi
    rfl
  · rw [through_eq, getLastD_eq_getD, getLastD_eq_getD, ← hlen, getD_line m q (by omega)]
  · rw [lastSlope_through hlen (hlen ▸ h2) (hlast.trans hlen), cubicAt_line m q hinc (by omega),
      Segment.slope_real]
    ring

end Line

/-! ## Interpolation -/

section Interpolate

variable {knots : List ℝ} (hinc : knots.Pairwise (· < ·)) (targets : List ℝ)

include hinc

theorem interpolate_eq (values : List ℝ) :
    interpolate knots values targets =
      if knots.length ≠ values.length then
        .error (.invalidInput (.knotCount knots.length values.length))
      else if knots.length < 2 then .error (.invalidInput (.fewKnots knots.length))
      else .ok (targets.map (Natural.through knots values).eval) := by
  rw [interpolate, Natural.fit, disorder?_eq_none hinc]
  split_ifs <;> rfl

theorem interpolate_eq_ok (h2 : 2 ≤ knots.length) {values : List ℝ}
    (h : values.length = knots.length) :
    interpolate knots values targets = .ok (targets.map (Natural.through knots values).eval) := by
  rw [interpolate_eq hinc, if_neg (not_not.mpr h.symm), if_neg (not_lt.mpr h2)]

theorem interpolate_eq_error (h2 : knots.length < 2) {values : List ℝ}
    (h : values.length = knots.length) :
    interpolate knots values targets = .error (.invalidInput (.fewKnots knots.length)) := by
  rw [interpolate_eq hinc, if_neg (not_not.mpr h.symm), if_pos h2]

/-- Interpolation is linear in the values. -/
theorem interpolate_mix (u v : ℝ) {ys zs : List ℝ} (hys : ys.length = knots.length)
    (hzs : zs.length = knots.length) :
    interpolate knots (mix u v ys zs) targets = do
      let results ← interpolate knots ys targets
      let results' ← interpolate knots zs targets
      return mix u v results results' := by
  have hmix : (mix u v ys zs).length = knots.length := by
    rw [length_mix u v (hys.trans hzs.symm), hys]
  rcases lt_or_ge knots.length 2 with h2 | h2
  · rw [interpolate_eq_error hinc targets h2 hmix, interpolate_eq_error hinc targets h2 hys]
    rfl
  · have hvalues (x : ℝ) := eval_through_mix hys.symm hzs.symm (hys.symm ▸ h2) u v x
    rw [interpolate_eq_ok hinc targets h2 hmix, interpolate_eq_ok hinc targets h2 hys,
      interpolate_eq_ok hinc targets h2 hzs, List.map_congr_left fun x _ => hvalues x, ← mix_map]
    rfl

/-- Interpolation keeps straight lines. -/
theorem interpolate_line (h2 : 2 ≤ knots.length) (m q : ℝ) :
    interpolate knots (knots.map fun x => m * x + q) targets =
      .ok (targets.map fun x => m * x + q) := by
  rw [interpolate_eq_ok hinc targets h2 (List.length_map _),
    List.map_congr_left fun x _ => eval_through_line m q hinc h2 x]

/-- Interpolation does not depend on the origin and the scale of the arguments. -/
theorem interpolate_retime {c : ℝ} (hc : 0 < c) (s : ℝ) (values : List ℝ) :
    interpolate (knots.map (retime c s)) values (targets.map (retime c s)) =
      interpolate knots values targets := by
  have hinc' : (knots.map (retime c s)).Pairwise (· < ·) := by
    rw [List.pairwise_map]
    simpa only [retime_lt_retime hc] using hinc
  rw [interpolate_eq hinc', interpolate_eq hinc, List.length_map, List.map_map]
  by_cases h2 : knots.length < 2
  · rw [if_pos h2, if_pos h2]
  · have hne : knots ≠ [] := List.length_pos_iff.mp (by omega)
    have heval : (Natural.through (knots.map (retime c s)) values).eval ∘ retime c s =
        (Natural.through knots values).eval :=
      funext fun x => eval_through_retime hc s hne values x
    rw [heval]

end Interpolate

/-- **The laws of interpolation.** Interpolation over strictly increasing knots succeeds for as
many values as knots if there are at least two of them. It is linear in the values, keeps straight
lines, and is unchanged when knots and arguments are moved and stretched together. A linear map of
three-dimensional samples is the same linear map of what they are interpolated to. -/
theorem interpolate_laws {knots : List ℝ} (hinc : knots.Pairwise (· < ·)) (targets : List ℝ) :
    (2 ≤ knots.length → ∀ values : List ℝ, values.length = knots.length →
      ∃ results, interpolate knots values targets = .ok results ∧
        results.length = targets.length) ∧
    (∀ (u v : ℝ) (ys zs : List ℝ), ys.length = knots.length → zs.length = knots.length →
      interpolate knots (mix u v ys zs) targets = do
        let results ← interpolate knots ys targets
        let results' ← interpolate knots zs targets
        return mix u v results results') ∧
    (2 ≤ knots.length → ∀ m q : ℝ,
      interpolate knots (knots.map fun x => m * x + q) targets =
        .ok (targets.map fun x => m * x + q)) ∧
    (∀ (α β : ℝ) (values : List ℝ), 0 < α →
      interpolate (knots.map fun x => α * x + β) values (targets.map fun x => α * x + β) =
        interpolate knots values targets) ∧
    ∀ (M : Mat3 ℝ) (samples : List (Vec3 ℝ)),
      Recording.interpolate knots (samples.map M.apply) targets =
        (Recording.interpolate knots samples targets).map (List.map M.apply) := by
  refine ⟨fun h2 values hvalues => ?_, fun u v ys zs => interpolate_mix hinc targets u v,
    interpolate_line hinc targets, fun α β values hα => ?_,
    fun M samples => Recording.interpolate_map M knots samples targets⟩
  · exact ⟨_, interpolate_eq_ok hinc targets h2 hvalues, List.length_map _⟩
  · exact interpolate_retime hinc targets hα β values

/-- Three points of a line, and its values between the knots and on both sides of them. -/
theorem interpolate_three_on_line :
    [(0 : ℝ), 1, 3].Pairwise (· < ·) ∧
      interpolate [(0 : ℝ), 1, 3] [5, 7, 11] [-2, 2, 10] = .ok [1, 9, 25] ∧
      interpolate [(4 : ℝ), 6, 10] [5, 7, 11] [0, 8, 24] = .ok [1, 9, 25] := by
  have hinc : [(0 : ℝ), 1, 3].Pairwise (· < ·) := by norm_num
  obtain ⟨-, -, hline, haffine, -⟩ := interpolate_laws hinc [-2, 2, 10]
  have hvalues := hline (by simp) 2 5
  have hmoved := haffine 2 4 [5, 7, 11] two_pos
  norm_num at hvalues hmoved
  exact ⟨hinc, hvalues, hmoved.trans hvalues⟩

end GyroDelay.Spline
