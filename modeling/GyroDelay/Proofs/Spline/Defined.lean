import GyroDelay.Proofs.Spline.Dominance
import GyroDelay.Proofs.Spline.Interpolation

/-!
# A fit takes no quotient by zero

Where a quotient by zero is undefined, the fit through strictly increasing knots still has the same
result, and all its numbers are defined (`fit_defined`). What it divides by are the widths of the
pieces, in the slopes of the chords, the pivots of the elimination, and multiples of the widths in
the cubics. A value of the spline is then defined as well (`Natural.eval_defined`).

Each stage of the fit gets the numbers that it gets in exact arithmetic, all defined, and yields
those that it yields there. A stage that works through lists in step does so if each of its steps
does (`zipWith_map_eq`).
-/

namespace GyroDelay.Spline

open PartialReal

/-! ## Splines with their numbers replaced -/

/-- A cubic with all its numbers replaced. -/
def Segment.map {β γ : Type} (f : β → γ) (s : Segment β) : Segment γ :=
  ⟨f s.d, f s.c, f s.b, f s.a⟩

/-- A piece with all its numbers replaced. -/
def Piece.map {β γ : Type} (f : β → γ) (p : Piece β) : Piece γ := ⟨f p.start, p.cubic.map f⟩

/-- A spline with all its numbers replaced. -/
def Natural.map {β γ : Type} (f : β → γ) (s : Natural β) : Natural γ :=
  { pieces := s.pieces.map (Piece.map f)
    lastKnot := f s.lastKnot
    lastValue := f s.lastValue
    lastSlope := f s.lastSlope }

/-! ## Lists in step -/

theorem zipWith_map_eq {β γ δ β' γ' δ' : Type} {m : β → β'} {n : γ → γ'} {o : δ → δ'}
    {f : β → γ → δ} {f' : β' → γ' → δ'} {xs : List β} {ys : List γ}
    (h : ∀ x ∈ xs, ∀ y ∈ ys, f' (m x) (n y) = o (f x y)) :
    List.zipWith f' (xs.map m) (ys.map n) = (List.zipWith f xs ys).map o := by
  induction xs generalizing ys with
  | nil => rfl
  | cons x xs ih =>
    cases ys with
    | nil => rfl
    | cons y ys =>
      obtain ⟨hx, hxs⟩ := List.forall_mem_cons.mp h
      rw [List.map_cons, List.map_cons, List.zipWith_cons_cons, List.zipWith_cons_cons,
        List.map_cons, hx y List.mem_cons_self,
        ih fun x' hx' y' hy' => hxs x' hx' y' (List.mem_cons_of_mem y hy')]

theorem zip_tail_defined (xs : List ℝ) :
    (xs.map defined).zip (xs.map defined).tail =
      (xs.zip xs.tail).map (Prod.map defined defined) := by
  rw [← List.map_tail, List.zip_map]

theorem differences_defined (xs : List ℝ) :
    differences (xs.map defined) = (differences xs).map defined := by
  rw [differences, ← List.map_tail]
  exact zipWith_map_eq fun x _ y _ => rfl

/-! ## The stages of a fit -/

section Stages

variable {knots values : List ℝ} (h : knots.length = values.length)
  (hinc : knots.Pairwise (· < ·))

theorem curvatureSystem_defined (widths slopes : List ℝ) :
    curvatureSystem (widths.map defined) (slopes.map defined) =
      (curvatureSystem widths slopes).map (Equation.map defined) := by
  rw [curvatureSystem, zip_tail_defined, zip_tail_defined]
  exact zipWith_map_eq fun _ _ _ _ => rfl

/-- The only quotients of a cubic are by numbers and by a multiple of the width. -/
theorem pieceCubic_defined {w : ℝ} (hw : w ≠ 0) (slope y m₀ m₁ : ℝ) :
    pieceCubic (defined w) (defined slope) (defined y) (defined m₀) (defined m₁) =
      (pieceCubic w slope y m₀ m₁).map defined := by
  have hsix : (6 : ℝ) ≠ 0 := by norm_num
  have hwidth : 6 * w ≠ 0 := mul_ne_zero hsix hw
  simp only [pieceCubic, Segment.map, ofNat_defined, Scalar.ofNat_real, Nat.cast_ofNat, mul_defined,
    add_defined, sub_defined, div_defined hsix, div_defined two_ne_zero, div_defined hwidth]

theorem endSlope_defined (s : Segment ℝ) (w : ℝ) :
    endSlope (s.map defined) (defined w) = defined (endSlope s w) := rfl

include hinc

theorem chords_defined :
    List.zipWith (· / ·) (differences (values.map defined)) (differences (knots.map defined)) =
      (chords knots values).map defined := by
  have hwidth := (pairwise_lt_iff_differences_pos knots).mp hinc
  rw [differences_defined, differences_defined]
  exact zipWith_map_eq fun y _ w hw => div_defined (hwidth w hw).ne'

theorem cubics_defined :
    List.zipWith (fun (w, slope) (y, m₀, m₁) => pieceCubic w slope y m₀ m₁)
        (((differences knots).map defined).zip ((chords knots values).map defined))
        ((values.map defined).zip
          (((bends knots values).map defined).zip ((bends knots values).map defined).tail)) =
      (cubics knots values).map (Segment.map defined) := by
  have hwidth := (pairwise_lt_iff_differences_pos knots).mp hinc
  rw [zip_tail_defined, List.zip_map, List.zip_map]
  refine zipWith_map_eq fun c hc _ _ => ?_
  exact pieceCubic_defined (hwidth c.1 (List.of_mem_zip hc).1).ne' _ _ _ _

include h

theorem bends_defined :
    curvatures ((differences knots).map defined) ((chords knots values).map defined) =
      (bends knots values).map defined := by
  have hpivots := pivots_curvatureSystem_ne_zero h hinc
  rw [curvatures, curvatureSystem_defined, solveTridiagonal_defined hpivots, zero_defined]
  simp only [bends, curvatures, Scalar.zero_real, List.map_cons, List.map_append, List.map_nil]

theorem through_defined :
    Natural.through (knots.map defined) (values.map defined) =
      (Natural.through knots values).map defined := by
  have hpieces : List.zipWith Piece.mk (knots.map defined)
      ((cubics knots values).map (Segment.map defined)) =
      (List.zipWith Piece.mk knots (cubics knots values)).map (Piece.map defined) :=
    zipWith_map_eq fun _ _ _ _ => rfl
  have hlast : ((cubics knots values).map (Segment.map defined)).getLastD
      ⟨defined 0, defined 0, defined 0, defined 0⟩ =
      ((cubics knots values).getLastD ⟨0, 0, 0, 0⟩).map defined :=
    getLastD_map (Segment.map defined) (cubics knots values) ⟨0, 0, 0, 0⟩
  rw [Natural.through, chords_defined hinc, differences_defined, bends_defined h hinc,
    cubics_defined hinc, hpieces, zero_defined, hlast, getLastD_map, getLastD_map, getLastD_map,
    endSlope_defined, through_eq, Natural.map, List.map_toArray]

end Stages

theorem disorder?_defined {knots : List ℝ} (hinc : knots.Pairwise (· < ·)) :
    disorder? (knots.map defined) = none := by
  rw [disorder?_eq_none_iff_isChain, List.isChain_map]
  simp only [lt_defined]
  exact hinc.isChain

/-- **No quotient by zero.** The fit through strictly increasing knots has the same result where a
quotient by zero is undefined. -/
theorem fit_defined {knots values : List ℝ} (h : knots.length = values.length)
    (h2 : 2 ≤ values.length) (hinc : knots.Pairwise (· < ·)) :
    Natural.fit (knots.map defined) (values.map defined) =
      .ok ((Natural.through knots values).map defined) := by
  rw [Natural.fit, List.length_map, List.length_map, if_neg (by omega), if_neg (by omega),
    disorder?_defined hinc, through_defined h hinc]

/-! ## The value at an argument -/

namespace Natural

theorem startsUpTo_defined (pieces : Array (Piece ℝ)) (x : ℝ) (low high : ℕ) :
    startsUpTo (pieces.map (Piece.map defined)) (defined x) low high =
      startsUpTo pieces x low high := by
  fun_induction startsUpTo pieces x low high with
  | case1 low high hlt mid hnone =>
    rw [startsUpTo, if_pos hlt]
    dsimp only
    rw [Array.getElem?_map, show pieces[(low + high) / 2]? = none from hnone]
    rfl
  | case2 low high hlt mid p hp hle ih =>
    rw [startsUpTo, if_pos hlt, ← ih]
    dsimp only
    rw [Array.getElem?_map, show pieces[(low + high) / 2]? = some p from hp]
    exact if_pos ((le_defined p.start x).mpr hle)
  | case3 low high hlt mid p hp hgt ih =>
    rw [startsUpTo, if_pos hlt, ← ih]
    dsimp only
    rw [Array.getElem?_map, show pieces[(low + high) / 2]? = some p from hp]
    exact if_neg (mt (le_defined p.start x).mp hgt)
  | case4 low high hge => rw [startsUpTo, if_neg hge]

theorem getD_pieces_defined (s : Natural ℝ) (i : ℕ) :
    (s.map defined).pieces.getD i ⟨(s.map defined).lastKnot,
        ⟨Scalar.zero, Scalar.zero, (s.map defined).lastSlope, (s.map defined).lastValue⟩⟩ =
      (s.pieces.getD i ⟨s.lastKnot, ⟨Scalar.zero, Scalar.zero, s.lastSlope, s.lastValue⟩⟩).map
        defined := by
  rw [Array.getD_eq_getD_getElem?, Array.getD_eq_getD_getElem?, Natural.map, Array.getElem?_map,
    zero_defined, Scalar.zero_real]
  exact Option.getD_map (Piece.map defined) ⟨s.lastKnot, ⟨0, 0, s.lastSlope, s.lastValue⟩⟩ _

theorem pieceAt_defined (s : Natural ℝ) (x : ℝ) :
    (s.map defined).pieceAt (defined x) = (s.pieceAt x).map defined := by
  have hindex : startsUpTo (s.map defined).pieces (defined x) 0 (s.map defined).pieces.size =
      startsUpTo s.pieces x 0 s.pieces.size := by
    rw [Natural.map, Array.size_map, startsUpTo_defined]
  rw [pieceAt, hindex, getD_pieces_defined, pieceAt]

/-- The value of a spline with defined numbers is defined. -/
theorem eval_defined (s : Natural ℝ) (x : ℝ) :
    (s.map defined).eval (defined x) = defined (s.eval x) := by
  rw [eval, eval, getD_pieces_defined, pieceAt_defined]
  dsimp only
  generalize s.pieces.getD 0 _ = first
  have hfirst := lt_defined x first.start
  have hlast := lt_defined s.lastKnot x
  by_cases hbefore : x < first.start
  · rw [if_pos hbefore]
    exact if_pos (hfirst.mpr hbefore)
  · rw [if_neg hbefore]
    refine (if_neg (mt hfirst.mp hbefore)).trans ?_
    by_cases hafter : s.lastKnot < x
    · rw [if_pos hafter]
      exact if_pos (hlast.mpr hafter)
    · rw [if_neg hafter]
      exact if_neg (mt hlast.mp hafter)

end Natural

end GyroDelay.Spline
