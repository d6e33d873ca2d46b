import Mathlib.Data.List.GetD
import GyroDelay.Proofs.Exact
import GyroDelay.Spline.Natural

/-!
# The shape of a fitted spline

What a spline is made of in exact arithmetic, apart from the coefficients that solve its
equations: it has one piece between each two neighbouring knots, its knots and values are
the given ones (`knots_through`, `values_through`), and it has a slope at every knot
(`length_slopes_through`). Fitting succeeds for strictly increasing knots (`fit_eq_ok`).
-/

namespace GyroDelay

/-! ## Neighbours in a list -/

theorem zip_tail_getElem? (xs : List ℝ) {i : ℕ} (h : i + 1 < xs.length) :
    (xs.zip xs.tail)[i]? = some (xs.getD i 0, xs.getD (i + 1) 0) := by
  rw [List.getElem?_eq_getElem (by simp; omega), List.getElem_zip, List.getElem_tail,
    List.getD_eq_getElem _ _ (by omega), List.getD_eq_getElem _ _ h]

theorem getD_lt_getD {xs : List ℝ} (h : xs.Pairwise (· < ·)) {i j : ℕ} (hij : i < j)
    (hj : j < xs.length) : xs.getD i 0 < xs.getD j 0 := by
  rw [List.getD_eq_getElem _ _ (hij.trans hj), List.getD_eq_getElem _ _ hj]
  exact List.pairwise_iff_getElem.mp h i j _ _ hij

theorem getD_le_getD {xs : List ℝ} (h : xs.Pairwise (· < ·)) {i j : ℕ} (hij : i ≤ j)
    (hj : j < xs.length) : xs.getD i 0 ≤ xs.getD j 0 := by
  rcases hij.eq_or_lt with rfl | hlt
  · exact le_rfl
  · exact (getD_lt_getD h hlt hj).le

theorem getLastD_eq_getD {β : Type} (xs : List β) (b : β) :
    xs.getLastD b = xs.getD (xs.length - 1) b := by
  rw [List.getLastD_eq_getLast?, List.getLast?_eq_getElem?, List.getD_eq_getElem?_getD]

theorem getLastD_map {β γ : Type} (f : β → γ) (xs : List β) (b : β) :
    (xs.map f).getLastD (f b) = f (xs.getLastD b) := by
  rw [List.getLastD_eq_getLast?, List.getLastD_eq_getLast?, List.getLast?_map, Option.getD_map]

theorem length_differences (xs : List ℝ) : (differences xs).length = xs.length - 1 := by
  simp [differences]

theorem differences_getElem? (xs : List ℝ) {i : ℕ} (hi : i + 1 < xs.length) :
    (differences xs)[i]? = some (xs.getD (i + 1) 0 - xs.getD i 0) := by
  rw [differences, List.getElem?_zipWith_eq_some]
  refine ⟨xs.getD i 0, xs.getD (i + 1) 0, ?_, ?_, rfl⟩
  · rw [List.getD_eq_getElem _ _ (by omega), List.getElem?_eq_getElem]
  · rw [List.getD_eq_getElem _ _ hi, List.getElem?_tail, List.getElem?_eq_getElem]

/-- A list increases strictly exactly if neighbours have positive distances. -/
theorem pairwise_lt_iff_differences_pos (xs : List ℝ) :
    xs.Pairwise (· < ·) ↔ ∀ d ∈ differences xs, 0 < d := by
  rw [← List.isChain_iff_pairwise, List.isChain_iff_getElem, List.forall_mem_iff_forall_getElem]
  simp only [length_differences, Nat.lt_sub_iff_add_lt]
  simp only [differences, List.getElem_zipWith, List.getElem_tail, sub_pos]

theorem dropLast_append_getLastD (xs : List ℝ) (h : xs ≠ []) :
    xs.dropLast ++ [xs.getLastD 0] = xs := by
  rcases List.eq_nil_or_concat' xs with rfl | ⟨ys, y, rfl⟩
  · exact absurd rfl h
  · rw [List.dropLast_concat, List.getLastD_concat]

namespace Spline

/-! ## Cubics -/

namespace Segment

theorem eval_real (s : Segment ℝ) (t : ℝ) : s.eval t = ((s.d * t + s.c) * t + s.b) * t + s.a := rfl

theorem slope_real (s : Segment ℝ) (t : ℝ) : s.slope t = (3 * s.d * t + 2 * s.c) * t + s.b := by
  simp only [slope, Scalar.ofNat_real, Nat.cast_ofNat]

theorem slope_zero (s : Segment ℝ) : s.slope 0 = s.b := by
  rw [slope_real]
  ring

end Segment

/-! ## The parts of a spline -/

/-- The slopes of the chords between neighbouring points. -/
noncomputable def chords (knots values : List ℝ) : List ℝ :=
  List.zipWith (· / ·) (differences values) (differences knots)

/-- The second derivatives at the knots. -/
noncomputable def bends (knots values : List ℝ) : List ℝ :=
  curvatures (differences knots) (chords knots values)

/-- The cubics of the pieces from left to right. -/
noncomputable def cubics (knots values : List ℝ) : List (Segment ℝ) :=
  List.zipWith (fun (h, chord) (y, m₀, m₁) => pieceCubic h chord y m₀ m₁)
    ((differences knots).zip (chords knots values))
    (values.zip ((bends knots values).zip (bends knots values).tail))

theorem through_eq (knots values : List ℝ) :
    Natural.through knots values =
      { pieces := (List.zipWith Piece.mk knots (cubics knots values)).toArray
        lastKnot := knots.getLastD 0
        lastValue := values.getLastD 0
        lastSlope := endSlope ((cubics knots values).getLastD ⟨0, 0, 0, 0⟩)
          ((differences knots).getLastD 0) } := by
  rw [← Scalar.zero_real]
  rfl

theorem length_forward (system : List (Equation ℝ)) : (forward system).length = system.length := by
  have h (done : List (Eliminated ℝ)) :
      (system.foldl (fun done e => eliminate done.head? e :: done) done).length =
        done.length + system.length := by
    induction system generalizing done with
    | nil => rfl
    | cons e system ih =>
      rw [List.foldl_cons, ih, List.length_cons, List.length_cons]
      omega
  rw [forward, h, List.length_nil, Nat.zero_add]

theorem length_substitute (after : List ℝ) (e : Eliminated ℝ) :
    (substitute after e).length = after.length + 1 := by
  cases after with
  | nil => rfl
  | cons w rest => rfl

theorem length_solveTridiagonal (system : List (Equation ℝ)) :
    (solveTridiagonal system).length = system.length := by
  have h (rows : List (Eliminated ℝ)) (after : List ℝ) :
      (rows.foldl substitute after).length = after.length + rows.length := by
    induction rows generalizing after with
    | nil => rfl
    | cons e rows ih =>
      rw [List.foldl_cons, ih, length_substitute, List.length_cons]
      omega
  rw [solveTridiagonal, h, length_forward, List.length_nil, Nat.zero_add]

section Lengths

variable {knots values : List ℝ} (h : knots.length = values.length)

include h

theorem length_chords : (chords knots values).length = values.length - 1 := by
  simp only [chords, List.length_zipWith, length_differences]
  omega

theorem length_bends (h2 : 2 ≤ values.length) : (bends knots values).length = values.length := by
  simp only [bends, curvatures, curvatureSystem, List.length_cons, List.length_append,
    length_solveTridiagonal, List.length_zipWith, List.length_zip, List.length_tail,
    length_differences, length_chords h, List.length_nil]
  omega

theorem length_cubics (h2 : 2 ≤ values.length) :
    (cubics knots values).length = values.length - 1 := by
  simp only [cubics, List.length_zipWith, List.length_zip, List.length_tail, length_differences,
    length_chords h, length_bends h h2]
  omega

theorem map_a_cubics (h2 : 2 ≤ values.length) :
    (cubics knots values).map (·.a) = values.dropLast := by
  apply List.ext_getElem
  · rw [List.length_map, length_cubics h h2, List.length_dropLast]
  · intro i hi _
    rw [List.length_map, length_cubics h h2] at hi
    simp only [cubics, List.getElem_map, List.getElem_zipWith, List.getElem_zip,
      List.getElem_dropLast, pieceCubic]

theorem map_cubic_pieces (h2 : 2 ≤ values.length) :
    (Natural.through knots values).pieces.toList.map (·.cubic) = cubics knots values := by
  rw [through_eq]
  apply List.ext_getElem
  · simp only [List.length_map, List.length_zipWith, length_cubics h h2]
    omega
  · intro i _ _
    simp only [List.getElem_map, List.getElem_zipWith]

theorem map_start_pieces (h2 : 2 ≤ values.length) :
    (Natural.through knots values).pieces.toList.map (·.start) = knots.dropLast := by
  rw [through_eq]
  apply List.ext_getElem
  · simp only [List.length_map, List.length_zipWith, length_cubics h h2, List.length_dropLast]
    omega
  · intro i _ _
    simp only [List.getElem_map, List.getElem_zipWith, List.getElem_dropLast]

theorem knots_through (h2 : 2 ≤ values.length) : (Natural.through knots values).knots = knots := by
  have hne : knots ≠ [] := List.length_pos_iff.mp (by omega)
  rw [Natural.knots, map_start_pieces h h2, through_eq]
  exact dropLast_append_getLastD knots hne

theorem values_through (h2 : 2 ≤ values.length) :
    (Natural.through knots values).values = values := by
  have hne : values ≠ [] := List.length_pos_iff.mp (by omega)
  have ha : (Natural.through knots values).pieces.toList.map (·.cubic.a) = values.dropLast := by
    rw [← map_a_cubics h h2, ← map_cubic_pieces h h2, List.map_map]
    rfl
  rw [Natural.values, ha, through_eq]
  exact dropLast_append_getLastD values hne

theorem length_slopes_through (h2 : 2 ≤ values.length) :
    (Natural.through knots values).slopes.length = values.length := by
  have hb : (Natural.through knots values).pieces.toList.map (·.cubic.b) =
      (cubics knots values).map (·.b) := by
    rw [← map_cubic_pieces h h2, List.map_map]
    rfl
  rw [Natural.slopes, hb, List.length_append, List.length_map, length_cubics h h2,
    List.length_singleton]
  omega

end Lengths

/-! ## Fitting -/

theorem disorder?_eq_none_iff_isChain {α : Type} [Scalar α] {knots : List α} :
    disorder? knots = none ↔ knots.IsChain (· < ·) := by
  rw [disorder?, Option.map_eq_none_iff, List.findIdx?_eq_none_iff]
  induction knots with
  | nil => simp
  | cons a knots ih =>
    cases knots with
    | nil => simp
    | cons b knots =>
      rw [List.isChain_cons_cons, ← ih, List.tail_cons, List.zipWith_cons_cons,
        List.forall_mem_cons, List.tail_cons, Bool.not_eq_false', decide_eq_true_iff]

theorem disorder?_eq_none {knots : List ℝ} (h : knots.Pairwise (· < ·)) :
    disorder? knots = none :=
  disorder?_eq_none_iff_isChain.mpr h.isChain

theorem fit_eq_ok {knots values : List ℝ} (h : knots.length = values.length)
    (h2 : 2 ≤ values.length) (hinc : knots.Pairwise (· < ·)) :
    Natural.fit knots values = .ok (Natural.through knots values) := by
  rw [Natural.fit, if_neg (by omega), if_neg (by omega), disorder?_eq_none hinc]

/-- A fit fails for the sake of the knots, whatever the values, or it never does. -/
theorem fit_cases (knots : List ℝ) (n : ℕ) :
    (∃ fault : Fault ℝ, ∀ values : List ℝ, values.length = n →
      Natural.fit knots values = .error fault) ∨
    knots.length = n ∧ 2 ≤ n ∧ ∀ values : List ℝ, values.length = n →
      Natural.fit knots values = .ok (Natural.through knots values) := by
  by_cases hlen : knots.length = n
  · by_cases h2 : knots.length < 2
    · left
      refine ⟨.invalidInput (.fewKnots knots.length), fun values hvalues => ?_⟩
      rw [Natural.fit, if_neg (by omega), if_pos h2]
    · cases hdisorder : disorder? knots with
      | some i =>
        left
        refine ⟨.invalidInput (.knotOrder i), fun values hvalues => ?_⟩
        rw [Natural.fit, if_neg (by omega), if_neg h2, hdisorder]
      | none =>
        refine Or.inr ⟨hlen, by omega, fun values hvalues => ?_⟩
        rw [Natural.fit, if_neg (by omega), if_neg h2, hdisorder]
  · left
    refine ⟨.invalidInput (.knotCount knots.length n), fun values hvalues => ?_⟩
    rw [Natural.fit, if_pos (by omega), hvalues]

/-! ## Pinned slopes and segments -/

namespace Natural

variable (s : Natural ℝ)

theorem length_pinnedSlopes (h : 2 ≤ s.slopes.length) :
    s.pinnedSlopes.length = s.slopes.length := by
  simp only [pinnedSlopes, List.length_cons, List.length_append, List.length_dropLast,
    List.length_drop, List.length_nil]
  omega

theorem pinnedSlopes_zero : s.pinnedSlopes.getD 0 0 = 0 := by
  simp [pinnedSlopes]

theorem segments_getElem? {i : ℕ} (hv : i + 1 < s.values.length)
    (hs : s.pinnedSlopes.length = s.values.length) :
    s.segments[i]? = some (Segment.hermite s.spacing (s.values.getD i 0) (s.values.getD (i + 1) 0)
      (s.pinnedSlopes.getD i 0) (s.pinnedSlopes.getD (i + 1) 0)) := by
  rw [segments, List.getElem?_zipWith, zip_tail_getElem? _ hv, zip_tail_getElem? _ (by omega)]

end Natural

end Spline

end GyroDelay
