import GyroDelay.Proofs.Clocks

/-!
# The offset of two clocks

The offset adds a delay between the starts of two streams to the mean difference of timestamps
at equal places. It is the offset of the clocks when the streams take their samples at equal
distances from their starts; else it is off by the mean of what one stream falls behind the
other (`clockOffset_eq_add_drifts`), for uniform streams half the difference of their durations
over the common prefix (`clockOffset_points`).
-/

namespace GyroDelay

open Scalar

/-- How much later than in the first stream the samples at equal places are in the second one,
both counted from their starts. -/
noncomputable def drifts (first second : List ℝ) : List ℝ :=
  List.zipWith (fun a b => (b - second.headD 0) - (a - first.headD 0)) first second

theorem length_drifts (first second : List ℝ) :
    (drifts first second).length = min first.length second.length :=
  List.length_zipWith

theorem clockOffset_real {first second : List ℝ} (hfirst : first ≠ []) (hsecond : second ≠ [])
    (delay : ℝ) :
    clockOffset first second delay =
      .ok ((List.zipWith (fun a b => b - a) first second).sum /
        (min first.length second.length : ℕ) + delay) := by
  have hpos : 0 < min first.length second.length :=
    lt_min (List.length_pos_iff.mpr hfirst) (List.length_pos_iff.mpr hsecond)
  have hgaps : (List.zipWith (fun a b => b - a) first second).isEmpty = false := by
    rw [List.isEmpty_eq_false_iff, ← List.length_pos_iff, List.length_zipWith]
    exact hpos
  rw [clockOffset, hgaps, signedSum_real, ofNat_real, List.length_zipWith]
  rfl

theorem clockOffset_eq_add_drifts {first second : List ℝ} (hfirst : first ≠ [])
    (hsecond : second ≠ []) (Δ : ℝ) :
    clockOffset first second (Δ - (second.headD 0 - first.headD 0)) =
      .ok (Δ + (drifts first second).sum / (drifts first second).length) := by
  have hpos : 0 < min first.length second.length :=
    lt_min (List.length_pos_iff.mpr hfirst) (List.length_pos_iff.mpr hsecond)
  have hlen : ((min first.length second.length : ℕ) : ℝ) ≠ 0 := Nat.cast_ne_zero.mpr hpos.ne'
  have hdrifts : drifts first second =
      (List.zipWith (fun a b => b - a) first second).map
        fun x => 1 * x + -(second.headD 0 - first.headD 0) := by
    rw [drifts, List.map_zipWith]
    congr 1
    funext a b
    ring
  rw [clockOffset_real hfirst hsecond, length_drifts, hdrifts, sum_map_mul_add,
    List.length_zipWith]
  congr 1
  field_simp
  ring

/-- The offset that is computed from the delay between the starts of the streams. -/
theorem clockOffset_between_starts {first second : List ℝ} (hfirst : first ≠ [])
    (hsecond : second ≠ []) (Δ : ℝ) :
    clockOffset first second (Δ - (second.headD 0 - first.headD 0)) =
        .ok (Δ + (drifts first second).sum / (drifts first second).length) ∧
      (clockOffset first second (Δ - (second.headD 0 - first.headD 0)) = .ok Δ ↔
        (drifts first second).sum = 0) := by
  have hvalue := clockOffset_eq_add_drifts hfirst hsecond Δ
  refine ⟨hvalue, ?_⟩
  have hlen : ((drifts first second).length : ℝ) ≠ 0 := by
    rw [length_drifts]
    exact Nat.cast_ne_zero.mpr (lt_min (List.length_pos_iff.mpr hfirst)
      (List.length_pos_iff.mpr hsecond)).ne'
  rw [hvalue, Except.ok.injEq, add_eq_left, div_eq_zero_iff, or_iff_left hlen]

/-- Two streams of the same rate. -/
theorem clockOffset_between_starts_equal_rates :
    clockOffset [0, 1, 2] [10, 11, 12, 13] (9 - (10 - 0)) = .ok (9 : ℝ) := by
  refine (@clockOffset_between_starts [0, 1, 2] [10, 11, 12, 13] (List.cons_ne_nil _ _)
    (List.cons_ne_nil _ _) 9).2.mpr ?_
  norm_num [drifts]

/-- A second stream of half the rate. -/
theorem clockOffset_half_rate :
    ¬ ∀ (first second : List ℝ) (Δ : ℝ), first ≠ [] → second ≠ [] →
      first.Pairwise (· < ·) → second.Pairwise (· < ·) →
      clockOffset first second (Δ - (second.headD 0 - first.headD 0)) = .ok Δ := by
  intro h
  have hoffset := h [0, 1] [0, 2] 0 (List.cons_ne_nil _ _) (List.cons_ne_nil _ _)
    (by norm_num) (by norm_num)
  rw [clockOffset_eq_add_drifts (List.cons_ne_nil _ _) (List.cons_ne_nil _ _)] at hoffset
  have hzero := Except.ok.inj hoffset
  norm_num [drifts] at hzero

/-! ## Uniform streams -/

theorem drifts_points (a b T₁ T₂ : ℝ) (m n : ℕ) :
    drifts (Grid.points a T₁ (m + 1)) (Grid.points b T₂ (n + 1)) =
      (List.range (min m n + 1)).map fun i : ℕ => (T₂ - T₁) * i := by
  have hlength (start step : ℝ) (count : ℕ) : (Grid.points start step count).length = count := by
    rw [Grid.points_real, List.length_map, List.length_range]
  rw [drifts, Grid.headD_points a T₁ (Nat.succ_pos m), Grid.headD_points b T₂ (Nat.succ_pos n)]
  refine List.ext_getElem ?_ ?_
  · rw [List.length_zipWith, hlength, hlength, List.length_map, List.length_range]
    omega
  · intro i h₁ h₂
    simp only [List.getElem_zipWith, Grid.points_real, List.getElem_map, List.getElem_range]
    ring

theorem sum_map_range_mul (c : ℝ) (k : ℕ) :
    ((List.range (k + 1)).map fun i : ℕ => c * i).sum = c * k * (k + 1) / 2 := by
  induction k with
  | zero => simp
  | succ k ih =>
    rw [List.range_succ, List.map_append, List.sum_append, ih]
    simp only [List.map_cons, List.map_nil, List.sum_singleton, Nat.cast_add, Nat.cast_one]
    ring

/-- Uniform streams need the same interval, or only one sample in common. -/
theorem clockOffset_points (a b T₁ T₂ Δ : ℝ) (m n : ℕ) :
    clockOffset (Grid.points a T₁ (m + 1)) (Grid.points b T₂ (n + 1)) (Δ - (b - a)) =
      .ok (Δ + (T₂ - T₁) * (min m n : ℕ) / 2) := by
  have hne (start step : ℝ) (k : ℕ) : Grid.points start step (k + 1) ≠ [] := by
    rw [Grid.points_real]
    simp
  have hvalue := clockOffset_eq_add_drifts (hne a T₁ m) (hne b T₂ n) Δ
  have hpos : ((min m n : ℕ) : ℝ) + 1 ≠ 0 := by positivity
  rw [Grid.headD_points a T₁ (Nat.succ_pos m), Grid.headD_points b T₂ (Nat.succ_pos n),
    drifts_points, sum_map_range_mul, List.length_map, List.length_range,
    Nat.cast_add_one] at hvalue
  rw [hvalue]
  congr 2
  field_simp

end GyroDelay
