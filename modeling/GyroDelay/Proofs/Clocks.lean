import GyroDelay.ClockOffset
import GyroDelay.Proofs.Resampling
import GyroDelay.Proofs.Spline.Dilation

/-!
# Recordings by another clock

The same samples with the timestamps of a clock that runs `c` times as fast and is `s` ahead
(`Recording.retime`). Mean intervals are multiplied by `c` (`meanInterval_retime`), a grid
with `c` times the interval has the same points at the same instants (`onGrid_retime`), and
the offset of two clocks is multiplied by `c` and moved by what one clock is set ahead of the
other (`clockOffset_retime`).
-/

namespace GyroDelay

open Scalar

theorem meanInterval_retime (c s : ℝ) (times : List ℝ) :
    meanInterval (times.map (retime c s)) = (meanInterval times).map (c * ·) := by
  unfold meanInterval
  rw [differences_retime]
  by_cases hgaps : differences times = []
  · rw [hgaps]
    rfl
  · have hempty : (differences times).isEmpty = false := by
      rw [List.isEmpty_eq_false_iff]
      exact hgaps
    have hempty' : ((differences times).map (c * ·)).isEmpty = false := by
      rw [List.isEmpty_map, hempty]
    dsimp only
    rw [hempty, hempty', sum_real, sum_real, List.sum_map_mul_left, List.map_id', List.length_map,
      mul_div_assoc]
    rfl

/-! ## The offset of two clocks -/

theorem signedSum_real (xs : List ℝ) : signedSum xs = xs.sum := by
  unfold signedSum
  rw [zero_real, neg_zero, List.sum_eq_foldl]

/-- The sum of distances that are multiplied by `c` and moved by `d`. -/
theorem sum_map_mul_add (c d : ℝ) (xs : List ℝ) :
    (xs.map fun x => c * x + d).sum = c * xs.sum + xs.length * d := by
  induction xs with
  | nil => simp
  | cons x xs ih =>
    rw [List.map_cons, List.sum_cons, List.sum_cons, ih, List.length_cons, Nat.cast_add,
      Nat.cast_one]
    ring

theorem clockOffset_retime (c s₁ s₂ : ℝ) (first second : List ℝ) (delay : ℝ) :
    clockOffset (first.map (retime c s₁)) (second.map (retime c s₂)) (c * delay) =
      (clockOffset first second delay).map fun offset => c * offset + (s₂ - s₁) := by
  have hgaps : List.zipWith (fun a b => b - a) (first.map (retime c s₁))
      (second.map (retime c s₂)) =
        (List.zipWith (fun a b => b - a) first second).map fun x => c * x + (s₂ - s₁) := by
    rw [List.zipWith_map, List.map_zipWith]
    congr 1
    funext a b
    rw [retime, retime]
    ring
  unfold clockOffset
  rw [hgaps]
  generalize List.zipWith (fun a b => b - a) first second = gaps
  cases gaps with
  | nil => rfl
  | cons g gaps =>
    have hlength : ((g :: gaps).length : ℝ) ≠ 0 := Nat.cast_ne_zero.mpr (Nat.succ_ne_zero _)
    have hmean : (c * (g :: gaps).sum + (g :: gaps).length * (s₂ - s₁)) / (g :: gaps).length +
        c * delay = c * ((g :: gaps).sum / (g :: gaps).length + delay) + (s₂ - s₁) := by
      field_simp
      ring
    dsimp only
    rw [signedSum_real, signedSum_real, sum_map_mul_add, List.length_map, ofNat_real, hmean]
    rfl

/-! ## Grids -/

namespace Recording

/-- The recording with the timestamps of another clock. -/
noncomputable def retime (c s : ℝ) (r : Recording ℝ) : Recording ℝ :=
  ⟨r.samples, r.times.map (GyroDelay.retime c s)⟩

variable {c : ℝ} (hc : 0 < c) (s : ℝ)

include hc in
theorem isTrack_retime (r : Recording ℝ) : (r.retime c s).IsTrack ↔ r.IsTrack := by
  have hpairwise : (r.times.map (GyroDelay.retime c s)).Pairwise (· < ·) ↔
      r.times.Pairwise (· < ·) := by
    rw [List.pairwise_map]
    simp only [retime_lt_retime hc]
  rw [isTrack_iff, isTrack_iff, violation?_eq_none_iff, violation?_eq_none_iff, retime, hpairwise,
    List.length_map]

namespace IsTrack

variable {r : Recording ℝ} (h : r.IsTrack)

include h

theorem start_retime : (r.retime c s).start = GyroDelay.retime c s r.start := by
  obtain ⟨t, times, htimes⟩ := List.exists_cons_of_ne_nil h.times_ne_nil
  rw [start, start, retime, htimes]
  rfl

theorem stop_retime : (r.retime c s).stop = GyroDelay.retime c s r.stop := by
  rw [stop, stop, retime, List.getLastD_eq_getLast?, List.getLastD_eq_getLast?,
    List.getLast?_map, List.getLast?_eq_some_getLast h.times_ne_nil]
  rfl

include hc

/-- Both the span and the interval are multiplied by `c`. -/
theorem gridRows_retime (interval : ℝ) :
    (r.retime c s).gridRows (c * interval) = r.gridRows interval := by
  rw [gridRows, gridRows, h.start_retime, h.stop_retime, retime_sub_retime,
    mul_div_mul_left _ _ hc.ne']

theorem gridTimes_retime (interval : ℝ) :
    (r.retime c s).gridTimes (c * interval) =
      (r.gridTimes interval).map (GyroDelay.retime c s) := by
  rw [gridTimes, gridTimes, h.gridRows_retime hc, h.start_retime, Grid.points_real,
    Grid.points_real, List.map_map]
  refine List.map_congr_left fun i _ => ?_
  simp only [Function.comp_apply, GyroDelay.retime]
  ring

theorem sampleAt_retime (t : ℝ) :
    (r.retime c s).sampleAt (GyroDelay.retime c s t) = r.sampleAt t := by
  simp only [sampleAt, retime, Spline.eval_through_retime hc s h.times_ne_nil]

theorem onGrid_retime (interval : ℝ) :
    (r.retime c s).onGrid (c * interval) = (r.onGrid interval).retime c s := by
  have hsamples : (r.retime c s).sampleAt ∘ GyroDelay.retime c s = r.sampleAt := by
    funext t
    exact h.sampleAt_retime hc s t
  rw [Recording.onGrid, h.gridTimes_retime hc, List.map_map, hsamples]
  rfl

end IsTrack

end Recording

end GyroDelay
