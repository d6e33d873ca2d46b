import GyroDelay.Proofs.Resampling
import GyroDelay.Proofs.Spline.Interpolation

/-!
# The grid covers the recording

In exact arithmetic a track is refused by resampling exactly if its grid has more points than it
may have, and moved onto that grid otherwise (`resample_covers`). There is a point for each
interval that begins before the last timestamp (`add_mul_lt_stop_iff`) and one more. So the last
point does not come before the last timestamp, the one before it does, and at most the last row
is extrapolated, whether or not the interval divides the duration.

A spline passes through its points, so a timestamp that is on the grid keeps its sample
(`IsTrack.getElem?_samples`).
-/

namespace GyroDelay

theorem Grid.getD_points (start step : ℝ) {i count : ℕ} (hi : i < count) :
    (points start step count).getD i 0 = start + i * step := by
  rw [points_real, List.getD_eq_getElem?_getD, List.getElem?_map, List.getElem?_range hi]
  rfl

namespace Recording

theorem length_onGrid (r : Recording ℝ) (interval : ℝ) :
    (r.onGrid interval).times.length = r.gridRows interval := by
  rw [onGrid, gridTimes, Grid.points_real, List.length_map, List.length_range]

/-- What is left of a recording on a grid of `rows` points that begins with its first timestamp
and covers its last one. -/
structure Covers (g r : Recording ℝ) (interval : ℝ) (rows : ℕ) : Prop where
  two_le_rows : 2 ≤ rows
  length_times : g.times.length = rows
  length_samples : g.samples.length = rows
  time : ∀ i < rows, g.times.getD i 0 = r.start + i * interval
  last_but_one : g.times.getD (rows - 2) 0 < r.stop
  last : r.stop ≤ g.times.getD (rows - 1) 0
  last_lt : g.times.getD (rows - 1) 0 < r.stop + interval
  /-- Every timestamp lies between the first and the last point. -/
  covered : ∀ t ∈ r.times, t ∈ Set.Icc (g.times.getD 0 0) (g.times.getD (rows - 1) 0)
  /-- Every point but the last one lies between the first and the last timestamp. -/
  inside : ∀ i, i + 1 < rows → g.times.getD i 0 ∈ Set.Ico r.start r.stop
  /-- A timestamp on the grid keeps its sample. -/
  sample : ∀ i j, i < rows → j < r.times.length →
    g.times.getD i 0 = r.times.getD j 0 → g.samples[i]? = r.samples[j]?

/-! ## Points and timestamps -/

/-- A point of the grid has another one behind it exactly if it comes before the last timestamp. -/
theorem add_mul_lt_stop_iff (r : Recording ℝ) {interval : ℝ} (hpos : 0 < interval) (i : ℕ) :
    r.start + i * interval < r.stop ↔ i + 1 < r.gridRows interval := by
  rw [gridRows, Nat.add_lt_add_iff_right, Nat.lt_ceil, lt_div_iff₀ hpos, lt_sub_iff_add_lt']

namespace IsTrack

variable {r : Recording ℝ} (h : r.IsTrack)

include h

theorem mem_Icc_of_mem_times {t : ℝ} (ht : t ∈ r.times) : t ∈ Set.Icc r.start r.stop := by
  obtain ⟨j, hj, rfl⟩ := List.getElem_of_mem ht
  rw [r.start_eq_getD, r.stop_eq_getD, ← List.getD_eq_getElem _ 0 hj]
  exact ⟨getD_le_getD h.pairwise_times (Nat.zero_le j) hj,
    getD_le_getD h.pairwise_times (by omega) (by omega)⟩

/-- The samples at a timestamp, each axis from the spline through it, are those of the
recording. -/
theorem getElem?_samples {j : ℕ} (hj : j < r.times.length) :
    r.samples[j]? = some (r.sampleAt (r.times.getD j 0)) := by
  have hj' : j < r.samples.length := h.length_samples ▸ hj
  have haxis (f : Vec3 ℝ → ℝ) :
      (Spline.Natural.through r.times (r.samples.map f)).eval (r.times.getD j 0) =
        f r.samples[j] := by
    have hlen : r.times.length = (r.samples.map f).length := by
      rw [List.length_map, h.length_samples]
    have hlt : j < (r.samples.map f).length := by rwa [List.length_map]
    rw [Spline.eval_knot hlen (hlen ▸ h.two_le_length) h.pairwise_times hlt,
      List.getD_eq_getElem _ _ hlt, List.getElem_map]
  rw [sampleAt, haxis, haxis, haxis, List.getElem?_eq_getElem hj']

/-! ## Coverage -/

theorem covers_onGrid {interval : ℝ} (hpos : 0 < interval) :
    (r.onGrid interval).Covers r interval (r.gridRows interval) := by
  have hrows := h.two_le_gridRows hpos
  obtain ⟨n, hn⟩ : ∃ n, r.gridRows interval = n + 2 := Nat.exists_eq_add_of_le' hrows
  have htime (i : ℕ) (hi : i < r.gridRows interval) :
      (r.onGrid interval).times.getD i 0 = r.start + i * interval := Grid.getD_points _ _ hi
  have hstop (i : ℕ) := r.add_mul_lt_stop_iff hpos i
  have hlast : r.stop ≤ (r.onGrid interval).times.getD (r.gridRows interval - 1) 0 := by
    rw [htime _ (by omega), ← not_lt, hstop]
    omega
  constructor
  case two_le_rows => exact hrows
  case length_times => exact r.length_onGrid interval
  case length_samples => exact (List.length_map _).trans (r.length_onGrid interval)
  case time => exact htime
  case last_but_one =>
    rw [htime _ (by omega), hstop]
    omega
  case last => exact hlast
  case last_lt =>
    -- the last point is one interval behind the one before it
    have hbefore : r.start + (n : ℝ) * interval < r.stop := (hstop n).mpr (by omega)
    rw [htime _ (by omega), hn, Nat.add_succ_sub_one, Nat.cast_add_one, add_one_mul, ← add_assoc]
    exact add_lt_add_left hbefore interval
  case covered =>
    intro t ht
    obtain ⟨hstart, hle⟩ := h.mem_Icc_of_mem_times ht
    refine ⟨?_, hle.trans hlast⟩
    rw [htime 0 (by omega), Nat.cast_zero, zero_mul, add_zero]
    exact hstart
  case inside =>
    intro i hi
    rw [htime i (by omega)]
    exact ⟨le_add_of_nonneg_right (by positivity), (hstop i).mpr hi⟩
  case sample =>
    intro i j hi hj hij
    rw [h.getElem?_samples hj, ← hij, htime i hi, Recording.onGrid, gridTimes,
      Grid.points_real, List.map_map, List.getElem?_map, List.getElem?_range hi]
    rfl

end IsTrack

/-- **The grid of a resampled recording.** A track is refused exactly if its grid has more points
than the limit, and is moved onto that grid otherwise: the grid covers the whole recording, at
most its last point lies behind it, and a timestamp on the grid keeps its sample. -/
theorem resample_covers {r : Recording ℝ} (h : r.IsTrack) {interval : ℝ} (hpos : 0 < interval)
    (limit : ℕ) :
    let rows := ⌈(r.stop - r.start) / interval⌉₊ + 1
    (limit < rows → r.resample interval limit = .error
      (.invalidInput (.gridSize (r.stop + interval - r.start) interval rows limit))) ∧
    (rows ≤ limit → ∃ g, r.resample interval limit = .ok g ∧ g.Covers r interval rows) := by
  intro rows
  have heq := h.resample_eq hpos limit
  refine ⟨fun hlt => ?_, fun hle => ⟨r.onGrid interval, ?_, h.covers_onGrid hpos⟩⟩
  · rw [heq, if_pos (show limit < r.gridRows interval from hlt)]
    rfl
  · rw [heq, if_neg (not_lt.mpr (show r.gridRows interval ≤ limit from hle))]

/-- A recording of three seconds at two seconds a point: the second sample is kept, the last row
lies one second behind the recording. -/
theorem resample_every_two_seconds :
    let r : Recording ℝ := ⟨[⟨1, 0, 2⟩, ⟨0, 1, 5⟩, ⟨3, 3, 3⟩], [0, 2, 3]⟩
    r.IsTrack ∧ (0 : ℝ) < 2 ∧
      r.resample 2 2 = .error (.invalidInput (.gridSize 5 2 3 2)) ∧
      ∃ g, r.resample 2 3 = .ok g ∧ g.samples[1]? = some ⟨0, 1, 5⟩ ∧ g.times.getD 2 0 = 4 := by
  intro r
  have htrack : r.IsTrack := ⟨rfl, by simp [r], by norm_num [r]⟩
  have hstart : r.start = 0 := rfl
  have hstop : r.stop = 3 := rfl
  have hceil : ⌈(r.stop - r.start) / 2⌉₊ = 2 := by
    rw [hstart, hstop, Nat.ceil_eq_iff two_ne_zero]
    norm_num
  have hrows : ⌈(r.stop - r.start) / 2⌉₊ + 1 = 3 := congrArg Nat.succ hceil
  obtain ⟨hrefused, -⟩ := resample_covers htrack two_pos 2
  obtain ⟨-, hmoved⟩ := resample_covers htrack two_pos 3
  rw [hrows] at hrefused hmoved
  obtain ⟨g, hg, hcovers⟩ := hmoved le_rfl
  have hone : g.times.getD 1 0 = r.times.getD 1 0 := by
    rw [hcovers.time 1 (by decide), hstart]
    norm_num [r]
  refine ⟨htrack, two_pos, (hrefused (by decide)).trans ?_, g, hg, ?_, ?_⟩
  · rw [hstart, hstop]
    norm_num
  · exact hcovers.sample 1 1 (by decide) (by decide) hone
  · rw [hcovers.time 2 (by decide), hstart]
    norm_num

end Recording

end GyroDelay
