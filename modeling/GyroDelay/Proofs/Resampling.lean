import GyroDelay.Proofs.Recording

/-!
# The grid of a resampled track

A track in exact arithmetic is resampled onto the grid that begins at its first timestamp
and has `gridRows` points, or refused for the sake of their number (`resample_eq`). The last
timestamp comes after the first one, so a grid has at least two points, and a resampled
track is again a track that begins where the old one did (`IsTrack.onGrid`,
`IsTrack.start_onGrid`).
-/

namespace GyroDelay

open Scalar

namespace Grid

theorem points_real (start step : ℝ) (count : ℕ) :
    points start step count = (List.range count).map fun i : ℕ => start + i * step := rfl

theorem pairwise_points (start : ℝ) {step : ℝ} (h : 0 < step) (count : ℕ) :
    (points start step count).Pairwise (· < ·) := by
  rw [points_real, List.pairwise_map]
  refine List.pairwise_lt_range.imp ?_
  intro i j hij
  have hcast : (i : ℝ) < j := Nat.cast_lt.mpr hij
  exact (add_lt_add_iff_left start).mpr (mul_lt_mul_of_pos_right hcast h)

theorem headD_points (start step : ℝ) {count : ℕ} (h : 0 < count) :
    (points start step count).headD 0 = start := by
  obtain ⟨n, rfl⟩ := Nat.exists_eq_add_one_of_ne_zero h.ne'
  rw [points_real, List.range_succ_eq_map, List.map_cons, List.headD_cons, Nat.cast_zero,
    zero_mul, add_zero]

theorem differences_points (start step : ℝ) (n : ℕ) :
    differences (points start step (n + 1)) = List.replicate n step := by
  apply List.ext_getElem
  · rw [length_differences, points_real, List.length_map, List.length_range, List.length_replicate,
      Nat.add_sub_cancel]
  · intro i _ _
    simp only [differences, points_real, List.getElem_zipWith, List.getElem_tail, List.getElem_map,
      List.getElem_range, List.getElem_replicate, Nat.cast_add, Nat.cast_one]
    ring

/-- The points of a grid are its step apart on the average. -/
theorem meanInterval_points (start step : ℝ) (n : ℕ) :
    meanInterval (points start step (n + 2)) = .ok step := by
  have hn : ((n + 1 : ℕ) : ℝ) ≠ 0 := Nat.cast_ne_zero.mpr (Nat.succ_ne_zero n)
  unfold meanInterval
  rw [differences_points]
  dsimp only
  rw [List.isEmpty_replicate, sum_real, List.sum_replicate, List.length_replicate, nsmul_eq_mul,
    ofNat_real, mul_div_cancel_left₀ _ hn]
  rfl

theorem size_real (start stop : ℝ) {step : ℝ} (h : 0 < step) :
    size start stop step = .ok ⌈(stop - start) / step⌉₊ := by
  unfold size
  simp [not_le.mpr h]

end Grid

namespace Recording

/-- What makes a recording a track, in exact arithmetic. -/
structure IsTrack (r : Recording ℝ) : Prop where
  length_samples : r.samples.length = r.times.length
  two_le_length : 2 ≤ r.times.length
  pairwise_times : r.times.Pairwise (· < ·)

theorem isTrack_iff (r : Recording ℝ) : r.IsTrack ↔ r.violation? = none := by
  rw [violation?_eq_none_iff]
  constructor
  · intro h
    exact ⟨h.length_samples, h.length_samples ▸ h.two_le_length, h.pairwise_times⟩
  · rintro ⟨hlen, h2, hinc⟩
    exact ⟨hlen, hlen ▸ h2, hinc⟩

theorem toTrack_eq_ok {r : Recording ℝ} (h : r.IsTrack) :
    r.toTrack = .ok ⟨r, r.isTrack_iff.mp h⟩ :=
  toTrack_eq_ok_iff.mpr rfl

theorem toTrack_eq_error {r : Recording ℝ} (h : ¬ r.IsTrack) :
    ∃ v, r.toTrack = .error (.invalidInput v) := by
  rw [isTrack_iff] at h
  obtain ⟨v, hv⟩ := Option.ne_none_iff_exists'.mp h
  exact ⟨v, toTrack_eq_error_iff.mpr ⟨v, hv, rfl⟩⟩

/-- The first timestamp. -/
noncomputable def start (r : Recording ℝ) : ℝ := r.times.headD 0

/-- The last timestamp. -/
noncomputable def stop (r : Recording ℝ) : ℝ := r.times.getLastD 0

theorem start_eq_getD (r : Recording ℝ) : r.start = r.times.getD 0 0 := by
  rw [start]
  cases r.times <;> rfl

theorem stop_eq_getD (r : Recording ℝ) : r.stop = r.times.getD (r.times.length - 1) 0 :=
  getLastD_eq_getD r.times 0

/-- How many points the grid of a recording has. -/
noncomputable def gridRows (r : Recording ℝ) (interval : ℝ) : ℕ :=
  ⌈(r.stop - r.start) / interval⌉₊ + 1

noncomputable def gridTimes (r : Recording ℝ) (interval : ℝ) : List ℝ :=
  Grid.points r.start interval (r.gridRows interval)

/-- The samples at any time, each axis from the spline through it. -/
noncomputable def sampleAt (r : Recording ℝ) (t : ℝ) : Vec3 ℝ :=
  ⟨(Spline.Natural.through r.times (r.samples.map (·.x))).eval t,
    (Spline.Natural.through r.times (r.samples.map (·.y))).eval t,
    (Spline.Natural.through r.times (r.samples.map (·.z))).eval t⟩

/-- The recording that is read off on its grid. -/
noncomputable def onGrid (r : Recording ℝ) (interval : ℝ) : Recording ℝ :=
  ⟨(r.gridTimes interval).map r.sampleAt, r.gridTimes interval⟩

/-- The fault of a grid with too many points. -/
noncomputable def gridFault (r : Recording ℝ) (interval : ℝ) (limit : ℕ) : Fault ℝ :=
  .invalidInput (.gridSize (r.stop + interval - r.start) interval (r.gridRows interval) limit)

namespace IsTrack

variable {r : Recording ℝ} (h : r.IsTrack)

include h

theorem times_ne_nil : r.times ≠ [] := by
  rw [← List.length_pos_iff]
  exact lt_of_lt_of_le two_pos h.two_le_length

theorem samples_ne_nil : r.samples ≠ [] := by
  rw [← List.length_pos_iff, h.length_samples]
  exact lt_of_lt_of_le two_pos h.two_le_length

theorem meanInterval_eq_ok : ∃ d, meanInterval r.times = .ok d ∧ 0 < d :=
  GyroDelay.meanInterval_eq_ok h.pairwise_times h.two_le_length

theorem start_lt_stop : r.start < r.stop := by
  have h2 := h.two_le_length
  rw [r.start_eq_getD, r.stop_eq_getD]
  exact getD_lt_getD h.pairwise_times (by omega) (by omega)

variable {interval : ℝ} (hinterval : 0 < interval)

include hinterval

theorem two_le_gridRows : 2 ≤ r.gridRows interval := by
  have hpos : 0 < ⌈(r.stop - r.start) / interval⌉₊ :=
    Nat.ceil_pos.mpr (div_pos (sub_pos.mpr h.start_lt_stop) hinterval)
  rw [gridRows]
  omega

theorem size_eq :
    Grid.size r.start (r.stop + interval) interval = .ok (r.gridRows interval) := by
  have hspan : 0 ≤ (r.stop - r.start) / interval :=
    div_nonneg (sub_nonneg.mpr h.start_lt_stop.le) hinterval.le
  have hrows : (r.stop + interval - r.start) / interval = (r.stop - r.start) / interval + 1 := by
    rw [add_sub_right_comm, add_div, div_self hinterval.ne']
  rw [Grid.size_real _ _ hinterval, hrows, Nat.ceil_add_one hspan, gridRows]

omit hinterval in
theorem interpolate_eq (targets : List ℝ) :
    interpolate r.times r.samples targets = .ok (targets.map r.sampleAt) := by
  have hfit (f : Vec3 ℝ → ℝ) : Spline.Natural.fit r.times (r.samples.map f) =
      .ok (Spline.Natural.through r.times (r.samples.map f)) := by
    apply Spline.fit_eq_ok
    · rw [List.length_map, h.length_samples]
    · rw [List.length_map, h.length_samples]
      exact h.two_le_length
    · exact h.pairwise_times
  unfold interpolate Spline.interpolate
  rw [hfit, hfit, hfit]
  simp only [Except.map, bind, Except.bind, pure, Except.pure, List.zip_map', List.zipWith_map,
    List.zipWith_self]
  rfl

/-- **Resampling a track.** It is refused if its grid has too many points, and read off on
that grid otherwise. -/
theorem resample_eq (limit : ℕ) :
    r.resample interval limit =
      if limit < r.gridRows interval then .error (r.gridFault interval limit)
      else .ok (r.onGrid interval) := by
  have hsize : Grid.size (r.times.headD 0) (r.times.getLastD 0 + interval) interval =
      .ok (r.gridRows interval) := h.size_eq hinterval
  unfold resample
  simp only [zero_real, hsize, bind, Except.bind]
  split
  · rfl
  · rw [h.interpolate_eq]
    rfl

theorem onGrid : (r.onGrid interval).IsTrack := by
  refine ⟨List.length_map _, ?_, Grid.pairwise_points _ hinterval _⟩
  rw [Recording.onGrid, gridTimes, Grid.points_real, List.length_map, List.length_range]
  exact h.two_le_gridRows hinterval

theorem start_onGrid : (r.onGrid interval).start = r.start := by
  have hrows := h.two_le_gridRows hinterval
  exact Grid.headD_points _ _ (by omega)

end IsTrack

end Recording

theorem Track.isTrack (t : Track ℝ) : t.toRecording.IsTrack :=
  t.toRecording.isTrack_iff.mpr t.valid

end GyroDelay
