import GyroDelay.Proofs.Exact
import GyroDelay.Proofs.Spline.Linearity
import GyroDelay.Proofs.Matrix
import GyroDelay.Estimation.Estimator

/-!
# Recordings in exact arithmetic

A recording is a track when it has as many samples as timestamps, at least two, all of them
finite, and no timestamp is at most its predecessor (`violation?_eq_none_iff_isChain`). Every
real number is finite, so in exact arithmetic the last condition is that the timestamps
increase strictly (`violation?_eq_none_iff`). A map of all samples therefore takes tracks to
tracks (`Track.map`), and a linear one commutes with the interpolation on a grid
(`resample_map`).
-/

namespace GyroDelay

namespace Recording

/-! ## Tracks -/

section Validation

variable {α : Type} [Scalar α]

theorem disorderFrom_eq_none_iff_isChain (index : ℕ) (times : List α) :
    disorderFrom index times = none ↔ times.IsChain fun earlier later => ¬ later ≤ earlier := by
  induction times generalizing index with
  | nil => simp [disorderFrom]
  | cons earlier rest ih =>
    cases rest with
    | nil => simp [disorderFrom]
    | cons later rest =>
      rw [disorderFrom, List.isChain_cons_cons]
      split
      · rename_i h
        simp [h]
      · rename_i h
        rw [ih]
        simp [h]

/-- The first disorder of a list that does not start at place zero of the timestamps. -/
theorem disorderFrom_eq_some_iff {times : List α} {index i : ℕ}
    {later earlier : α} :
    disorderFrom index times = some (i, later, earlier) ↔
      ∃ k, i = index + k + 1 ∧ times[k]? = some earlier ∧ times[k + 1]? = some later ∧
        later ≤ earlier ∧
        ∀ j < k, ∀ a b, times[j]? = some a → times[j + 1]? = some b → ¬ b ≤ a := by
  induction times generalizing index with
  | nil => simp [disorderFrom]
  | cons a times ih =>
    cases times with
    | nil => simp [disorderFrom]
    | cons b times =>
      rw [disorderFrom]
      split
      · rename_i hle
        constructor
        · rintro ⟨⟩
          exact ⟨0, rfl, rfl, rfl, hle, nofun⟩
        · rintro ⟨k, rfl, hearlier, hlater, -, hbefore⟩
          cases k with
          | zero =>
            cases hearlier
            cases hlater
            rfl
          | succ k => exact absurd hle (hbefore 0 k.succ_pos a b rfl rfl)
      · rename_i hlt
        rw [ih]
        constructor
        · rintro ⟨k, rfl, hearlier, hlater, hle, hbefore⟩
          refine ⟨k + 1, by omega, hearlier, hlater, hle, fun j hj c d hc hd => ?_⟩
          cases j with
          | zero =>
            cases hc
            cases hd
            exact hlt
          | succ j => exact hbefore j (by omega) c d hc hd
        · rintro ⟨k, rfl, hearlier, hlater, hle, hbefore⟩
          cases k with
          | zero =>
            cases hearlier
            cases hlater
            exact absurd hle hlt
          | succ k =>
            exact ⟨k, by omega, hearlier, hlater, hle, fun j hj c d hc hd =>
              hbefore (j + 1) (by omega) c d hc hd⟩

theorem violation?_eq_none_iff_isChain (r : Recording α) :
    r.violation? = none ↔
      r.samples.length = r.times.length ∧ 2 ≤ r.samples.length ∧
        (∀ v ∈ r.samples, v.isFinite = true) ∧ (∀ t ∈ r.times, Scalar.isFinite t = true) ∧
        r.times.IsChain fun earlier later => ¬ later ≤ earlier := by
  have hsamples : r.samples.findIdx? (fun v => !v.isFinite) = none ↔
      ∀ v ∈ r.samples, v.isFinite = true := by
    simp [List.findIdx?_eq_none_iff]
  have htimes : r.times.findIdx? (fun t => !Scalar.isFinite t) = none ↔
      ∀ t ∈ r.times, Scalar.isFinite t = true := by
    simp [List.findIdx?_eq_none_iff]
  rw [← hsamples, ← htimes, ← disorderFrom_eq_none_iff_isChain 0, violation?]
  by_cases hlen : r.samples.length = r.times.length
  · rw [if_neg (not_not.mpr hlen)]
    by_cases h2 : r.samples.length < 2
    · rw [if_pos h2]
      simp [h2]
    · have htwo : 2 ≤ r.times.length := by omega
      rw [if_neg h2]
      cases r.samples.findIdx? (fun v => !v.isFinite) with
      | some i => simp
      | none => cases r.times.findIdx? (fun t => !Scalar.isFinite t) <;> simp [hlen, htwo]
  · rw [if_pos hlen]
    simp [hlen]

theorem toTrack_eq_ok_iff {r : Recording α} {t : Track α} :
    r.toTrack = .ok t ↔ t.toRecording = r := by
  rw [toTrack]
  split
  · rename_i h
    constructor
    · rintro ⟨⟩
      rfl
    · rintro rfl
      rfl
  · rename_i v h
    constructor
    · nofun
    · rintro rfl
      cases t.valid.symm.trans h

theorem toTrack_eq_error_iff {r : Recording α} {fault : Fault α} :
    r.toTrack = .error fault ↔ ∃ v, r.violation? = some v ∧ fault = .invalidInput v := by
  rw [toTrack]
  split
  · rename_i h
    simp [h]
  · rename_i v h
    rw [h]
    constructor
    · rintro ⟨⟩
      exact ⟨v, rfl, rfl⟩
    · rintro ⟨_, ⟨⟩, rfl⟩
      rfl

theorem exists_track_iff {r : Recording α} :
    (∃ t : Track α, t.toRecording = r) ↔ r.violation? = none :=
  ⟨fun ⟨t, ht⟩ => ht ▸ t.valid, fun h => ⟨⟨r, h⟩, rfl⟩⟩

end Validation

/-- What makes a recording a track. -/
theorem violation?_eq_none_iff (r : Recording ℝ) :
    r.violation? = none ↔
      r.samples.length = r.times.length ∧ 2 ≤ r.samples.length ∧ r.times.Pairwise (· < ·) := by
  rw [violation?_eq_none_iff_isChain, ← List.isChain_iff_pairwise]
  simp [Vec3.isFinite]

/-- A recording with all samples mapped. -/
def mapSamples (f : Vec3 ℝ → Vec3 ℝ) (r : Recording ℝ) : Recording ℝ := ⟨r.samples.map f, r.times⟩

end Recording

namespace Track

theorem length_samples (t : Track ℝ) : t.samples.length = t.times.length :=
  (t.toRecording.violation?_eq_none_iff.mp t.valid).1

theorem two_le_length (t : Track ℝ) : 2 ≤ t.samples.length :=
  (t.toRecording.violation?_eq_none_iff.mp t.valid).2.1

theorem pairwise_times (t : Track ℝ) : t.times.Pairwise (· < ·) :=
  (t.toRecording.violation?_eq_none_iff.mp t.valid).2.2

/-- A track with all samples mapped. -/
def map (f : Vec3 ℝ → Vec3 ℝ) (t : Track ℝ) : Track ℝ where
  toRecording := t.toRecording.mapSamples f
  valid := by
    rw [Recording.violation?_eq_none_iff, Recording.mapSamples, List.length_map]
    exact ⟨t.length_samples, t.two_le_length, t.pairwise_times⟩

end Track

/-! ## Intervals -/

/-- Strictly increasing timestamps have a positive mean distance. -/
theorem meanInterval_eq_ok {times : List ℝ} (h : times.Pairwise (· < ·)) (h2 : 2 ≤ times.length) :
    ∃ d, meanInterval times = .ok d ∧ 0 < d := by
  have hlen := length_differences times
  have hgap := (pairwise_lt_iff_differences_pos times).mp h
  have hne : differences times ≠ [] := List.length_pos_iff.mp (by omega)
  refine ⟨(differences times).sum / ((differences times).length : ℝ), ?_, ?_⟩
  · simp [meanInterval, hne, Scalar.sum_real]
  · exact div_pos (List.sum_pos _ hgap hne) (Nat.cast_pos.mpr (List.length_pos_iff.mpr hne))

namespace Recording

/-! ## Interpolation -/

/-- A spline through samples seen along one direction. -/
theorem eval_through_dot {times : List ℝ} {samples : List (Vec3 ℝ)}
    (h : times.length = samples.length) (h2 : 2 ≤ samples.length) (row : Vec3 ℝ) (t : ℝ) :
    (Spline.Natural.through times (samples.map row.dot)).eval t =
      row.dot ⟨(Spline.Natural.through times (samples.map (·.x))).eval t,
        (Spline.Natural.through times (samples.map (·.y))).eval t,
        (Spline.Natural.through times (samples.map (·.z))).eval t⟩ := by
  have hlen (f : Vec3 ℝ → ℝ) : times.length = (samples.map f).length := by
    rw [List.length_map, h]
  have h2' (f : Vec3 ℝ → ℝ) : 2 ≤ (samples.map f).length := by
    rw [List.length_map]
    exact h2
  have hxy := Spline.eval_through_mix (hlen (·.x)) (hlen (·.y)) (h2' _) row.x row.y t
  have hxyz := Spline.eval_through_mix (hlen fun s => row.x * s.x + row.y * s.y) (hlen (·.z))
    (h2' _) 1 row.z t
  rw [Spline.mix_map] at hxy hxyz
  simp only [one_mul] at hxyz
  rw [hxy] at hxyz
  exact hxyz

/-- Interpolation fails for the sake of the timestamps, whatever the samples, or it takes
each axis from its spline. -/
theorem interpolate_cases (times targets : List ℝ) (n : ℕ) :
    (∃ fault, ∀ samples : List (Vec3 ℝ), samples.length = n →
      interpolate times samples targets = .error fault) ∨
    times.length = n ∧ 2 ≤ n ∧ ∀ samples : List (Vec3 ℝ), samples.length = n →
      interpolate times samples targets = .ok (targets.map fun t =>
        ⟨(Spline.Natural.through times (samples.map (·.x))).eval t,
          (Spline.Natural.through times (samples.map (·.y))).eval t,
          (Spline.Natural.through times (samples.map (·.z))).eval t⟩) := by
  rcases Spline.fit_cases times n with ⟨fault, hfault⟩ | ⟨hlen, h2, hfit⟩
  · refine Or.inl ⟨fault, fun samples hsamples => ?_⟩
    rw [interpolate, Spline.interpolate, hfault _ (by rw [List.length_map, hsamples])]
    rfl
  · refine Or.inr ⟨hlen, h2, fun samples hsamples => ?_⟩
    have hok (f : Vec3 ℝ → ℝ) := hfit (samples.map f) (by rw [List.length_map, hsamples])
    rw [interpolate, Spline.interpolate, Spline.interpolate, Spline.interpolate, hok, hok, hok]
    simp only [Except.map, bind, Except.bind, pure, Except.pure, List.zip_map', List.zipWith_map,
      List.zipWith_self]

/-- Interpolation commutes with linear maps of the samples. -/
theorem interpolate_map (m : Mat3 ℝ) (times : List ℝ) (samples : List (Vec3 ℝ))
    (targets : List ℝ) :
    interpolate times (samples.map m.apply) targets =
      (interpolate times samples targets).map (List.map m.apply) := by
  rcases interpolate_cases times targets samples.length with ⟨fault, hfault⟩ | ⟨hlen, h2, hok⟩
  · rw [hfault _ (List.length_map _), hfault _ rfl]
    rfl
  · have hrow (row : Vec3 ℝ) (t : ℝ) := eval_through_dot hlen h2 row t
    rw [hok _ (List.length_map _), hok _ rfl, Except.map, List.map_map, List.map_map, List.map_map,
      List.map_map]
    congr 1
    apply List.map_congr_left
    intro t _
    simp only [Function.comp_apply, Mat3.apply, ← hrow]
    rfl

/-- Resampling commutes with linear maps of the samples. -/
theorem resample_map (m : Mat3 ℝ) (r : Recording ℝ) (interval : ℝ) (limit : ℕ) :
    (r.mapSamples m.apply).resample interval limit =
      (r.resample interval limit).map (mapSamples m.apply) := by
  simp only [resample, mapSamples, interpolate_map]
  generalize Grid.size _ _ interval = size
  cases size with
  | error fault => rfl
  | ok rows =>
    by_cases hlimit : limit < rows
    · simp only [bind, Except.bind, if_pos hlimit]
      rfl
    · simp only [bind, Except.bind, if_neg hlimit]
      generalize interpolate r.times r.samples _ = samples
      cases samples with
      | error fault => rfl
      | ok samples => rfl

end Recording

end GyroDelay
