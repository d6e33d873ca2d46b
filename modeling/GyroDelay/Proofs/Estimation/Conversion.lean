import GyroDelay.Proofs.Estimation.Recovery
import GyroDelay.Proofs.Estimation.Regridding

/-!
# From samples to seconds

An estimation finds a lag in samples and multiplies it with the working interval; nothing else
that it finds depends on that interval (`estimateAt_convert`). Without resampling the samples
stay as far apart as they were recorded, and the working interval is still the least of the
accuracy and the mean intervals. So for uniform tracks the accuracies that are not finer than
their interval give one and the same delay, and the finer ones scale it down
(`resampleAndEstimate_of_isUniform`).
-/

namespace GyroDelay

/-- An estimate with its lag converted by another interval. -/
noncomputable def Estimate.convert (firstLength : ℕ) (interval : ℝ) (x : Estimate ℝ) :
    Estimate ℝ :=
  { x with
    delay := Estimator.delayOf ⟨x.peakIndex, x.corrected, x.offset⟩ firstLength interval
    interval := interval }

namespace Estimator

/-! ## The interval of an estimation -/

theorem estimateAt_convert (e : Estimator ℝ) (dt dt' : ℝ) :
    ({ e with interval := some dt' }.estimateAt dt').1 =
      ({ e with interval := some dt }.estimateAt dt).1.map
        (Estimate.convert e.first.samples.length dt') := by
  have halign : align { e with interval := some dt' } = align { e with interval := some dt } := rfl
  rw [estimateAt, estimateAt, halign]
  cases align { e with interval := some dt } with
  | error fault => rfl
  | ok found =>
    obtain ⟨lag, m⟩ := found
    have hlocate : (withCalibration { e with interval := some dt' } m).locate =
        (withCalibration { e with interval := some dt } m).locate := rfl
    have hlen (i : Option ℝ) : (withCalibration { e with interval := i } m).first.samples.length =
        e.first.samples.length := List.length_map _
    dsimp only
    rw [hlocate]
    cases (withCalibration { e with interval := some dt } m).locate with
    | error fault => rfl
    | ok peak =>
      dsimp only
      rw [hlen, hlen]
      rfl

theorem delay_of_estimateAt {e : Estimator ℝ} {dt : ℝ} {x : Estimate ℝ}
    (h : (e.estimateAt dt).1 = .ok x) :
    x.delay = ((x.peakIndex : ℝ) - (e.first.samples.length - 1) + x.offset) * dt ∧
      x.interval = dt := by
  rw [estimateAt] at h
  cases halign : e.align with
  | error fault =>
    rw [halign] at h
    cases h
  | ok found =>
    obtain ⟨lag, m⟩ := found
    rw [halign] at h
    dsimp only at h
    cases hlocate : (e.withCalibration m).locate with
    | error fault =>
      rw [hlocate] at h
      cases h
    | ok peak =>
      rw [hlocate] at h
      have hlen : (e.withCalibration m).first.samples.length = e.first.samples.length :=
        List.length_map _
      obtain rfl := Except.ok.inj h
      refine ⟨?_, rfl⟩
      dsimp only
      rw [delayOf, hlen, Scalar.ofInt_real, signedLag]
      push_cast
      rfl

/-! ## Runs without resampling -/

theorem resampleAndEstimate_eq {e : Estimator ℝ} (hoff : e.settings.resample = false)
    {accuracy dt : ℝ} (hdt : e.workingInterval accuracy = .ok dt) :
    e.resampleAndEstimate accuracy = ({ e with interval := some dt }.estimateAt dt).1 := by
  rw [resampleAndEstimate, resample_eq hoff hdt]
  rfl

section Uniform

variable {first second : Track ℝ} {T : ℝ} (hfirst : first.IsUniform T)
  (hsecond : second.IsUniform T)

include hfirst

theorem pos_of_isUniform : 0 < T := by
  obtain ⟨d, hd, hpos⟩ := first.isTrack.meanInterval_eq_ok
  rw [Recording.meanInterval_of_isUniform first.isTrack hfirst] at hd
  rwa [Except.ok.inj hd]

include hsecond

theorem workingInterval_of_isUniform (settings : Settings ℝ) {accuracy : ℝ} (h : 0 < accuracy) :
    (ofTracks first second settings).workingInterval accuracy = .ok (min accuracy T) := by
  rw [workingInterval_eq h (Recording.meanInterval_of_isUniform first.isTrack hfirst)
    (Recording.meanInterval_of_isUniform second.isTrack hsecond), min_assoc, min_self]

/-- **Uniform tracks that are not resampled.** The lag is converted by the working interval, the
lesser of the accuracy and the interval of the tracks. Another accuracy gives the same estimate
with its lag converted by another interval, and the very same one if neither is finer than the
interval of the tracks. -/
theorem resampleAndEstimate_of_isUniform {settings : Settings ℝ}
    (hoff : settings.resample = false) {accuracy : ℝ} (hpos : 0 < accuracy) {x : Estimate ℝ}
    (h : (ofTracks first second settings).resampleAndEstimate accuracy = .ok x) :
    x.delay = ((x.peakIndex : ℝ) - (first.samples.length - 1) + x.offset) * min accuracy T ∧
      (∀ accuracy' > 0, (ofTracks first second settings).resampleAndEstimate accuracy' =
        .ok (x.convert first.samples.length (min accuracy' T))) ∧
      (T ≤ accuracy →
        x.delay = ((x.peakIndex : ℝ) - (first.samples.length - 1) + x.offset) * T ∧
          ∀ accuracy' ≥ T,
            (ofTracks first second settings).resampleAndEstimate accuracy' = .ok x) := by
  have hrun {a : ℝ} (ha : 0 < a) :
      (ofTracks first second settings).resampleAndEstimate a =
        ({ ofTracks first second settings with interval := some (min a T) }.estimateAt
          (min a T)).1 :=
    resampleAndEstimate_eq hoff (workingInterval_of_isUniform hfirst hsecond settings ha)
  have hx := h
  rw [hrun hpos] at hx
  have hdelay := (delay_of_estimateAt hx).1
  refine ⟨hdelay, ?_, ?_⟩
  · intro a ha
    rw [hrun ha, estimateAt_convert _ (min accuracy T), hx]
    rfl
  · intro hT
    have hT0 := pos_of_isUniform hfirst
    rw [min_eq_right hT] at hdelay hx
    refine ⟨hdelay, fun a ha => ?_⟩
    rw [hrun (hT0.trans_le ha), min_eq_right ha, hx]

end Uniform

theorem isUniform_rested (p q : ℕ) (xs : List (Vec3 ℝ)) (h : 2 ≤ p + xs.length + q) :
    (rested p q xs h).IsUniform 1 := by
  have hpos : 0 < p + xs.length + q := by omega
  have htimes : (rested p q xs h).times = Grid.points 0 1 (p + xs.length + q) := by
    change Correlation.indexKnots _ = _
    rw [Grid.points_real, Correlation.indexKnots]
    refine List.map_congr_left fun i _ => ?_
    rw [zero_add, mul_one]
  have hstart : (rested p q xs h).start = 0 := by
    rw [Recording.start, htimes, Grid.headD_points 0 1 hpos]
  have hlen : (rested p q xs h).times.length = p + xs.length + q := Correlation.length_indexKnots _
  rw [Recording.IsUniform, hstart, hlen, htimes]

/-- A motion a sample into the first stream and at the start of the second one. -/
noncomputable def ahead : Estimator ℝ :=
  ofTracks (rested 1 0 axes.samples (by decide)) (rested 0 2 axes.samples (by decide))
    { Settings.default with resample := false }

theorem workingInterval_ahead {accuracy : ℝ} (hpos : 0 < accuracy) :
    ahead.workingInterval accuracy = .ok (min accuracy 1) :=
  workingInterval_of_isUniform (isUniform_rested _ _ _ _) (isUniform_rested _ _ _ _) _ hpos

theorem ahead_succeeds {accuracy : ℝ} (hpos : 0 < accuracy) :
    ∃ x, ahead.resampleAndEstimate accuracy = .ok x ∧ x.delay ≠ 0 := by
  have hmin : 0 < min accuracy 1 := lt_min hpos one_pos
  have hsame : axes.samples.map (Mat3.identity.scale 1).apply = axes.samples := by
    simp [axes, Mat3.scale, Mat3.apply, Mat3.identity, Vec3.dot_real, Vec3.scale_real]
  have hshifted : Shifted axes.samples (Mat3.identity.scale 1) 1 0 0 2
      { ahead with interval := some (min accuracy 1) } := by
    refine ⟨rfl, ?_⟩
    rw [hsame]
    rfl
  obtain ⟨x, hx, hrecovers⟩ := hshifted.estimateAt isRegular_axes isOrthogonal_identity one_pos hmin
  refine ⟨x, (resampleAndEstimate_eq rfl (workingInterval_ahead hpos)).trans hx, ?_⟩
  -- the delay is less than one interval from minus one interval
  intro hzero
  have hinterval : x.interval = min accuracy 1 := (delay_of_estimateAt hx).2
  have hnear := hrecovers.near
  rw [hzero, hinterval] at hnear
  simp [abs_of_pos hmin] at hnear

/-- Half a second of accuracy and a second. -/
theorem resampleAndEstimate_ahead :
    ∃ x, ahead.resampleAndEstimate (1 / 2) = .ok x ∧
      x.delay = ((x.peakIndex : ℝ) - (4 - 1) + x.offset) * (1 / 2) ∧
      ahead.resampleAndEstimate 1 = .ok (x.convert 4 1) := by
  obtain ⟨x, hx, -⟩ := ahead_succeeds one_half_pos
  obtain ⟨hdelay, hother, -⟩ := resampleAndEstimate_of_isUniform (isUniform_rested _ _ _ _)
    (isUniform_rested _ _ _ _) rfl one_half_pos hx
  have hlen : (rested 1 0 axes.samples (by decide)).samples.length = 4 := rfl
  have hagain := hother 1 one_pos
  rw [hlen, min_eq_left one_half_lt_one.le] at hdelay
  rw [hlen, min_self] at hagain
  exact ⟨x, hx, hdelay, hagain⟩

/-- At half a second of accuracy the delay is not converted by the second that lies between
two samples. -/
theorem delay_ahead_half :
    ¬ ∀ (first second : Track ℝ) (T : ℝ) (settings : Settings ℝ) (accuracy : ℝ) (x : Estimate ℝ),
      first.IsUniform T → second.IsUniform T → settings.resample = false → 0 < accuracy →
      (ofTracks first second settings).resampleAndEstimate accuracy = .ok x →
      x.delay = ((x.peakIndex : ℝ) - (first.samples.length - 1) + x.offset) * T := by
  intro h
  obtain ⟨x, hx, hne⟩ := ahead_succeeds one_half_pos
  have hclaimed := h _ _ 1 _ _ x (isUniform_rested _ _ _ _) (isUniform_rested _ _ _ _) rfl
    one_half_pos hx
  rw [resampleAndEstimate_eq rfl (workingInterval_ahead one_half_pos),
    min_eq_left one_half_lt_one.le] at hx
  have hdelay := (delay_of_estimateAt hx).1
  -- the lag is also the delay itself
  have hlag : (x.peakIndex : ℝ) - (ahead.first.samples.length - 1) + x.offset = x.delay := by
    rw [hclaimed, mul_one]
    rfl
  change x.delay = ((x.peakIndex : ℝ) - (ahead.first.samples.length - 1) + x.offset) *
    (1 / 2) at hdelay
  rw [hlag] at hdelay
  exact hne (by linarith)

end Estimator

end GyroDelay
