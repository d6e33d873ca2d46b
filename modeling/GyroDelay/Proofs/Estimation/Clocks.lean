import GyroDelay.Estimation.Run
import GyroDelay.Proofs.Clocks
import GyroDelay.Proofs.Estimation.Frames
import GyroDelay.Proofs.Estimation.Invariant

/-!
# Clocks

In exact arithmetic a run does not depend on when the two clocks were set, and both clocks
may run `c` times as fast if the accuracy is multiplied by `c` (`run_of_clocks`). Every
operation takes an estimator by other clocks (`retime`) to what it makes of the estimator,
by other clocks: the working interval is multiplied by `c`, both grids have the same points at
the same instants, and what follows reads the samples only, up to the delay, which is a
multiple of the interval.
-/

namespace GyroDelay

/-- The settings with `c` times the accuracy. -/
noncomputable def Settings.dilate (c : ℝ) (settings : Settings ℝ) : Settings ℝ :=
  { settings with accuracy := c * settings.accuracy }

/-- An estimate with durations that are `c` times as long. -/
noncomputable def Estimate.dilate (c : ℝ) (x : Estimate ℝ) : Estimate ℝ :=
  { x with delay := c * x.delay, interval := c * x.interval }

/-- A report with durations that are `c` times as long and a second clock that is `d` further
ahead. -/
noncomputable def Report.retime (c d : ℝ) (x : Report ℝ) : Report ℝ :=
  { estimate := x.estimate.dilate c, clockOffset := c * x.clockOffset + d }

namespace Estimator

/-- An estimator by other clocks, which are `s₁` and `s₂` ahead. -/
noncomputable def retime (c s₁ s₂ : ℝ) (e : Estimator ℝ) : Estimator ℝ :=
  { first := e.first.retime c s₁
    second := e.second.retime c s₂
    settings := e.settings.dilate c
    interval := e.interval.map (c * ·)
    calibration := e.calibration
    estimate := e.estimate.map (Estimate.dilate c) }

variable {c : ℝ} (s₁ s₂ : ℝ) {e : Estimator ℝ}

/-! ## Resampling -/

section Resampling

variable (hc : 0 < c) (h : e.HoldsTracks)

include hc h

theorem holdsTracks_retime : (e.retime c s₁ s₂).HoldsTracks where
  isTrack_first := (Recording.isTrack_retime hc s₁ e.first).mpr h.isTrack_first
  isTrack_second := (Recording.isTrack_retime hc s₂ e.second).mpr h.isTrack_second

theorem HoldsTracks.workingInterval_retime {accuracy interval : ℝ} (hpos : 0 < accuracy)
    (hinterval : e.workingInterval accuracy = .ok interval) :
    (e.retime c s₁ s₂).workingInterval (c * accuracy) = .ok (c * interval) := by
  obtain ⟨d, hd, -⟩ := h.isTrack_first.meanInterval_eq_ok
  obtain ⟨d', hd', -⟩ := h.isTrack_second.meanInterval_eq_ok
  have hfirst : meanInterval (e.retime c s₁ s₂).first.times = .ok (c * d) :=
    (meanInterval_retime c s₁ e.first.times).trans (by rw [hd]; rfl)
  have hsecond : meanInterval (e.retime c s₁ s₂).second.times = .ok (c * d') :=
    (meanInterval_retime c s₂ e.second.times).trans (by rw [hd']; rfl)
  rw [workingInterval_eq hpos hd hd'] at hinterval
  cases hinterval
  rw [workingInterval_eq (mul_pos hc hpos) hfirst hsecond, mul_min_of_nonneg _ _ hc.le,
    mul_min_of_nonneg _ _ hc.le]

/-- **Resampling by other clocks** ends in the same way. -/
theorem HoldsTracks.resample_retime (accuracy : ℝ) :
    Agrees (fun interval interval' => interval' = c * interval) (e.resample accuracy).result
        ((e.retime c s₁ s₂).resample (c * accuracy)).result ∧
      ((e.retime c s₁ s₂).resample (c * accuracy)).after =
        (e.resample accuracy).after.retime c s₁ s₂ := by
  have h' := holdsTracks_retime s₁ s₂ hc h
  have hfirst (interval : ℝ) : (e.retime c s₁ s₂).first.gridRows (c * interval) =
      e.first.gridRows interval := h.isTrack_first.gridRows_retime hc s₁ interval
  have hsecond (interval : ℝ) : (e.retime c s₁ s₂).second.gridRows (c * interval) =
      e.second.gridRows interval := h.isTrack_second.gridRows_retime hc s₂ interval
  have hfirstGrid (interval : ℝ) : (e.retime c s₁ s₂).first.onGrid (c * interval) =
      (e.first.onGrid interval).retime c s₁ := h.isTrack_first.onGrid_retime hc s₁ interval
  have hsecondGrid (interval : ℝ) : (e.retime c s₁ s₂).second.onGrid (c * interval) =
      (e.second.onGrid interval).retime c s₂ := h.isTrack_second.onGrid_retime hc s₂ interval
  have hlimit : (e.retime c s₁ s₂).limit = e.limit := rfl
  -- the grids have as many points by either clock, so both end in the same case
  have hspec := h.resample_spec accuracy
  generalize e.resample accuracy = attempt at hspec
  cases hspec with
  | refused hneg =>
    unfold resample
    rw [workingInterval_of_nonpos _ (mul_nonpos_of_nonneg_of_nonpos hc.le hneg)]
    exact ⟨Agrees.error rfl, rfl⟩
  | fixed hinterval hpos hoff =>
    have hoff' : (e.retime c s₁ s₂).settings.resample = false := hoff
    rw [resample_eq hoff' (h.workingInterval_retime s₁ s₂ hc hpos.1 hinterval)]
    exact ⟨Agrees.ok rfl, rfl⟩
  | firstTooLong hinterval hpos hon hlong =>
    rw [h'.resample_eq_of_on (h.workingInterval_retime s₁ s₂ hc hpos.1 hinterval)
      (mul_pos hc hpos.2) hon, hlimit, hfirst, if_pos hlong]
    exact ⟨Agrees.error rfl, rfl⟩
  | secondTooLong hinterval hpos hon hfits hlong =>
    rw [h'.resample_eq_of_on (h.workingInterval_retime s₁ s₂ hc hpos.1 hinterval)
      (mul_pos hc hpos.2) hon, hlimit, hfirst, hsecond, if_neg (not_lt.mpr hfits), if_pos hlong]
    refine ⟨Agrees.error rfl, ?_⟩
    rw [hfirstGrid]
    rfl
  | moved hinterval hpos hon hfits hfits' =>
    rw [h'.resample_eq_of_on (h.workingInterval_retime s₁ s₂ hc hpos.1 hinterval)
      (mul_pos hc hpos.2) hon, hlimit, hfirst, hsecond, if_neg (not_lt.mpr hfits),
      if_neg (not_lt.mpr hfits')]
    refine ⟨Agrees.ok rfl, ?_⟩
    rw [hfirstGrid, hsecondGrid]
    rfl

end Resampling

/-! ## Estimation -/

/-- Alignment and the search for the peak read no timestamps. -/
theorem align_retime : (e.retime c s₁ s₂).align = e.align := rfl

theorem locate_retime : (e.retime c s₁ s₂).locate = e.locate := rfl

theorem withCalibration_retime (m : Mat3 ℝ) :
    (e.retime c s₁ s₂).withCalibration m = (e.withCalibration m).retime c s₁ s₂ := rfl

theorem delayOf_mul (peak : Correlation.Peak ℝ) (n : ℕ) (interval : ℝ) :
    delayOf peak n (c * interval) = c * delayOf peak n interval := by
  rw [delayOf, delayOf]
  ring

theorem estimateAt_retime (interval : ℝ) :
    (e.retime c s₁ s₂).estimateAt (c * interval) =
      ((e.estimateAt interval).1.map (Estimate.dilate c),
        (e.estimateAt interval).2.retime c s₁ s₂) := by
  unfold estimateAt
  rw [align_retime]
  cases e.align with
  | error fault => rfl
  | ok p =>
    obtain ⟨lag, m⟩ := p
    dsimp only
    rw [withCalibration_retime, locate_retime]
    cases (e.withCalibration m).locate with
    | error fault => rfl
    | ok peak =>
      dsimp only
      rw [delayOf_mul]
      rfl

theorem HoldsTracks.estimateDelay_retime (hc : 0 < c) (h : e.HoldsTracks) :
    Agrees (fun x x' => x' = x.dilate c) e.estimateDelay.result
      (e.retime c s₁ s₂).estimateDelay.result := by
  have hresample := h.resample_retime s₁ s₂ hc e.settings.accuracy
  have hsettings : (e.retime c s₁ s₂).settings.accuracy = c * e.settings.accuracy := rfl
  have hinterval : (e.retime c s₁ s₂).interval = e.interval.map (c * ·) := rfl
  unfold estimateDelay
  rw [hsettings, hinterval]
  cases e.interval with
  | some interval =>
    dsimp only [Option.map_some]
    rw [estimateAt_retime]
    exact Agrees.of_eq_map rfl
  | none =>
    dsimp only [Option.map_none]
    obtain ⟨hresult, hafter⟩ := hresample
    rw [hafter]
    generalize (e.resample e.settings.accuracy).result = x at hresult
    generalize ((e.retime c s₁ s₂).resample (c * e.settings.accuracy)).result = y at hresult
    cases hresult with
    | error hkind => exact Agrees.error hkind
    | ok heq =>
      subst heq
      dsimp only
      rw [estimateAt_retime]
      exact Agrees.of_eq_map rfl

theorem Invariant.resampleAndEstimate_retime (hc : 0 < c) {first second : Track ℝ}
    {settings : Settings ℝ} (h : Invariant first second settings e) (accuracy : ℝ) :
    Agrees (fun x x' => x' = x.dilate c) (e.resampleAndEstimate accuracy)
      ((e.retime c s₁ s₂).resampleAndEstimate (c * accuracy)) := by
  obtain ⟨hresult, hafter⟩ := h.resample_retime s₁ s₂ hc accuracy
  unfold resampleAndEstimate
  rw [hafter]
  refine Agrees.bind hresult ?_
  intro _ _ _
  exact (h.resample accuracy).estimateDelay_retime s₁ s₂ hc

end Estimator

/-! ## Runs -/

/-- A track with the timestamps of another clock. -/
noncomputable def Track.retime {c : ℝ} (hc : 0 < c) (s : ℝ) (t : Track ℝ) : Track ℝ where
  toRecording := t.toRecording.retime c s
  valid := (Recording.isTrack_iff _).mp ((Recording.isTrack_retime hc s _).mpr t.isTrack)

namespace Run

open Estimator

/-- A run resamples and estimates, and then compares the clocks. -/
theorem result_ofTracks (first second : Track ℝ) (settings : Settings ℝ) :
    (ofTracks first second settings).result = (do
      let estimate ←
        (Estimator.ofTracks first second settings).resampleAndEstimate settings.accuracy
      let offset ← clockOffset first.times second.times estimate.delay
      return ⟨estimate, offset⟩) := by
  unfold ofTracks resampleAndEstimate
  dsimp only
  cases ((Estimator.ofTracks first second settings).resample settings.accuracy).result with
  | error fault => rfl
  | ok interval => rfl

theorem ofRecordings_of_isTrack {first second : Recording ℝ} (h : first.IsTrack)
    (h' : second.IsTrack) (settings : Settings ℝ) :
    ofRecordings first second settings =
      ofTracks ⟨first, first.isTrack_iff.mp h⟩ ⟨second, second.isTrack_iff.mp h'⟩ settings := by
  unfold ofRecordings
  rw [Recording.toTrack_eq_ok h, Recording.toTrack_eq_ok h']

/-- A run on recordings that are not both tracks fails for the sake of one of them. -/
theorem ofRecordings_of_not_isTrack {first second : Recording ℝ}
    (h : ¬ (first.IsTrack ∧ second.IsTrack)) (settings : Settings ℝ) :
    ∃ v, (ofRecordings first second settings).result = .error (.invalidInput v) := by
  unfold ofRecordings
  by_cases hfirst : first.IsTrack
  · obtain ⟨v, hv⟩ := Recording.toTrack_eq_error fun hsecond => h ⟨hfirst, hsecond⟩
    rw [Recording.toTrack_eq_ok hfirst, hv]
    exact ⟨v, rfl⟩
  · obtain ⟨v, hv⟩ := Recording.toTrack_eq_error hfirst
    rw [hv]
    exact ⟨v, rfl⟩

variable (s₁ s₂ : ℝ) {c : ℝ} (hc : 0 < c)

theorem ofTracks_retime (first second : Track ℝ) (settings : Settings ℝ) :
    Agrees (fun x x' => x' = x.retime c (s₂ - s₁)) (ofTracks first second settings).result
      (ofTracks (first.retime hc s₁) (second.retime hc s₂) (settings.dilate c)).result := by
  have hinvariant := invariant_ofTracks first second settings
  rw [result_ofTracks, result_ofTracks]
  refine Agrees.bind (hinvariant.resampleAndEstimate_retime s₁ s₂ hc settings.accuracy) ?_
  rintro estimate _ rfl
  have hoffset := clockOffset_retime c s₁ s₂ first.times second.times estimate.delay
  refine Agrees.bind (Agrees.of_eq_map hoffset) ?_
  rintro offset _ rfl
  exact Agrees.ok rfl

end Run

/-- **Clocks.** Clocks that are set differently and run `c` times as fast, together with `c`
times the accuracy, change durations by the factor `c` and the clock offset also by the
difference of the settings, and nothing else, in a run on any two recordings. -/
theorem run_of_clocks (first second : Recording ℝ) (settings : Settings ℝ) (s₁ s₂ : ℝ) {c : ℝ}
    (hc : 0 < c) :
    Agrees (fun x x' => x' = x.retime c (s₂ - s₁))
      (Run.ofRecordings first second settings).result
      (Run.ofRecordings (first.retime c s₁) (second.retime c s₂) (settings.dilate c)).result := by
  have hfirst := Recording.isTrack_retime hc s₁ first
  have hsecond := Recording.isTrack_retime hc s₂ second
  by_cases h : first.IsTrack ∧ second.IsTrack
  · rw [Run.ofRecordings_of_isTrack h.1 h.2,
      Run.ofRecordings_of_isTrack (hfirst.mpr h.1) (hsecond.mpr h.2)]
    exact Run.ofTracks_retime s₁ s₂ hc _ _ settings
  · have h' : ¬ ((first.retime c s₁).IsTrack ∧ (second.retime c s₂).IsTrack) := by
      rw [hfirst, hsecond]
      exact h
    obtain ⟨v, hv⟩ := Run.ofRecordings_of_not_isTrack h settings
    obtain ⟨w, hw⟩ := Run.ofRecordings_of_not_isTrack h' (settings.dilate c)
    rw [hv, hw]
    exact Agrees.error rfl

/-- Clocks of twice the speed, one a second ahead and one a second behind. -/
theorem run_axes_retimed :
    (0 : ℝ) < 2 ∧
      Agrees (fun x x' => x' = x.retime 2 (-1 - 1))
        (Run.ofRecordings Estimator.axes.toRecording Estimator.axes.toRecording
          Settings.default).result
        (Run.ofRecordings (Estimator.axes.toRecording.retime 2 1)
          (Estimator.axes.toRecording.retime 2 (-1)) (Settings.default.dilate 2)).result :=
  ⟨two_pos, run_of_clocks Estimator.axes.toRecording Estimator.axes.toRecording
    Settings.default 1 (-1) two_pos⟩

end GyroDelay
