import GyroDelay.Estimation.Run
import GyroDelay.Proofs.Calibration
import GyroDelay.Proofs.Correlation.Scaling
import GyroDelay.Proofs.Recording

/-!
# Frames and gains

In exact arithmetic an estimation does not depend on the frames in which the two sensors
measure, nor on their gains. Two runs on samples that differ by changes of frame with gains
stay so (`Turned`) from resampling to the calibrated correlation, and both succeed or both
fail for the same kind of fault (`estimate_of_frames`). Only the calibration differs, by
the changes of frame.
-/

namespace GyroDelay

/-- An estimate between samples that are seen in other frames with other gains. -/
noncomputable def Estimate.turn (Q R : Mat3 ℝ) (a b : ℝ) (x : Estimate ℝ) : Estimate ℝ :=
  { x with calibration := Calibration.turn Q R a b x.calibration }

namespace Estimator

/-- Two estimators whose samples differ by changes of frame with gains. -/
structure Turned (Q R : Mat3 ℝ) (a b : ℝ) (e e' : Estimator ℝ) : Prop where
  first : e'.first = e.first.mapSamples (Q.scale a).apply
  second : e'.second = e.second.mapSamples (R.scale b).apply
  settings : e'.settings = e.settings
  interval : e'.interval = e.interval

theorem map_norm_scale_apply {R : Mat3 ℝ} (hR : R.IsOrthogonal) {g : ℝ} (hg : 0 ≤ g)
    (xs : List (Vec3 ℝ)) :
    (xs.map (R.scale g).apply).map Vec3.norm = (xs.map Vec3.norm).map (g * ·) := by
  rw [List.map_map, List.map_map]
  refine List.map_congr_left fun v _ => ?_
  rw [Function.comp_apply, ← Vec3.apply_scale, Vec3.norm_scale_apply hR hg, Function.comp_apply]

theorem norms_mapSamples {Q : Mat3 ℝ} (hQ : Q.IsOrthogonal) {a : ℝ} (ha : 0 ≤ a)
    (r : Recording ℝ) : (r.mapSamples (Q.scale a).apply).norms = r.norms.map (a * ·) :=
  map_norm_scale_apply hQ ha r.samples

namespace Turned

variable {Q R : Mat3 ℝ} {a b : ℝ} {e e' : Estimator ℝ} (h : Turned Q R a b e e')

include h

/-! ## Resampling -/

theorem workingInterval (accuracy : ℝ) :
    e'.workingInterval accuracy = e.workingInterval accuracy := by
  rw [Estimator.workingInterval, Estimator.workingInterval, h.first, h.second]
  rfl

/-- Resampling keeps two estimators turned and gives both the same interval. -/
theorem resample (accuracy : ℝ) :
    (e'.resample accuracy).result = (e.resample accuracy).result ∧
      Turned Q R a b (e.resample accuracy).after (e'.resample accuracy).after := by
  rw [Estimator.resample, Estimator.resample, h.workingInterval]
  cases e.workingInterval accuracy with
  | error fault => exact ⟨rfl, h⟩
  | ok interval =>
    simp only [h.settings, h.first, h.second, Recording.resample_map]
    split
    · exact ⟨rfl, rfl, rfl, rfl, rfl⟩
    · cases e.first.resample interval e.settings.gridLimit.toNat with
      | error fault => exact ⟨rfl, h⟩
      | ok first =>
        cases e.second.resample interval e.settings.gridLimit.toNat with
        | error fault => exact ⟨rfl, rfl, rfl, rfl, h.interval⟩
        | ok second => exact ⟨rfl, rfl, rfl, rfl, rfl⟩

/-! ## Correlation and calibration -/

variable (hQ : Q.IsOrthogonal) (hR : R.IsOrthogonal) (ha : 0 < a) (hb : 0 < b)

include hQ hR ha hb

/-- The correlation curve of turned samples is the scaled one, with the same peak. -/
theorem correlate : e'.correlate = e.correlate.map (Correlation.Curve.scale (a * b)) := by
  rw [Estimator.correlate, h.first, h.second, norms_mapSamples hQ ha.le,
    norms_mapSamples hR hb.le, Correlation.Curve.between_map_mul ha hb]
  rfl

theorem locate : e'.locate = e.locate := by
  rw [Estimator.locate, Estimator.locate, h.correlate hQ hR ha hb, h.settings]
  cases e.correlate with
  | error fault => rfl
  | ok curve =>
    simp only [Except.map, bind, Except.bind, Correlation.Curve.segments_scale]
    cases curve.segments with
    | error fault => rfl
    | ok segments => exact Correlation.refine_scale (mul_pos ha hb) segments curve.peak _

omit hR hb in
theorem calibrate (lag : ℤ) :
    Agrees (fun m m' => m' = Calibration.turn Q R a b m) (e.calibrate lag) (e'.calibrate lag) := by
  rw [Estimator.calibrate, Estimator.calibrate, h.first, h.second]
  refine Agrees.bind (r := fun rows rows' => rows' =
    (rows.1.map (Q.scale a).apply, rows.2.map (R.scale b).apply)) ?_ ?_
  · exact Agrees.of_eq_map (Calibration.overlap_map _ _ _ _ lag)
  · rintro ⟨first, second⟩ _ rfl
    exact Calibration.solve_map hQ ha b first second

/-- Turned estimators see the same lag, and the turned calibration at it. -/
theorem align :
    Agrees (fun p p' => p' = (p.1, Calibration.turn Q R a b p.2)) e.align e'.align := by
  rw [Estimator.align, Estimator.align]
  refine Agrees.bind (Agrees.of_eq_map (h.correlate hQ hR ha hb)) ?_
  rintro curve _ rfl
  have hlag : signedLag (curve.scale (a * b)).peak e'.first.samples.length =
      signedLag curve.peak e.first.samples.length := by
    rw [h.first, Recording.mapSamples, List.length_map]
    rfl
  rw [hlag]
  refine Agrees.bind (h.calibrate hQ ha _) ?_
  rintro m _ rfl
  exact Agrees.ok rfl

omit hR hb in
/-- After the calibration both copies are turned the way of the second one. -/
theorem withCalibration (m : Mat3 ℝ) :
    Turned R R b b (e.withCalibration m) (e'.withCalibration (Calibration.turn Q R a b m)) := by
  have hmap : (e.first.samples.map (Q.scale a).apply).map (Calibration.turn Q R a b m).apply =
      (e.first.samples.map m.apply).map (R.scale b).apply := by
    rw [List.map_map, List.map_map]
    exact List.map_congr_left fun v _ => Calibration.turn_apply hQ ha R b m v
  refine ⟨?_, h.second, h.settings, h.interval⟩
  rw [Estimator.withCalibration, Estimator.withCalibration, h.first, Recording.mapSamples,
    Recording.mapSamples, Calibration.apply, Calibration.apply, hmap]

/-! ## Estimation -/

theorem estimateAt (interval : ℝ) :
    Agrees (fun x x' => x' = x.turn Q R a b)
      (e.estimateAt interval).1 (e'.estimateAt interval).1 := by
  have halign := h.align hQ hR ha hb
  rw [Estimator.estimateAt, Estimator.estimateAt]
  generalize e.align = x at halign
  generalize e'.align = y at halign
  cases halign with
  | error hkind => exact Agrees.error hkind
  | @ok p p' hp =>
    obtain ⟨lag, m⟩ := p
    subst hp
    -- from here on both streams are turned alike, so the curve has the square of the gain
    have hnext := h.withCalibration hQ ha m
    have hlen : (e'.withCalibration (Calibration.turn Q R a b m)).first.samples.length =
        (e.withCalibration m).first.samples.length := by
      rw [hnext.first, Recording.mapSamples, List.length_map]
    simp only [hnext.locate hR hR hb hb]
    cases (e.withCalibration m).locate with
    | error fault => exact Agrees.error rfl
    | ok peak =>
      simp only [hlen]
      exact Agrees.ok rfl

theorem estimateDelay :
    Agrees (fun x x' => x' = x.turn Q R a b)
      e.estimateDelay.result e'.estimateDelay.result := by
  rw [Estimator.estimateDelay, Estimator.estimateDelay, h.interval, h.settings]
  cases e.interval with
  | some interval => exact h.estimateAt hQ hR ha hb interval
  | none =>
    obtain ⟨hresult, hafter⟩ := h.resample e.settings.accuracy
    simp only [hresult]
    cases (e.resample e.settings.accuracy).result with
    | error fault => exact Agrees.error rfl
    | ok interval => exact hafter.estimateAt hQ hR ha hb interval

end Turned

/-- Resampling with an accuracy, and then the estimation. -/
noncomputable def resampleAndEstimate (e : Estimator ℝ) (accuracy : ℝ) :
    Except (Fault ℝ) (Estimate ℝ) := do
  let _ ← (e.resample accuracy).result
  (e.resample accuracy).after.estimateDelay.result

theorem Turned.resampleAndEstimate {Q R : Mat3 ℝ} {a b : ℝ} {e e' : Estimator ℝ}
    (h : Turned Q R a b e e') (hQ : Q.IsOrthogonal) (hR : R.IsOrthogonal) (ha : 0 < a)
    (hb : 0 < b) (accuracy : ℝ) :
    Agrees (fun x x' => x' = x.turn Q R a b)
      (e.resampleAndEstimate accuracy) (e'.resampleAndEstimate accuracy) := by
  obtain ⟨hresult, hafter⟩ := h.resample accuracy
  rw [Estimator.resampleAndEstimate, Estimator.resampleAndEstimate, hresult]
  cases (e.resample accuracy).result with
  | error fault => exact Agrees.error rfl
  | ok interval => exact hafter.estimateDelay hQ hR ha hb

theorem turned_ofTracks (Q R : Mat3 ℝ) (a b : ℝ) (first second : Track ℝ)
    (settings : Settings ℝ) :
    Turned Q R a b (ofTracks first second settings)
      (ofTracks (first.map fun v => (Q.apply v).scale a) (second.map fun v => (R.apply v).scale b)
        settings) := by
  refine ⟨?_, ?_, rfl, rfl⟩
  · exact congrArg (Recording.mapSamples · first.toRecording) (funext (Vec3.apply_scale Q a))
  · exact congrArg (Recording.mapSamples · second.toRecording) (funext (Vec3.apply_scale R b))

/-- **Frames and gains.** Changes of frame with gains on both tracks change the calibration
by the changes of frame and by the ratio of the gains, and nothing else, whether both tracks
are resampled first or not. -/
theorem estimate_of_frames (first second : Track ℝ) (settings : Settings ℝ) {Q R : Mat3 ℝ}
    (hQ : Q.IsOrthogonal) (hR : R.IsOrthogonal) {a b : ℝ} (ha : 0 < a) (hb : 0 < b) :
    let e := ofTracks first second settings
    let e' := ofTracks (first.map fun v => (Q.apply v).scale a)
      (second.map fun v => (R.apply v).scale b) settings
    (∀ accuracy, Agrees (fun x x' => x' = x.turn Q R a b) (e.resampleAndEstimate accuracy)
        (e'.resampleAndEstimate accuracy)) ∧
      Agrees (fun x x' => x' = x.turn Q R a b) e.estimateDelay.result e'.estimateDelay.result := by
  have h := turned_ofTracks Q R a b first second settings
  exact ⟨h.resampleAndEstimate hQ hR ha hb, h.estimateDelay hQ hR ha hb⟩

/-- A quarter turn about the third axis. -/
noncomputable def quarterTurn : Mat3 ℝ := ⟨⟨0, -1, 0⟩, ⟨1, 0, 0⟩, ⟨0, 0, 1⟩⟩

theorem isOrthogonal_quarterTurn : quarterTurn.IsOrthogonal := by
  simp [Mat3.IsOrthogonal, quarterTurn, Mat3.mul, Mat3.transpose, Mat3.apply, Vec3.dot_real,
    Mat3.identity]

/-- One sample along each axis, a second apart. -/
noncomputable def axes : Track ℝ where
  samples := [⟨1, 0, 0⟩, ⟨0, 1, 0⟩, ⟨0, 0, 1⟩]
  times := Correlation.indexKnots 3
  valid := by
    rw [Recording.violation?_eq_none_iff, Correlation.length_indexKnots]
    exact ⟨rfl, by decide, Correlation.pairwise_indexKnots 3⟩

/-- A sensor that is turned and twice as sensitive. -/
theorem estimate_axes_turned :
    quarterTurn.IsOrthogonal ∧ (0 : ℝ) < 1 ∧ (0 : ℝ) < 2 ∧
      Agrees (fun x x' => x' = x.turn quarterTurn quarterTurn 1 2)
        (ofTracks axes axes Settings.default).estimateDelay.result
        (ofTracks (axes.map fun v => (quarterTurn.apply v).scale 1)
          (axes.map fun v => (quarterTurn.apply v).scale 2)
          Settings.default).estimateDelay.result :=
  ⟨isOrthogonal_quarterTurn, one_pos, two_pos,
    (estimate_of_frames axes axes Settings.default isOrthogonal_quarterTurn
      isOrthogonal_quarterTurn one_pos two_pos).2⟩

end Estimator

end GyroDelay
