import GyroDelay.Proofs.Correlation.Shift
import GyroDelay.Proofs.Estimation.Frames
import GyroDelay.Proofs.Estimation.Resampling

/-!
# Recovery of a known shift and rotation

Two tracks hold the same motion, `p` samples after the start of the first one and `r` samples
after that of the second one, seen there in another frame with a gain, and rest otherwise. In
exact arithmetic the estimation succeeds and recovers the lag `r - p`, the change of frame
with the gain, and the delay up to less than one sample (`estimate_of_shift`).
-/

namespace GyroDelay

namespace Calibration

/-! ## Rows with rest around them -/

/-- At the lag between both places the rows face their counterparts. -/
theorem overlap_surround {xs ys : List (Vec3 ℝ)} (hlen : xs.length = ys.length)
    (h3 : 3 ≤ xs.length) (z : Vec3 ℝ) (p q r s : ℕ) :
    overlap (surround z p q xs) (surround z r s ys) ((r : ℤ) - p) =
      .ok (surround z (min p r) (min q s) xs, surround z (min p r) (min q s) ys) := by
  have hfirst : (if (0 : ℤ) ≤ (r : ℤ) - p then surround z p q xs
      else (surround z p q xs).drop ((r : ℤ) - p).natAbs) = surround z (min p r) q xs := by
    split
    · rw [Nat.min_eq_left (by omega)]
    · rw [drop_surround _ _ _ _ (by omega)]
      congr 1
      omega
  have hsecond : (if (0 : ℤ) ≤ (r : ℤ) - p then (surround z r s ys).drop ((r : ℤ) - p).natAbs
      else surround z r s ys) = surround z (min p r) s ys := by
    split
    · rw [drop_surround _ _ _ _ (by omega)]
      congr 1
      omega
    · rw [Nat.min_eq_right (by omega)]
  have hrows : min (surround z (min p r) q xs).length (surround z (min p r) s ys).length =
      min p r + xs.length + min q s := by
    rw [length_surround, length_surround, ← hlen]
    omega
  simp only [overlap, hfirst, hsecond, hrows]
  rw [if_neg (by rw [leastRows]; omega), take_surround _ _ _ _ (Nat.min_le_left q s), hlen,
    take_surround _ _ _ _ (Nat.min_le_right q s)]

theorem crossMatrix_surround {xs ys : List (Vec3 ℝ)} (hlen : xs.length = ys.length) (p q : ℕ) :
    crossMatrix (surround Vec3.zero p q xs) (surround Vec3.zero p q ys) = crossMatrix xs ys := by
  apply Mat3.toMatrix_injective
  have hrest (k : ℕ) : (List.zipWith (fun x y : Vec3 ℝ => Matrix.vecMulVec x.toFun y.toFun)
      (List.replicate k Vec3.zero) (List.replicate k Vec3.zero)).sum = 0 := by
    have hzero : (Vec3.zero : Vec3 ℝ).toFun = 0 := by
      ext i
      fin_cases i <;> simp [Vec3.toFun, Vec3.zero_real]
    rw [List.zipWith_replicate, List.sum_replicate, hzero, Matrix.zero_vecMulVec, smul_zero]
  rw [toMatrix_crossMatrix, toMatrix_crossMatrix, surround, surround,
    List.zipWith_append (by simp [hlen]), List.zipWith_append (by simp), List.sum_append,
    List.sum_append, hrest, hrest, zero_add, add_zero]

/-- A regular normal matrix takes three rows. -/
theorem IsRegular.three_le_length {xs : List (Vec3 ℝ)} (h : IsRegular (crossMatrix xs xs)) :
    3 ≤ xs.length := by
  by_contra hlen
  apply h.det_ne_zero
  obtain rfl | ⟨x, rfl⟩ | ⟨x, y, rfl⟩ : xs = [] ∨ (∃ x, xs = [x]) ∨ ∃ x y, xs = [x, y] := by
    match xs, hlen with
    | [], _ => exact Or.inl rfl
    | [x], _ => exact Or.inr (Or.inl ⟨x, rfl⟩)
    | [x, y], _ => exact Or.inr (Or.inr ⟨x, y, rfl⟩)
    | _ :: _ :: _ :: _, hlen => simp at hlen
  all_goals
    simp only [crossMatrix, List.zipWith_nil_left, List.zipWith_cons_cons, List.foldl_nil,
      List.foldl_cons, Mat3.det_real, Mat3.add, Mat3.outer, Mat3.zero, Vec3.add_real,
      Vec3.scale_real, Vec3.zero_real]
    ring

/-- A regular normal matrix takes a row that is not zero. -/
theorem IsRegular.exists_norm_ne_zero {xs : List (Vec3 ℝ)} (h : IsRegular (crossMatrix xs xs)) :
    ∃ u ∈ xs.map Vec3.norm, u ≠ 0 := by
  by_contra hnorm
  have hzero : xs = surround Vec3.zero xs.length 0 [] := by
    rw [surround, List.append_nil, List.replicate_zero, List.append_nil]
    refine List.eq_replicate_iff.mpr ⟨rfl, fun x hx => ?_⟩
    by_contra hx0
    exact hnorm ⟨x.norm, List.mem_map_of_mem hx, mt Vec3.norm_eq_zero_iff.mp hx0⟩
  rw [hzero, crossMatrix_surround rfl] at h
  exact absurd h.three_le_length (by decide)

end Calibration

/-- An estimate with a given lag and calibration, and a delay less than one sample off. -/
structure Estimate.Recovers (x : Estimate ℝ) (lag : ℤ) (m : Mat3 ℝ) : Prop where
  coarseLag : x.coarseLag = lag
  calibration : x.calibration = m
  near : |x.delay - lag * x.interval| < x.interval

namespace Estimator

/-- Two streams that hold the same rows, those of the second one in another frame with a gain,
and rest around them. -/
structure Shifted (xs : List (Vec3 ℝ)) (m : Mat3 ℝ) (p q r s : ℕ) (e : Estimator ℝ) : Prop where
  first : e.first.samples = surround Vec3.zero p q xs
  second : e.second.samples = surround Vec3.zero r s (xs.map m.apply)

theorem norms_surround {r : Recording ℝ} {p q : ℕ} {xs : List (Vec3 ℝ)}
    (h : r.samples = surround Vec3.zero p q xs) :
    r.norms = surround 0 p q (xs.map Vec3.norm) := by
  rw [Recording.norms, h, map_surround, Vec3.norm_zero]

theorem surround_map_apply (m : Mat3 ℝ) (p q : ℕ) (xs : List (Vec3 ℝ)) :
    surround Vec3.zero p q (xs.map m.apply) = (surround Vec3.zero p q xs).map m.apply := by
  have hzero : m.apply Vec3.zero = Vec3.zero := by
    simp [Mat3.apply, Vec3.zero_real, Vec3.dot_real]
  rw [map_surround, hzero]

/-- How far the delay of a peak is from a lag. -/
theorem delayOf_sub (peak : Correlation.Peak ℝ) (n : ℕ) (interval : ℝ) (index : ℕ) :
    delayOf peak n interval - (signedLag index n : ℤ) * interval =
      (peak.index + peak.offset - index) * interval := by
  rw [delayOf, Scalar.ofInt_real, signedLag, signedLag]
  push_cast
  ring

theorem workingInterval_eq_ok (first second : Track ℝ) (settings : Settings ℝ) {accuracy : ℝ}
    (h : 0 < accuracy) :
    ∃ dt, (ofTracks first second settings).workingInterval accuracy = .ok dt ∧ 0 < dt :=
  (holdsTracks_ofTracks first second settings).workingInterval_eq_ok h

namespace Shifted

variable {xs : List (Vec3 ℝ)} {R : Mat3 ℝ} {g : ℝ} {p q r s : ℕ} {e : Estimator ℝ}
  (h : Shifted xs (R.scale g) p q r s e)
  (hregular : Calibration.IsRegular (Calibration.crossMatrix xs xs))
  (hR : R.IsOrthogonal) (hg : 0 < g)

include h hregular

theorem signedLag_peak :
    signedLag (r + xs.length + q - 1) e.first.samples.length = (r : ℤ) - p := by
  have h3 := hregular.three_le_length
  rw [h.first, length_surround, signedLag]
  omega

/-- At the lag between both places the calibration is the change of frame with the gain. -/
theorem calibrate : e.calibrate ((r : ℤ) - p) = .ok (R.scale g) := by
  have h3 := hregular.three_le_length
  have hlen : xs.length = (xs.map (R.scale g).apply).length := (List.length_map _).symm
  -- the rest that remains in the overlap adds nothing to the normal matrix
  have hrest : Calibration.IsRegular (Calibration.crossMatrix
      (surround Vec3.zero (min p r) (min q s) xs) (surround Vec3.zero (min p r) (min q s) xs)) := by
    rw [Calibration.crossMatrix_surround rfl]
    exact hregular
  rw [Estimator.calibrate, h.first, h.second, Calibration.overlap_surround hlen h3]
  simp only [bind, Except.bind, surround_map_apply]
  exact Calibration.solve_image (by rw [length_surround]; omega) hrest (R.scale g)

include hR hg

theorem align : e.align = .ok ((r : ℤ) - p, R.scale g) := by
  have h3 := hregular.three_le_length
  obtain ⟨c, hcurve, hpeak, -⟩ := Correlation.between_shift hregular.exists_norm_ne_zero
    (by rw [List.length_map]; omega) one_pos hg p q r s
  have hone : (xs.map Vec3.norm).map ((1 : ℝ) * ·) = xs.map Vec3.norm := by simp
  have hcorrelate : e.correlate = .ok c := by
    rw [Estimator.correlate, norms_surround h.first, norms_surround h.second,
      map_norm_scale_apply hR hg.le, ← hcurve, hone]
  rw [List.length_map] at hpeak
  rw [Estimator.align, hcorrelate]
  simp only [bind, Except.bind, hpeak, h.signedLag_peak hregular, h.calibrate hregular, pure,
    Except.pure]

/-- The calibrated streams have their refined peak less than one sample from the lag. -/
theorem locate : ∃ peak, (e.withCalibration (R.scale g)).locate = .ok peak ∧
    |(peak.index : ℝ) + peak.offset - (r + xs.length + q - 1 : ℕ)| < 1 := by
  have h3 := hregular.three_le_length
  obtain ⟨c, hcurve, hpeak, hmax, hinterior, hflat⟩ := Correlation.between_shift
    hregular.exists_norm_ne_zero (by rw [List.length_map]; omega) hg hg p q r s
  have hfirst : (e.withCalibration (R.scale g)).first.samples =
      surround Vec3.zero p q (xs.map (R.scale g).apply) := by
    rw [surround_map_apply, ← h.first]
    rfl
  have hcorrelate : (e.withCalibration (R.scale g)).correlate = .ok c := by
    have hsecond : (e.withCalibration (R.scale g)).second.samples =
        surround Vec3.zero r s (xs.map (R.scale g).apply) := h.second
    rw [Estimator.correlate, norms_surround hfirst, norms_surround hsecond,
      map_norm_scale_apply hR hg.le, ← hcurve]
  rcases Correlation.refine_interior hmax hinterior with ⟨hisFlat, -⟩ | ⟨peak, hrefined, hrefine⟩
  · exact absurd hisFlat hflat
  · refine ⟨peak, ?_, ?_⟩
    · rw [Estimator.locate, hcorrelate]
      simp only [bind, Except.bind, c.segments_eq_ok (by omega)]
      exact hrefine _
    · have hnear := hrefined.near
      rwa [hpeak, List.length_map] at hnear

/-- With any interval the estimation succeeds. -/
theorem estimateAt {interval : ℝ} (hinterval : 0 < interval) :
    ∃ x, (e.estimateAt interval).1 = .ok x ∧ x.Recovers ((r : ℤ) - p) (R.scale g) := by
  obtain ⟨peak, hlocate, hnear⟩ := h.locate hregular hR hg
  rw [Estimator.estimateAt, h.align hregular hR hg]
  simp only [hlocate]
  refine ⟨_, rfl, rfl, rfl, ?_⟩
  have hlen : (e.withCalibration (R.scale g)).first.samples.length = e.first.samples.length :=
    List.length_map _
  have hoff := delayOf_sub peak e.first.samples.length interval (r + xs.length + q - 1)
  rw [h.signedLag_peak hregular] at hoff
  simp only [hlen, hoff]
  rw [abs_mul, abs_of_pos hinterval]
  exact mul_lt_of_lt_one_left hinterval hnear

end Shifted

/-- **Known shift and rotation.** Two tracks that hold the same rows, those of the second one
in another frame with a gain, with rest around them: the estimation finds the lag, the change
of frame with the gain, and the delay up to less than one sample, whether the interval is
fixed by the settings or beforehand. -/
theorem estimate_of_shift {xs : List (Vec3 ℝ)}
    (hregular : Calibration.IsRegular (Calibration.crossMatrix xs xs)) {R : Mat3 ℝ}
    (hR : R.IsOrthogonal) {g : ℝ} (hg : 0 < g) (p q r s : ℕ) {first second : Track ℝ}
    (hfirst : first.samples = surround Vec3.zero p q xs)
    (hsecond : second.samples = surround Vec3.zero r s (xs.map fun v => (R.apply v).scale g))
    {settings : Settings ℝ} (hresample : settings.resample = false)
    (haccuracy : 0 < settings.accuracy) :
    (∃ x, (ofTracks first second settings).estimateDelay.result = .ok x ∧
        x.Recovers ((r : ℤ) - p) (R.scale g)) ∧
      ∀ accuracy > 0, ∃ x,
        (ofTracks first second settings).resampleAndEstimate accuracy = .ok x ∧
          x.Recovers ((r : ℤ) - p) (R.scale g) := by
  have hestimate (dt : ℝ) (hdt : 0 < dt) : ∃ x,
      ({ ofTracks first second settings with interval := some dt }.estimateAt dt).1 = .ok x ∧
        x.Recovers ((r : ℤ) - p) (R.scale g) := by
    refine Shifted.estimateAt (s := s) ⟨hfirst, ?_⟩ hregular hR hg hdt
    rw [← funext (Vec3.apply_scale R g)]
    exact hsecond
  have hnone : (ofTracks first second settings).interval = none := rfl
  have hsettings : (ofTracks first second settings).settings = settings := rfl
  constructor
  · obtain ⟨dt, hdt, hdt0⟩ := workingInterval_eq_ok first second settings haccuracy
    rw [estimateDelay, hnone, hsettings, resample_eq hresample hdt]
    exact hestimate dt hdt0
  · intro accuracy hpos
    obtain ⟨dt, hdt, hdt0⟩ := workingInterval_eq_ok first second settings hpos
    rw [resampleAndEstimate, resample_eq hresample hdt]
    exact hestimate dt hdt0

/-- Rows a second apart with rest before and after them. -/
noncomputable def rested (p q : ℕ) (xs : List (Vec3 ℝ)) (h : 2 ≤ p + xs.length + q) :
    Track ℝ where
  samples := surround Vec3.zero p q xs
  times := Correlation.indexKnots (p + xs.length + q)
  valid := by
    rw [Recording.violation?_eq_none_iff, length_surround, Correlation.length_indexKnots]
    exact ⟨rfl, h, Correlation.pairwise_indexKnots _⟩

theorem isRegular_axes :
    Calibration.IsRegular (Calibration.crossMatrix axes.samples axes.samples) := by
  have hidentity : Calibration.crossMatrix axes.samples axes.samples = Mat3.identity := by
    simp [Calibration.crossMatrix, axes, Mat3.outer, Mat3.add, Mat3.zero, Vec3.zero_real,
      Vec3.scale_real, Vec3.add_real, Mat3.identity]
  rw [hidentity, Calibration.IsRegular, Mat3.det_real]
  norm_num [Mat3.identity, Mat3.trace]

theorem isOrthogonal_identity : (Mat3.identity : Mat3 ℝ).IsOrthogonal := by
  simp [Mat3.IsOrthogonal, Mat3.mul, Mat3.transpose, Mat3.apply, Vec3.dot_real, Mat3.identity]

/-- A second of rest before the first stream and two seconds after the second one. -/
theorem estimate_axes_shifted :
    Calibration.IsRegular (Calibration.crossMatrix axes.samples axes.samples) ∧
      ∃ x, (ofTracks (rested 1 0 axes.samples (by decide))
          (rested 0 2 (axes.samples.map fun v => (quarterTurn.apply v).scale 2) (by simp))
          { Settings.default with resample := false }).estimateDelay.result = .ok x ∧
        x.Recovers (-1) (quarterTurn.scale 2) := by
  refine ⟨isRegular_axes, (estimate_of_shift isRegular_axes isOrthogonal_quarterTurn two_pos 1 0 0 2
    rfl rfl rfl ?_).1⟩
  norm_num [Settings.default]

end Estimator

end GyroDelay
