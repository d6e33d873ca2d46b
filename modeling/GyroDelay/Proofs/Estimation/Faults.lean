import GyroDelay.Proofs.Calibration
import GyroDelay.Proofs.Correlation.Direct
import GyroDelay.Proofs.Correlation.Refinement
import GyroDelay.Proofs.Estimation.Invariant

/-!
# The faults of an estimation

Which faults the calls on an estimator for two tracks can end with, after any calls before
them (`faults_of_calls`). Most checks of the inner steps never fail there:

* magnitudes are not negative, so the first maximum of their correlation is not in the
  padding (`Correlation.between_nonneg`), the lag at it leaves a row of overlap
  (`Calibration.overlap_error`), and the overlap has rows of equal number
  (`Calibration.overlap_ok`);
* a first maximum before the last entry refines for both root policies unless the curve is
  flat there, so the only other fault is a peak on the last entry of a curve without padding
  (`locate_error`).
-/

namespace GyroDelay

/-! ## Curves of magnitudes -/

namespace Correlation

theorem getD_nonneg {xs : List ℝ} (h : ∀ x ∈ xs, 0 ≤ x) (i : ℕ) : 0 ≤ xs.getD i 0 := by
  rcases lt_or_ge i xs.length with hi | hi
  · rw [List.getD_eq_getElem _ _ hi]
    exact h _ (List.getElem_mem hi)
  · rw [List.getD_eq_default _ _ hi]

theorem direct_nonneg {a b : List ℝ} (ha : ∀ x ∈ a, 0 ≤ x) (hb : ∀ x ∈ b, 0 ≤ x) (lag : ℤ) :
    0 ≤ direct a b lag :=
  Finset.sum_nonneg fun m _ => mul_nonneg (getD_nonneg ha m) (getD_nonneg hb _)

/-- **No maximum in the padding.** Signals without negative samples have a curve whose first
maximum belongs to a lag at which they overlap. -/
theorem between_nonneg {a b : List ℝ} (ha : a ≠ []) (hb : b ≠ []) (ha0 : ∀ x ∈ a, 0 ≤ x)
    (hb0 : ∀ x ∈ b, 0 ≤ x) :
    ∃ (c : Curve ℝ) (k : ℕ), Curve.between a b = .ok c ∧ c.values.length = 2 ^ k ∧
      a.length + b.length - 1 ≤ 2 ^ k ∧ IsFirstMax c.values c.peak ∧
      c.peak < a.length + b.length - 1 := by
  have hla : 0 < a.length := List.length_pos_iff.mpr ha
  have hlb : 0 < b.length := List.length_pos_iff.mpr hb
  obtain ⟨values, hfull, hlen, hentry⟩ := full_eq_ok ha hb
  have hroom : a.length + b.length - 1 ≤ 2 ^ paddedLevel (a.length + b.length - 1) :=
    (isLeast_paddedLevel (by omega)).1.2
  have hget (i : ℕ) (hi : i < values.length) :
      values.getD i 0 = direct a b (signedLag i a.length) := by
    rw [List.getD_eq_getElem?_getD, hentry i hi, Option.getD_some]
  have hmax : IsFirstMax values (argmax values) :=
    isFirstMax_argmax (List.length_pos_iff.mp (by omega))
  refine ⟨⟨values, argmax values⟩, _, ?_, hlen, hroom, hmax, ?_⟩
  · rw [Curve.between, hfull]
    rfl
  · by_contra hpeak
    dsimp only at hpeak
    have hzero : values.getD (argmax values) 0 = 0 := by
      rw [hget _ hmax.lt_length, direct_of_length_le]
      rw [signedLag]
      omega
    have hlt := hmax.before 0 (by omega)
    rw [hzero, hget 0 (by omega)] at hlt
    exact absurd (direct_nonneg ha0 hb0 _) (not_le.mpr hlt)

end Correlation

/-! ## Faults of the calibration -/

namespace Calibration

variable {xs ys : List (Vec3 ℝ)} {lag : ℤ} {fault : Fault ℝ}

theorem overlap_error (hfirst : -(xs.length : ℤ) < lag) (hsecond : lag < ys.length)
    (hxs : xs ≠ []) (hys : ys ≠ []) (h : overlap xs ys lag = .error fault) :
    fault = .insufficientOverlap 1 ∨ fault = .insufficientOverlap 2 := by
  have hlx : 0 < xs.length := List.length_pos_iff.mpr hxs
  have hly : 0 < ys.length := List.length_pos_iff.mpr hys
  have hlen := length_facing xs ys lag
  rw [overlap_eq] at h
  split at h
  · rename_i hrows
    cases h
    rw [leastRows] at hrows
    obtain hone | htwo : (facing xs ys lag).length = 1 ∨ (facing xs ys lag).length = 2 := by omega
    · rw [hone]
      exact Or.inl rfl
    · rw [htwo]
      exact Or.inr rfl
  · cases h

theorem overlap_ok {rows : List (Vec3 ℝ) × List (Vec3 ℝ)} (h : overlap xs ys lag = .ok rows) :
    rows.1.length = rows.2.length ∧ 3 ≤ rows.1.length := by
  rw [overlap_eq] at h
  split at h
  · cases h
  · rename_i hrows
    cases h
    rw [List.unzip_eq_map, List.length_map, List.length_map]
    exact ⟨rfl, not_lt.mp hrows⟩

theorem solve_error (hlen : xs.length = ys.length) (h3 : 3 ≤ xs.length)
    (h : solve xs ys = .error fault) : ∃ determinant, fault = .singularSystem determinant := by
  unfold solve at h
  rw [if_neg (not_not.mpr hlen), if_neg (by rw [leastRows]; omega), solveNormal_real] at h
  split at h
  · cases h
    exact ⟨_, rfl⟩
  · split at h
    · cases h
      exact ⟨_, rfl⟩
    · cases h

end Calibration

theorem Spline.Natural.length_segments (s : Spline.Natural ℝ) :
    s.segments.length = min s.values.length s.pinnedSlopes.length - 1 := by
  simp only [segments, List.length_zipWith, List.length_zip, List.length_tail]
  omega

namespace Estimator

theorem norms_nonneg (r : Recording ℝ) : ∀ x ∈ r.norms, 0 ≤ x := by
  intro x hx
  obtain ⟨v, -, rfl⟩ := List.mem_map.mp hx
  rw [Vec3.norm_real]
  exact Real.sqrt_nonneg _

namespace HoldsTracks

variable {e : Estimator ℝ} (h : e.HoldsTracks) {fault : Fault ℝ}

include h

theorem correlate_eq_ok :
    ∃ (c : Correlation.Curve ℝ) (k : ℕ), e.correlate = .ok c ∧ c.values.length = 2 ^ k ∧
      e.first.samples.length + e.second.samples.length - 1 ≤ 2 ^ k ∧
      IsFirstMax c.values c.peak ∧
      c.peak < e.first.samples.length + e.second.samples.length - 1 := by
  have hlen (r : Recording ℝ) : r.norms.length = r.samples.length := List.length_map _
  have hne {r : Recording ℝ} (hr : r.IsTrack) : r.norms ≠ [] := by
    rw [Recording.norms, Ne, List.map_eq_nil_iff]
    exact hr.samples_ne_nil
  rw [← hlen, ← hlen]
  exact Correlation.between_nonneg (hne h.isTrack_first) (hne h.isTrack_second)
    (norms_nonneg _) (norms_nonneg _)

/-- The alignment fails for want of rows or of independent ones. -/
theorem align_error (herror : e.align = .error fault) :
    fault = .insufficientOverlap 1 ∨ fault = .insufficientOverlap 2 ∨
      ∃ determinant, fault = .singularSystem determinant := by
  obtain ⟨c, k, hcurve, -, -, -, hpeak⟩ := h.correlate_eq_ok
  have hne_first := h.isTrack_first.samples_ne_nil
  have hne_second := h.isTrack_second.samples_ne_nil
  have hfirst := List.length_pos_iff.mpr hne_first
  have hsecond := List.length_pos_iff.mpr hne_second
  unfold align at herror
  rw [hcurve] at herror
  rcases bind_eq_error herror with hcurve' | ⟨_, hc, herror⟩
  · cases hcurve'
  · cases hc
    rcases bind_eq_error herror with hcalibrate | ⟨_, -, hdone⟩
    · unfold calibrate at hcalibrate
      rcases bind_eq_error hcalibrate with hoverlap | ⟨rows, hrows, hsolve⟩
      · have hrows := Calibration.overlap_error (by rw [signedLag]; omega)
          (by rw [signedLag]; omega) hne_first hne_second hoverlap
        exact hrows.imp_right Or.inl
      · obtain ⟨hlen, h3⟩ := Calibration.overlap_ok hrows
        exact Or.inr (Or.inr (Calibration.solve_error hlen h3 hsolve))
    · cases hdone

/-- The peak cannot be refined where the curve is flat or at its last entry. -/
theorem locate_error (herror : e.locate = .error fault) :
    fault = .degenerateQuadratic ∨
      ∃ k, e.first.samples.length + e.second.samples.length - 1 = 2 ^ k ∧
        fault = .peakAtBoundary ((2 ^ k - 1 : ℕ) : ℤ) (2 ^ k) := by
  obtain ⟨c, k, hcurve, hlen, hroom, hmax, hpeak⟩ := h.correlate_eq_ok
  have hfirst := h.isTrack_first.length_samples ▸ h.isTrack_first.two_le_length
  have hsecond := h.isTrack_second.length_samples ▸ h.isTrack_second.two_le_length
  have h2 : 2 ≤ c.values.length := by omega
  unfold locate at herror
  rw [hcurve] at herror
  simp only [bind, Except.bind, c.segments_eq_ok h2] at herror
  rcases Nat.lt_or_ge (c.peak + 1) c.values.length with hinner | hlast
  · rcases Correlation.refine_interior hmax hinner with ⟨-, hrefine⟩ | ⟨peak, -, hrefine⟩
    · rw [hrefine] at herror
      cases herror
      exact Or.inl rfl
    · rw [hrefine] at herror
      cases herror
  · -- there is no segment after the last entry
    right
    have hsize : c.spline.segments.toArray.size = 2 ^ k - 1 := by
      rw [List.size_toArray, Spline.Natural.length_segments, c.values_spline h2,
        c.length_slopes_spline h2, min_self, hlen]
    have hplace : c.peak = 2 ^ k - 1 := by omega
    refine ⟨k, by omega, ?_⟩
    unfold Correlation.refine at herror
    rw [Array.getElem?_eq_none (by omega), hsize, hplace] at herror
    cases herror
    rw [Nat.sub_add_cancel (by omega)]

end HoldsTracks

/-! ## Faults of the calls -/

/-- Some grid would have more points than the settings allow. -/
def GridTooLong (e : Estimator ℝ) (accuracy : ℝ) : Prop :=
  ∃ interval, e.workingInterval accuracy = .ok interval ∧
    (e.limit < e.first.gridRows interval ∨ e.limit < e.second.gridRows interval)

/-- The results of resampling with the conditions under which they occur. -/
inductive ResamplingResult (e : Estimator ℝ) (accuracy : ℝ) : Except (Fault ℝ) ℝ → Prop
  | accuracy {v : Violation ℝ} (hv : v.field = "accuracy") (h : accuracy ≤ 0) :
      ResamplingResult e accuracy (.error (.invalidInput v))
  | timestamps {v : Violation ℝ} (hv : v.field = "timestamps")
      (h : 0 < accuracy ∧ e.settings.resample = true ∧ e.GridTooLong accuracy) :
      ResamplingResult e accuracy (.error (.invalidInput v))
  | ok {interval : ℝ} (hpos : 0 < accuracy)
      (hfits : e.settings.resample = true → ¬ e.GridTooLong accuracy) :
      ResamplingResult e accuracy (.ok interval)

theorem HoldsTracks.resample_result {e : Estimator ℝ} (h : e.HoldsTracks) (accuracy : ℝ) :
    ResamplingResult e accuracy (e.resample accuracy).result := by
  have hspec := h.resample_spec accuracy
  generalize e.resample accuracy = attempt at hspec
  cases hspec with
  | refused hneg => exact .accuracy rfl hneg
  | fixed _ hpos hoff =>
    refine .ok hpos.1 fun hon => ?_
    rw [hoff] at hon
    cases hon
  | firstTooLong hinterval hpos hon hfirst =>
    exact .timestamps rfl ⟨hpos.1, hon, _, hinterval, Or.inl hfirst⟩
  | secondTooLong hinterval hpos hon _ hsecond =>
    exact .timestamps rfl ⟨hpos.1, hon, _, hinterval, Or.inr hsecond⟩
  | moved hinterval hpos _ hfirst hsecond =>
    refine .ok hpos.1 fun _ => ?_
    rintro ⟨interval', hinterval', hlong⟩
    cases hinterval.symm.trans hinterval'
    omega

/-- The faults of resampling: the accuracy is at fault exactly if it is not positive, the
timestamps exactly if some grid would be too long. -/
structure ResamplingFaults (e : Estimator ℝ) (accuracy : ℝ) : Prop where
  only : ∀ fault, (e.resample accuracy).result = .error fault →
    ∃ v : Violation ℝ, fault = .invalidInput v ∧ (v.field = "accuracy" ∨ v.field = "timestamps")
  accuracy_iff : (∃ v, (e.resample accuracy).result = .error (.invalidInput v) ∧
    v.field = "accuracy") ↔ accuracy ≤ 0
  timestamps_iff : (∃ v, (e.resample accuracy).result = .error (.invalidInput v) ∧
    v.field = "timestamps") ↔
      0 < accuracy ∧ e.settings.resample = true ∧ e.GridTooLong accuracy

theorem HoldsTracks.resamplingFaults {e : Estimator ℝ} (h : e.HoldsTracks) (accuracy : ℝ) :
    e.ResamplingFaults accuracy := by
  have hresult := h.resample_result accuracy
  constructor
  all_goals generalize (e.resample accuracy).result = result at hresult
  · rintro fault rfl
    cases hresult with
    | accuracy hv _ => exact ⟨_, rfl, Or.inl hv⟩
    | timestamps hv _ => exact ⟨_, rfl, Or.inr hv⟩
  · cases hresult with
    | accuracy hv hneg => exact iff_of_true ⟨_, rfl, hv⟩ hneg
    | timestamps hv hlong =>
      refine iff_of_false ?_ (not_le.mpr hlong.1)
      rintro ⟨_, heq, hv'⟩
      cases heq
      rw [hv] at hv'
      exact absurd hv' (by decide)
    | ok hpos _ =>
      refine iff_of_false ?_ (not_le.mpr hpos)
      rintro ⟨_, heq, _⟩
      cases heq
  · cases hresult with
    | accuracy hv hneg =>
      refine iff_of_false ?_ fun hlong => not_le.mpr hlong.1 hneg
      rintro ⟨_, heq, hv'⟩
      cases heq
      rw [hv] at hv'
      exact absurd hv' (by decide)
    | timestamps hv hlong => exact iff_of_true ⟨_, rfl, hv⟩ hlong
    | ok _ hfits =>
      refine iff_of_false ?_ fun hlong => hfits hlong.2.1 hlong.2.2
      rintro ⟨_, heq, _⟩
      cases heq

/-- The faults of an estimation that leaves the estimator `after`. -/
inductive EstimationFault (after : Estimator ℝ) : Fault ℝ → Prop
  | overlap {rows : ℕ} (h : rows = 1 ∨ rows = 2) : EstimationFault after (.insufficientOverlap rows)
  | singular (determinant : ℝ) : EstimationFault after (.singularSystem determinant)
  | flat : EstimationFault after .degenerateQuadratic
  /-- The peak is the last entry of a curve without padding. -/
  | lastEntry {k : ℕ}
      (h : after.first.samples.length + after.second.samples.length - 1 = 2 ^ k) :
      EstimationFault after (.peakAtBoundary ((2 ^ k - 1 : ℕ) : ℤ) (2 ^ k))

theorem HoldsTracks.estimateAt_error {e : Estimator ℝ} (h : e.HoldsTracks) {interval : ℝ}
    {fault : Fault ℝ} (herror : (e.estimateAt interval).1 = .error fault) :
    EstimationFault (e.estimateAt interval).2 fault := by
  have hspec := e.estimateAt_spec interval
  generalize e.estimateAt interval = result at hspec herror
  cases hspec with
  | notAligned halign =>
    cases herror
    rcases h.align_error halign with rfl | rfl | ⟨determinant, rfl⟩
    · exact .overlap (Or.inl rfl)
    · exact .overlap (Or.inr rfl)
    · exact .singular determinant
  | notLocated _ hlocate =>
    cases herror
    rcases (h.withCalibration _).locate_error hlocate with rfl | ⟨k, hlength, rfl⟩
    · exact .flat
    · exact .lastEntry hlength
  | located _ _ => cases herror

theorem Invariant.estimateDelay_error {first second : Track ℝ} {settings : Settings ℝ}
    {e : Estimator ℝ} (h : Invariant first second settings e) {fault : Fault ℝ}
    (herror : e.estimateDelay.result = .error fault) :
    (e.interval = none ∧ (e.resample e.settings.accuracy).result = .error fault) ∨
      EstimationFault e.estimateDelay.after fault := by
  have hspec := e.estimateDelay_spec
  generalize e.estimateDelay.result = result at hspec herror
  generalize e.estimateDelay.after = after at hspec
  cases hspec with
  | direct _ => exact Or.inr (h.estimateAt_error herror)
  | notResampled hnone hresample =>
    cases herror
    exact Or.inl ⟨hnone, hresample⟩
  | resampled _ _ => exact Or.inr ((h.resample _).estimateAt_error herror)

/-- **The faults of an estimator.** After any calls, resampling fails for the sake of the
accuracy or of the number of points on a grid, exactly when these are at fault. Asking for the
delay fails with a fault of that kind, if the interval is not fixed yet, or with one of four
others; what the inner steps check besides is never at fault. -/
theorem faults_of_calls (first second : Track ℝ) (settings : Settings ℝ) (cs : List (Call ℝ)) :
    let e := (ofTracks first second settings).calls cs
    (∀ accuracy, ResamplingFaults e accuracy) ∧
      ∀ fault, e.estimateDelay.result = .error fault →
        ((e.interval = none ∧ (e.resample e.settings.accuracy).result = .error fault) ∨
          EstimationFault e.estimateDelay.after fault) ∧
        (∀ v, fault = .invalidInput v → v.field = "accuracy" ∨ v.field = "timestamps") ∧
        ∀ re im, fault ≠ .complexRoots re im := by
  intro e
  have h : Invariant first second settings e := (invariant_ofTracks first second settings).calls cs
  refine ⟨h.resamplingFaults, ?_⟩
  intro fault herror
  have hcases := h.estimateDelay_error herror
  refine ⟨hcases, ?_, ?_⟩
  · rintro v rfl
    rcases hcases with ⟨-, hresample⟩ | hestimation
    · obtain ⟨w, heq, hfield⟩ := (h.resamplingFaults _).only _ hresample
      cases heq
      exact hfield
    · cases hestimation
  · rintro re im rfl
    rcases hcases with ⟨-, hresample⟩ | hestimation
    · obtain ⟨w, heq, -⟩ := (h.resamplingFaults _).only _ hresample
      cases heq
    · cases hestimation

/-- At the accuracy of the settings the first grid is too long already. -/
theorem faults_shortAndLong :
    let fault := shortAndLong.first.gridFault (1 / 1000) 3
    shortAndLong.estimateDelay.result = .error fault ∧
      ((shortAndLong.interval = none ∧
          (shortAndLong.resample shortAndLong.settings.accuracy).result = .error fault) ∨
        EstimationFault shortAndLong.estimateDelay.after fault) ∧
      (∀ v, fault = .invalidInput v → v.field = "accuracy" ∨ v.field = "timestamps") ∧
      ∀ re im, fault ≠ .complexRoots re im := by
  have haccuracy : shortAndLong.settings.accuracy = 1 / 1000 := by
    norm_num [shortAndLong, ofTracks, Settings.default]
  have hinterval : shortAndLong.workingInterval (1 / 1000) = .ok (1 / 1000) :=
    workingInterval_shortAndLong (by norm_num) (by norm_num)
  have hfirst : shortAndLong.limit < shortAndLong.first.gridRows (1 / 1000) := by
    rw [gridRows_first (n := 1000) (by norm_num)]
    decide
  have hresample := holdsTracks_shortAndLong.resample_eq_of_on hinterval (by norm_num) rfl
  rw [if_pos hfirst] at hresample
  have herror : shortAndLong.estimateDelay.result =
      .error (shortAndLong.first.gridFault (1 / 1000) 3) := by
    unfold estimateDelay
    rw [show shortAndLong.interval = none from rfl, haccuracy, hresample]
    rfl
  obtain ⟨-, hfaults⟩ := faults_of_calls (atRest 1 one_pos) (atRest 2 two_pos)
    { Settings.default with gridLimit := 3 } []
  exact ⟨herror, hfaults _ herror⟩

end Estimator

end GyroDelay
