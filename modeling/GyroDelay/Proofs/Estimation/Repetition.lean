import GyroDelay.Proofs.Estimation.Invariant
import GyroDelay.Proofs.Estimation.Recovery

/-!
# Asking for the delay again

A successful estimation leaves the first track calibrated and the working interval fixed, so the
next one begins with the very curve that the last one ended with. Its lag before calibration is
the highest entry of that curve, which the place of the first peak still tells: a corrected peak
lies one segment before it (`peak_of_refine`).

If that lag is the first one, the same rows face each other again, and rows that are calibrated
already are calibrated by the identity (`solve_of_calibrated`). Nothing moves, and the peak is
found where it was (`estimateDelay_again`).
-/

namespace GyroDelay

namespace Calibration

variable {xs ys : List (Vec3 ℝ)} {m m' : Mat3 ℝ}

theorem solve_eq_ok (h : solve xs ys = .ok m) :
    solveNormal (crossMatrix xs xs) (crossMatrix xs ys) = .ok m := by
  unfold solve at h
  split at h
  · cases h
  split at h
  · cases h
  exact h

theorem solves_of_solve (h : solve xs ys = .ok m) :
    (crossMatrix xs xs).toMatrix * m.toMatrix.transpose = (crossMatrix xs ys).toMatrix := by
  have hm := solve_eq_ok h
  obtain ⟨n, hn, hsolves⟩ := solveNormal_of_isRegular ((isRegular_iff _ _).mpr ⟨m, hm⟩) _
  obtain rfl := Except.ok.inj (hn.symm.trans hm)
  exact hsolves

/-- Rows that are calibrated already are calibrated by the identity. -/
theorem solve_of_calibrated (h : solve xs ys = .ok m) (h' : solve (xs.map m.apply) ys = .ok m') :
    m' = Mat3.identity := by
  have hm' := solve_eq_ok h'
  have hregular := (isRegular_iff _ _).mpr ⟨m', hm'⟩
  have hself : ys.map Mat3.identity.apply = ys := List.map_id'' Vec3.apply_identity ys
  have hcross := toMatrix_crossMatrix_map m Mat3.identity xs ys
  rw [hself, Mat3.toMatrix_identity, Matrix.transpose_one, Matrix.mul_one,
    ← solves_of_solve h, ← Matrix.mul_assoc] at hcross
  -- both matrices of the second normal equations are the first normal matrix seen through `m`
  have hnormal : (crossMatrix (xs.map m.apply) (xs.map m.apply)).toMatrix *
      Mat3.identity.toMatrix.transpose = (crossMatrix (xs.map m.apply) ys).toMatrix := by
    rw [hcross, toMatrix_crossMatrix_map, Mat3.toMatrix_identity, Matrix.transpose_one,
      Matrix.mul_one]
  exact Except.ok.inj (hm'.symm.trans (solveNormal_eq_ok hregular hnormal))

end Calibration

section Peak

variable {α : Type} [Scalar α]

/-- The highest entry that a peak was placed from. -/
def Correlation.Peak.highest (peak : Correlation.Peak α) : ℕ :=
  peak.index + if peak.corrected then 1 else 0

theorem Correlation.peak_of_refine {segments : Array (Spline.Segment α)} {n : ℕ}
    {policy : RootPolicy} {peak : Correlation.Peak α}
    (h : Correlation.refine segments n policy = .ok peak) : peak.highest = n := by
  unfold Correlation.refine at h
  split at h
  · cases h
  · split at h
    · cases n with
      | zero => cases h
      | succ before =>
        obtain ⟨t, -, rfl⟩ := map_eq_ok h
        rfl
    · obtain ⟨t, -, rfl⟩ := map_eq_ok h
      rfl

end Peak

namespace Estimator

section Operations

variable {α : Type} [Scalar α]

/-! ## Successful calls -/

theorem estimateAt_eq_ok {e : Estimator α} {interval : α} {x : Estimate α}
    (h : (e.estimateAt interval).1 = .ok x) :
    ∃ lag m peak, e.align = .ok (lag, m) ∧ (e.withCalibration m).locate = .ok peak ∧
      x = (e.withCalibration m).outcome interval lag m peak ∧
      (e.estimateAt interval).2 = { e.withCalibration m with estimate := some x } := by
  have hspec := e.estimateAt_spec interval
  generalize e.estimateAt interval = result at hspec h
  cases hspec with
  | notAligned _ => cases h
  | notLocated _ _ => cases h
  | located halign hlocate =>
    cases h
    exact ⟨_, _, _, halign, hlocate, rfl, rfl⟩

/-- An estimation does not read an earlier one. -/
theorem estimateAt_withEstimate (e : Estimator α) (last : Option (Estimate α)) (interval : α) :
    ({ e with estimate := last }.estimateAt interval).1 = (e.estimateAt interval).1 := by
  have halign : align { e with estimate := last } = e.align := rfl
  rw [estimateAt, estimateAt, halign]
  cases e.align with
  | error fault => rfl
  | ok found =>
    obtain ⟨lag, m⟩ := found
    have hlocate : (withCalibration { e with estimate := last } m).locate =
        (e.withCalibration m).locate := rfl
    dsimp only
    rw [hlocate]
    cases (e.withCalibration m).locate with
    | error fault => rfl
    | ok peak => rfl

/-- With the interval fixed, a call is the estimation at that interval. -/
theorem estimateDelay_of_interval {e : Estimator α} {interval : α}
    (h : e.interval = some interval) :
    e.estimateDelay.result = (e.estimateAt interval).1 ∧
      e.estimateDelay.after = (e.estimateAt interval).2 := by
  unfold estimateDelay
  rw [h]
  exact ⟨rfl, rfl⟩

/-- A call that succeeds has an interval, fixed before or by the call. -/
theorem estimateDelay_eq_ok {e : Estimator α} {x : Estimate α}
    (h : e.estimateDelay.result = .ok x) :
    ∃ (e₀ : Estimator α) (interval : α), e₀.interval = some interval ∧
      (e₀.estimateAt interval).1 = .ok x ∧ e.estimateDelay.after = (e₀.estimateAt interval).2 := by
  have hspec := e.estimateDelay_spec
  generalize e.estimateDelay.result = result at hspec h
  generalize e.estimateDelay.after = after at hspec
  cases hspec with
  | direct hinterval => exact ⟨e, _, hinterval, h, rfl⟩
  | notResampled _ _ => cases h
  | resampled _ hresample => exact ⟨_, _, interval_of_resample hresample, h, rfl⟩

theorem align_eq_ok {e : Estimator α} {lag : ℤ} {m : Mat3 α} (h : e.align = .ok (lag, m)) :
    ∃ curve, e.correlate = .ok curve ∧ lag = signedLag curve.peak e.first.samples.length ∧
      e.calibrate lag = .ok m := by
  obtain ⟨curve, hcurve, hrest⟩ := bind_eq_ok h
  obtain ⟨m', hm', hpair⟩ := bind_eq_ok hrest
  obtain ⟨rfl, rfl⟩ := Prod.mk.inj (Except.ok.inj hpair)
  exact ⟨curve, hcurve, rfl, hm'⟩

theorem highest_of_locate {e : Estimator α} {peak : Correlation.Peak α}
    (h : e.locate = .ok peak) : ∃ curve, e.correlate = .ok curve ∧ peak.highest = curve.peak := by
  obtain ⟨curve, hcurve, hrest⟩ := bind_eq_ok h
  obtain ⟨segments, -, hrefine⟩ := bind_eq_ok hrest
  exact ⟨curve, hcurve, Correlation.peak_of_refine hrefine⟩

/-! ## Two calls in a row -/

/-- Two estimates in a row from an estimator, the second one from what the first one leaves. -/
inductive InARow (e : Estimator α) (interval : α) : Estimate α → Estimate α → Prop
  | intro {lag lag' : ℤ} {m m' : Mat3 α} {peak peak' : Correlation.Peak α}
      (halign : e.align = .ok (lag, m)) (hlocate : (e.withCalibration m).locate = .ok peak)
      (halign' : (e.withCalibration m).align = .ok (lag', m'))
      (hlocate' : ((e.withCalibration m).withCalibration m').locate = .ok peak') :
      InARow e interval ((e.withCalibration m).outcome interval lag m peak)
        (((e.withCalibration m).withCalibration m').outcome interval lag' m' peak')

theorem inARow_of_calls {e : Estimator α} {x y : Estimate α} (hx : e.estimateDelay.result = .ok x)
    (hy : e.estimateDelay.after.estimateDelay.result = .ok y) :
    ∃ e₀ interval, InARow e₀ interval x y ∧
      e.estimateDelay.after = { e₀.withCalibration x.calibration with estimate := some x } := by
  obtain ⟨e₀, interval, hinterval, hfirst, hafter⟩ := estimateDelay_eq_ok hx
  obtain ⟨lag, m, peak, halign, hlocate, rfl, hleft⟩ := estimateAt_eq_ok hfirst
  rw [hleft] at hafter
  refine ⟨e₀, interval, ?_, hafter⟩
  have hfixed : e.estimateDelay.after.interval = some interval := by
    rw [hafter]
    exact hinterval
  rw [(estimateDelay_of_interval hfixed).1, hafter] at hy
  rw [estimateAt_withEstimate] at hy
  obtain ⟨lag', m', peak', halign', hlocate', rfl, -⟩ := estimateAt_eq_ok hy
  exact .intro halign hlocate halign' hlocate'

/-- The second lag is that of the highest entry that the first peak was placed from. -/
theorem InARow.coarseLag {e : Estimator α} {interval : α} {x y : Estimate α}
    (h : InARow e interval x y) :
    y.coarseLag = (x.peakIndex : ℤ) + (if x.corrected then 1 else 0) -
      ((e.first.samples.length : ℤ) - 1) := by
  cases h with
  | @intro _ lag' m _ peak _ _ hlocate halign' _ =>
    obtain ⟨curve, hcurve, hlag, -⟩ := align_eq_ok halign'
    obtain ⟨curve', hcurve', hhighest⟩ := highest_of_locate hlocate
    obtain rfl := Except.ok.inj (hcurve.symm.trans hcurve')
    have hlen : (e.withCalibration m).first.samples.length = e.first.samples.length :=
      List.length_map _
    rw [← hhighest, hlen, signedLag, Correlation.Peak.highest] at hlag
    push_cast at hlag
    exact hlag

theorem InARow.locate {e : Estimator α} {interval : α} {x y : Estimate α}
    (h : InARow e interval x y) :
    (e.withCalibration x.calibration).locate = .ok ⟨x.peakIndex, x.corrected, x.offset⟩ := by
  cases h with
  | intro _ hlocate _ _ => exact hlocate

end Operations

/-! ## The same lag again -/

section Exact

theorem withCalibration_identity (e : Estimator ℝ) :
    (e.withCalibration Mat3.identity).first = e.first := by
  have hsame : e.first.samples.map Mat3.identity.apply = e.first.samples :=
    List.map_id'' Vec3.apply_identity _
  have hfirst : (e.withCalibration Mat3.identity).first =
      ⟨e.first.samples.map Mat3.identity.apply, e.first.times⟩ := rfl
  rw [hfirst, hsame]

/-- At the lag of its calibration, a calibrated track is calibrated by the identity. -/
theorem calibrate_again {e : Estimator ℝ} {lag : ℤ} {m m' : Mat3 ℝ}
    (h : e.calibrate lag = .ok m) (h' : (e.withCalibration m).calibrate lag = .ok m') :
    m' = Mat3.identity := by
  obtain ⟨⟨xs, ys⟩, hrows, hsolve⟩ := bind_eq_ok h
  have hrows' : Calibration.overlap (e.withCalibration m).first.samples e.second.samples lag =
      .ok (xs.map m.apply, ys) := by
    have hmap := Calibration.overlap_map m.apply id e.first.samples e.second.samples lag
    rw [List.map_id, hrows] at hmap
    rw [← List.map_id ys]
    exact hmap
  obtain ⟨rows, hfacing, hsolve'⟩ := bind_eq_ok h'
  obtain rfl := Except.ok.inj (hrows'.symm.trans hfacing)
  exact Calibration.solve_of_calibrated hsolve hsolve'

theorem InARow.eq_of_lag {e : Estimator ℝ} {interval : ℝ} {x y : Estimate ℝ}
    (h : InARow e interval x y) (hlag : y.coarseLag = x.coarseLag) :
    y = { x with calibration := Mat3.identity } := by
  cases h with
  | @intro lag lag' m m' peak peak' halign hlocate halign' hlocate' =>
    obtain rfl : lag' = lag := hlag
    obtain ⟨-, -, -, hcalibrate⟩ := align_eq_ok halign
    obtain ⟨-, -, -, hcalibrate'⟩ := align_eq_ok halign'
    obtain rfl := calibrate_again hcalibrate hcalibrate'
    have hfirst := withCalibration_identity (e.withCalibration m)
    have hsame : ((e.withCalibration m).withCalibration Mat3.identity).locate =
        (e.withCalibration m).locate := by
      rw [Estimator.locate, Estimator.correlate, hfirst]
      rfl
    rw [hsame, hlocate] at hlocate'
    obtain rfl := Except.ok.inj hlocate'
    rw [outcome, hfirst]
    rfl

end Exact

/-- **Asking again.** After an estimate, the peak of the tracks as they are left is the one that
was reported, and the next estimate begins with the lag of its highest entry. In exact arithmetic,
if that is the lag of the first estimate, the next one is the same but for its calibration, which
is the identity. -/
theorem estimateDelay_again :
    (∀ (α : Type) [Scalar α] (e : Estimator α) (x y : Estimate α),
      e.estimateDelay.result = .ok x → e.estimateDelay.after.estimateDelay.result = .ok y →
      e.estimateDelay.after.locate = .ok ⟨x.peakIndex, x.corrected, x.offset⟩ ∧
        y.coarseLag = (x.peakIndex : ℤ) + (if x.corrected then 1 else 0) -
          ((e.estimateDelay.after.first.samples.length : ℤ) - 1)) ∧
    ∀ (e : Estimator ℝ) (x y : Estimate ℝ),
      e.estimateDelay.result = .ok x → e.estimateDelay.after.estimateDelay.result = .ok y →
      (x.peakIndex : ℤ) + (if x.corrected then 1 else 0) -
          ((e.estimateDelay.after.first.samples.length : ℤ) - 1) = x.coarseLag →
      y = { x with calibration := Mat3.identity } := by
  constructor
  · intro α _ e x y hx hy
    obtain ⟨e₀, interval, hrow, hafter⟩ := inARow_of_calls hx hy
    have hlen : e.estimateDelay.after.first.samples.length = e₀.first.samples.length := by
      rw [hafter]
      exact List.length_map _
    refine ⟨?_, ?_⟩
    · rw [hafter]
      exact hrow.locate
    · rw [hlen]
      exact hrow.coarseLag
  · intro e x y hx hy hlag
    obtain ⟨e₀, interval, hrow, hafter⟩ := inARow_of_calls hx hy
    have hlen : e.estimateDelay.after.first.samples.length = e₀.first.samples.length := by
      rw [hafter]
      exact List.length_map _
    rw [hlen] at hlag
    exact hrow.eq_of_lag (hrow.coarseLag.trans hlag)

/-- A calibrated track holds what the second one holds. -/
theorem Shifted.withCalibration {xs : List (Vec3 ℝ)} {m : Mat3 ℝ} {p q r s : ℕ} {e : Estimator ℝ}
    (h : Shifted xs m p q r s e) :
    Shifted (xs.map m.apply) (Mat3.identity.scale 1) p q r s (e.withCalibration m) where
  first := by
    rw [surround_map_apply, ← h.first]
    rfl
  second := by
    have hone : Mat3.identity.scale 1 = Mat3.identity := by
      apply Mat3.toMatrix_injective
      rw [Mat3.toMatrix_scale, one_smul]
    have hsame : (xs.map m.apply).map Mat3.identity.apply = xs.map m.apply :=
      List.map_id'' Vec3.apply_identity _
    rw [hone, hsame]
    exact h.second

theorem two_le_ahead : 2 ≤ 1 + axes.samples.length + 0 := by
  decide

theorem two_le_turned (m : Mat3 ℝ) : 2 ≤ 0 + (axes.samples.map m.apply).length + 2 := by
  simp

/-- A motion a sample into the first stream and at the start of the second one, seen there through
a matrix. -/
noncomputable def turnedAhead (m : Mat3 ℝ) : Estimator ℝ :=
  { ofTracks (rested 1 0 axes.samples two_le_ahead)
      (rested 0 2 (axes.samples.map m.apply) (two_le_turned m))
      { Settings.default with resample := false } with
    interval := some 1 }

theorem estimateDelay_turnedAhead_again :
    ∃ x y, (turnedAhead (quarterTurn.scale 2)).estimateDelay.result = .ok x ∧
      (turnedAhead (quarterTurn.scale 2)).estimateDelay.after.estimateDelay.result = .ok y ∧
      x.calibration = quarterTurn.scale 2 ∧ y = { x with calibration := Mat3.identity } := by
  have hshifted : Shifted axes.samples (quarterTurn.scale 2) 1 0 0 2
      (turnedAhead (quarterTurn.scale 2)) := ⟨rfl, rfl⟩
  have hregular := (Calibration.isRegular_conj isOrthogonal_quarterTurn two_pos
    (Calibration.toMatrix_crossMatrix_scale quarterTurn quarterTurn 2 2 _ _)).mpr isRegular_axes
  obtain ⟨x, hfirst, hrecovers⟩ :=
    hshifted.estimateAt isRegular_axes isOrthogonal_quarterTurn two_pos one_pos
  obtain ⟨y, hsecond, hrecovers'⟩ :=
    hshifted.withCalibration.estimateAt hregular isOrthogonal_identity one_pos one_pos
  have hx : (turnedAhead (quarterTurn.scale 2)).estimateDelay.result = .ok x :=
    (estimateDelay_of_interval rfl).1.trans hfirst
  have hafter : (turnedAhead (quarterTurn.scale 2)).estimateDelay.after =
      { (turnedAhead (quarterTurn.scale 2)).withCalibration (quarterTurn.scale 2) with
        estimate := some x } := by
    obtain ⟨lag, m, peak, -, -, hout, hleft⟩ := estimateAt_eq_ok hfirst
    obtain rfl : m = quarterTurn.scale 2 := by
      rw [← hrecovers.calibration, hout]
      rfl
    exact (estimateDelay_of_interval rfl).2.trans hleft
  have hfixed : (turnedAhead (quarterTurn.scale 2)).estimateDelay.after.interval = some 1 := by
    rw [hafter]
    rfl
  have hy :
      (turnedAhead (quarterTurn.scale 2)).estimateDelay.after.estimateDelay.result = .ok y := by
    rw [(estimateDelay_of_interval hfixed).1, hafter, estimateAt_withEstimate]
    exact hsecond
  have hlag := (estimateDelay_again.1 ℝ _ x y hx hy).2
  rw [hrecovers'.coarseLag, ← hrecovers.coarseLag] at hlag
  exact ⟨x, y, hx, hy, hrecovers.calibration,
    estimateDelay_again.2 _ x y hx hy hlag.symm⟩

end Estimator

end GyroDelay
