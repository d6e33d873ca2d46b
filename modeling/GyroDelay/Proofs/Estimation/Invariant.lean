import GyroDelay.Proofs.Estimation.Resampling

/-!
# What every call keeps

An estimator for two tracks is resampled and asked for the delay any number of times, in any
order, and some of the calls fail. Through all of them both copies stay tracks with their
first timestamps, the working interval is positive once it is fixed, and an estimate comes
with a calibration, a calibration with an interval (`Invariant`, `invariant_of_calls`).

Each operation is analysed once, by the ways in which it can end (`resample_spec`,
`estimateAt_spec`, `estimateDelay_spec`); the invariant is then checked case by case.
-/

namespace GyroDelay

/-- A call on an estimator. -/
inductive Call (α : Type) where
  | resample (accuracy : α)
  | estimateDelay

namespace Estimator

section Operations

variable {α : Type} [Scalar α]

/-- The estimator after a call, whatever came of it. -/
def call (e : Estimator α) : Call α → Estimator α
  | .resample accuracy => (e.resample accuracy).after
  | .estimateDelay => e.estimateDelay.after

/-- The estimator after calls in a row. -/
def calls (e : Estimator α) (cs : List (Call α)) : Estimator α := cs.foldl call e

/-! ## The ways in which an estimation ends -/

/-- The outcome for a peak of the calibrated tracks. -/
def outcome (e : Estimator α) (interval : α) (lag : Int) (m : Mat3 α)
    (peak : Correlation.Peak α) : Estimate α :=
  { delay := delayOf peak e.first.samples.length interval
    interval := interval
    coarseLag := lag
    peakIndex := peak.index
    corrected := peak.corrected
    offset := peak.offset
    calibration := m }

/-- What an estimation at a fixed interval can come to. -/
inductive Estimation (e : Estimator α) (interval : α) :
    Except (Fault α) (Estimate α) × Estimator α → Prop
  /-- There is no alignment, and nothing happens. -/
  | notAligned {fault : Fault α} (halign : e.align = .error fault) :
      Estimation e interval (.error fault, e)
  /-- The first track is calibrated, but there is no peak. -/
  | notLocated {lag : Int} {m : Mat3 α} {fault : Fault α} (halign : e.align = .ok (lag, m))
      (hlocate : (e.withCalibration m).locate = .error fault) :
      Estimation e interval (.error fault, e.withCalibration m)
  /-- The first track is calibrated, and there is a peak. -/
  | located {lag : Int} {m : Mat3 α} {peak : Correlation.Peak α}
      (halign : e.align = .ok (lag, m)) (hlocate : (e.withCalibration m).locate = .ok peak) :
      Estimation e interval
        (.ok ((e.withCalibration m).outcome interval lag m peak),
          { e.withCalibration m with
            estimate := some ((e.withCalibration m).outcome interval lag m peak) })

theorem estimateAt_spec (e : Estimator α) (interval : α) :
    Estimation e interval (e.estimateAt interval) := by
  unfold estimateAt
  cases halign : e.align with
  | error fault => exact .notAligned halign
  | ok p =>
    obtain ⟨lag, m⟩ := p
    dsimp only
    cases hlocate : (e.withCalibration m).locate with
    | error fault => exact .notLocated halign hlocate
    | ok peak => exact .located halign hlocate

/-- An estimation changes the samples of the first track, the calibration and the estimate. -/
theorem estimateAt_frame (e : Estimator α) (interval : α) :
    (e.estimateAt interval).2 =
      { e with
        first := { e.first with samples := (e.estimateAt interval).2.first.samples }
        calibration := (e.estimateAt interval).2.calibration
        estimate := (e.estimateAt interval).2.estimate } := by
  have hspec := e.estimateAt_spec interval
  generalize e.estimateAt interval = result at hspec
  cases hspec with
  | notAligned _ => rfl
  | notLocated _ _ => rfl
  | located _ _ => rfl

theorem interval_of_resample {e : Estimator α} {accuracy interval : α}
    (h : (e.resample accuracy).result = .ok interval) :
    (e.resample accuracy).after.interval = some interval := by
  unfold resample at h ⊢
  cases hinterval : e.workingInterval accuracy with
  | error fault =>
    rw [hinterval] at h
    cases h
  | ok dt =>
    rw [hinterval] at h
    dsimp only at h ⊢
    split
    · rename_i hoff
      rw [if_pos hoff] at h
      cases h
      rfl
    · rename_i hon
      rw [if_neg hon] at h
      cases hfirst : e.first.resample dt e.settings.gridLimit.toNat with
      | error fault =>
        rw [hfirst] at h
        cases h
      | ok first =>
        rw [hfirst] at h
        dsimp only at h ⊢
        cases hsecond : e.second.resample dt e.settings.gridLimit.toNat with
        | error fault =>
          rw [hsecond] at h
          cases h
        | ok second =>
          rw [hsecond] at h
          cases h
          rfl

/-- What asking for the delay can come to. -/
inductive Answer (e : Estimator α) : Except (Fault α) (Estimate α) → Estimator α → Prop
  /-- The interval is fixed already. -/
  | direct {interval : α} (h : e.interval = some interval) :
      Answer e (e.estimateAt interval).1 (e.estimateAt interval).2
  /-- The interval cannot be fixed. -/
  | notResampled {fault : Fault α} (h : e.interval = none)
      (hresample : (e.resample e.settings.accuracy).result = .error fault) :
      Answer e (.error fault) (e.resample e.settings.accuracy).after
  /-- The interval is fixed first. -/
  | resampled {interval : α} (h : e.interval = none)
      (hresample : (e.resample e.settings.accuracy).result = .ok interval) :
      Answer e ((e.resample e.settings.accuracy).after.estimateAt interval).1
        ((e.resample e.settings.accuracy).after.estimateAt interval).2

theorem estimateDelay_spec (e : Estimator α) :
    Answer e e.estimateDelay.result e.estimateDelay.after := by
  unfold estimateDelay
  cases hinterval : e.interval with
  | some interval => exact .direct hinterval
  | none =>
    dsimp only
    cases hresample : (e.resample e.settings.accuracy).result with
    | error fault => exact .notResampled hinterval hresample
    | ok interval => exact .resampled hinterval hresample

end Operations

/-! ## The invariant -/

/-- What holds of an estimator for two tracks after any calls. -/
structure Invariant (first second : Track ℝ) (settings : Settings ℝ) (e : Estimator ℝ) : Prop
    extends HoldsTracks e where
  start_first : e.first.start = first.start
  start_second : e.second.start = second.start
  interval_pos : ∀ interval, e.interval = some interval → 0 < interval
  calibration_of_estimate : e.estimate.isSome → e.calibration.isSome
  interval_of_calibration : e.calibration.isSome → e.interval.isSome
  settings : e.settings = settings

theorem invariant_ofTracks (first second : Track ℝ) (settings : Settings ℝ) :
    Invariant first second settings (ofTracks first second settings) where
  toHoldsTracks := holdsTracks_ofTracks first second settings
  start_first := rfl
  start_second := rfl
  interval_pos := by
    intro interval h
    cases h
  calibration_of_estimate := by simp [ofTracks]
  interval_of_calibration := by simp [ofTracks]
  settings := rfl

/-- Calibrating the first track keeps its timestamps and the number of its rows. -/
theorem HoldsTracks.withCalibration {e : Estimator ℝ} (h : e.HoldsTracks) (m : Mat3 ℝ) :
    (e.withCalibration m).HoldsTracks where
  isTrack_first := ⟨(List.length_map _).trans h.isTrack_first.length_samples,
    h.isTrack_first.two_le_length, h.isTrack_first.pairwise_times⟩
  isTrack_second := h.isTrack_second

namespace Invariant

variable {first second : Track ℝ} {settings : Settings ℝ} {e : Estimator ℝ}
  (h : Invariant first second settings e)

include h

/-- A new interval keeps the rest of the invariant. -/
theorem withInterval {interval : ℝ} (hpos : 0 < interval) :
    Invariant first second settings { e with interval := some interval } where
  __ := h
  interval_pos := by
    intro i hi
    cases hi
    exact hpos
  interval_of_calibration := fun _ => rfl

theorem withFirstOnGrid {interval : ℝ} (hpos : 0 < interval) :
    Invariant first second settings { e with first := e.first.onGrid interval } where
  __ := h
  isTrack_first := h.isTrack_first.onGrid hpos
  start_first := (h.isTrack_first.start_onGrid hpos).trans h.start_first

theorem withSecondOnGrid {interval : ℝ} (hpos : 0 < interval) :
    Invariant first second settings { e with second := e.second.onGrid interval } where
  __ := h
  isTrack_second := h.isTrack_second.onGrid hpos
  start_second := (h.isTrack_second.start_onGrid hpos).trans h.start_second

theorem resample (accuracy : ℝ) :
    Invariant first second settings (e.resample accuracy).after := by
  have hspec := h.resample_spec accuracy
  generalize e.resample accuracy = attempt at hspec
  cases hspec with
  | refused _ => exact h
  | fixed _ hpos _ => exact h.withInterval hpos.2
  | firstTooLong _ _ _ _ => exact h
  | secondTooLong _ hpos _ _ _ => exact h.withFirstOnGrid hpos.2
  | moved _ hpos _ _ _ =>
    exact ((h.withFirstOnGrid hpos.2).withSecondOnGrid hpos.2).withInterval hpos.2

theorem withCalibration (hinterval : e.interval.isSome) (m : Mat3 ℝ) :
    Invariant first second settings (e.withCalibration m) where
  __ := h
  toHoldsTracks := h.toHoldsTracks.withCalibration m
  calibration_of_estimate := fun _ => rfl
  interval_of_calibration := fun _ => hinterval

theorem withEstimate (hcalibration : e.calibration.isSome) (x : Estimate ℝ) :
    Invariant first second settings { e with estimate := some x } where
  __ := h
  calibration_of_estimate := fun _ => hcalibration

theorem estimateAt (hinterval : e.interval.isSome) (interval : ℝ) :
    Invariant first second settings (e.estimateAt interval).2 := by
  have hspec := e.estimateAt_spec interval
  generalize e.estimateAt interval = result at hspec
  cases hspec with
  | notAligned _ => exact h
  | notLocated _ _ => exact h.withCalibration hinterval _
  | located _ _ => exact (h.withCalibration hinterval _).withEstimate rfl _

theorem estimateDelay : Invariant first second settings e.estimateDelay.after := by
  have hspec := e.estimateDelay_spec
  generalize e.estimateDelay.result = result at hspec
  generalize e.estimateDelay.after = after at hspec
  cases hspec with
  | direct hinterval => exact h.estimateAt (by rw [hinterval]; rfl) _
  | notResampled _ _ => exact h.resample _
  | resampled _ hresample =>
    have hinterval := interval_of_resample hresample
    exact (h.resample _).estimateAt (by rw [hinterval]; rfl) _

theorem call (c : Call ℝ) : Invariant first second settings (e.call c) := by
  cases c with
  | resample accuracy => exact h.resample accuracy
  | estimateDelay => exact h.estimateDelay

theorem calls (cs : List (Call ℝ)) : Invariant first second settings (e.calls cs) := by
  induction cs generalizing e with
  | nil => exact h
  | cons c cs ih => exact ih (h.call c)

end Invariant

/-- **Reachable states.** After any calls, failed ones included, the invariant holds. As soon as
the interval is fixed, asking for the delay changes only the samples of the first track, the
calibration and the estimate. -/
theorem invariant_of_calls (first second : Track ℝ) (settings : Settings ℝ)
    (cs : List (Call ℝ)) :
    let e := (ofTracks first second settings).calls cs
    Invariant first second settings e ∧
      ∀ interval, e.interval = some interval →
        e.estimateDelay.after =
          { e with
            first := { e.first with samples := e.estimateDelay.after.first.samples }
            calibration := e.estimateDelay.after.calibration
            estimate := e.estimateDelay.after.estimate } := by
  intro e
  refine ⟨(invariant_ofTracks first second settings).calls cs, ?_⟩
  intro interval hinterval
  have hspec := e.estimateDelay_spec
  generalize e.estimateDelay.result = result at hspec
  generalize e.estimateDelay.after = after at hspec
  cases hspec with
  | direct _ => exact e.estimateAt_frame _
  | notResampled hnone _ =>
    rw [hinterval] at hnone
    cases hnone
  | resampled hnone _ =>
    rw [hinterval] at hnone
    cases hnone

theorem invariant_shortAndLong :
    let e := shortAndLong.calls [.resample 1]
    e.interval = some 1 ∧
      Invariant (atRest 1 one_pos) (atRest 2 two_pos) { Settings.default with gridLimit := 3 } e ∧
      e.estimateDelay.after =
        { e with
          first := { e.first with samples := e.estimateDelay.after.first.samples }
          calibration := e.estimateDelay.after.calibration
          estimate := e.estimateDelay.after.estimate } := by
  have hinterval : (shortAndLong.calls [.resample 1]).interval = some 1 :=
    interval_of_resample resample_shortAndLong_one
  obtain ⟨hinvariant, hframe⟩ := invariant_of_calls (atRest 1 one_pos) (atRest 2 two_pos)
    { Settings.default with gridLimit := 3 } [.resample 1]
  exact ⟨hinterval, hinvariant, hframe 1 hinterval⟩

end Estimator

end GyroDelay
