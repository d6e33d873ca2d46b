import GyroDelay.Calibration
import GyroDelay.Correlation.Peak
import GyroDelay.Estimation.Settings
import GyroDelay.Metrics.Event
import GyroDelay.Recording.Basic

/-!
# The delay between two tracks

An estimator holds a working copy of both tracks. Resampling fixes the working interval
and may move the copies onto uniform grids. An estimation correlates the magnitudes of
both copies, calibrates the first one against the second at the lag of the highest entry,
correlates again and places the peak between two samples.

Every operation is a function from a state to an `Attempt`: its result, the state after it
and what was measured on the way. A failed attempt may have changed the state.
-/

namespace GyroDelay

/-- The outcome of an estimation. -/
structure Estimate (α : Type) where
  /-- How much later the motion appears in the second track, in seconds. -/
  delay : α
  /-- The working interval in seconds. -/
  interval : α
  /-- The lag of the highest entry before calibration. -/
  coarseLag : Int
  /-- The segment of the calibrated correlation curve that holds the peak. -/
  peakIndex : Nat
  /-- Whether the peak was moved to the segment before the highest entry. -/
  corrected : Bool
  /-- The place of the peak inside its segment, in samples. -/
  offset : α
  /-- The matrix that maps samples of the first track onto those of the second. -/
  calibration : Mat3 α
deriving Repr, BEq

/-- The delay in working samples. -/
def Estimate.delaySamples {α : Type} [Scalar α] (e : Estimate α) : α := e.delay / e.interval

/-- The state of an estimation. -/
structure Estimator (α : Type) where
  /-- The working copy of the first track. -/
  first : Recording α
  /-- The working copy of the second track. -/
  second : Recording α
  /-- How the estimation is carried out. -/
  settings : Settings α
  /-- The working interval, once it is fixed. -/
  interval : Option α
  /-- The calibration of the last estimation that found one. -/
  calibration : Option (Mat3 α)
  /-- The outcome of the last estimation that succeeded. -/
  estimate : Option (Estimate α)
deriving Repr, BEq

/-- What came of an operation on an estimator. -/
structure Attempt (α β : Type) where
  /-- The result or the fault. -/
  result : Except (Fault α) β
  /-- The estimator afterwards. -/
  after : Estimator α
  /-- What was measured. -/
  events : List (Event α)

variable {α : Type} [Scalar α]

open Scalar

namespace Recording

/-- Values of the three axes at `targets`, each axis through its own spline. -/
@[specialize] def interpolate (times : List α) (samples : List (Vec3 α)) (targets : List α) :
    Except (Fault α) (List (Vec3 α)) := do
  let xs ← Spline.interpolate times (samples.map (·.x)) targets
  let ys ← Spline.interpolate times (samples.map (·.y)) targets
  let zs ← Spline.interpolate times (samples.map (·.z)) targets
  return List.zipWith (fun x (y, z) => ⟨x, y, z⟩) xs (ys.zip zs)

/-- A recording on the uniform grid that begins with its first timestamp and covers its
last one. The number of rows is checked before the grid is laid out. -/
@[specialize] def resample (r : Recording α) (interval : α) (limit : Nat) :
    Except (Fault α) (Recording α) := do
  let start := r.times.headD zero
  let stop := r.times.getLastD zero + interval
  let rows ← Grid.size start stop interval
  if limit < rows then
    throw (.invalidInput (.gridSize (stop - start) interval rows limit))
  let grid := Grid.points start interval rows
  let samples ← interpolate r.times r.samples grid
  return ⟨samples, grid⟩

/-- The magnitudes of the samples. -/
@[specialize] def norms (r : Recording α) : List α := r.samples.map Vec3.norm

end Recording

namespace Estimator

/-- An estimator for two tracks. -/
def ofTracks (first second : Track α) (settings : Settings α) : Estimator α :=
  { first := first.toRecording, second := second.toRecording, settings := settings
    interval := none, calibration := none, estimate := none }

/-- The working interval for an accuracy: at most the mean interval of either track. -/
@[specialize] def workingInterval (e : Estimator α) (accuracy : α) : Except (Fault α) α :=
  if !isAccuracy accuracy then .error (.invalidInput (.accuracy accuracy))
  else do
    let first ← meanInterval e.first.times
    let second ← meanInterval e.second.times
    return lesser (lesser accuracy first) second

/-- Fixes the working interval and, if the settings say so, moves both copies onto uniform
grids, the first one first. -/
@[specialize] def resample (e : Estimator α) (accuracy : α) : Attempt α α :=
  match e.workingInterval accuracy with
  | .error fault => ⟨.error fault, e, []⟩
  | .ok interval =>
    let fixed (e : Estimator α) : Attempt α α :=
      ⟨.ok interval, { e with interval := some interval }, [.resampled interval]⟩
    if !e.settings.resample then fixed e
    else
      match e.first.resample interval e.settings.gridLimit.toNat with
      | .error fault => ⟨.error fault, e, []⟩
      | .ok first =>
        let e := { e with first := first }
        match e.second.resample interval e.settings.gridLimit.toNat with
        | .error fault => ⟨.error fault, e, []⟩
        | .ok second => fixed { e with second := second }

/-- The correlation curve of the magnitudes of both copies. -/
@[specialize] def correlate (e : Estimator α) : Except (Fault α) (Correlation.Curve α) :=
  Correlation.Curve.between e.first.norms e.second.norms

/-- The calibration of the first copy against the second at a lag. -/
@[specialize] def calibrate (e : Estimator α) (lag : Int) : Except (Fault α) (Mat3 α) := do
  let (first, second) ← Calibration.overlap e.first.samples e.second.samples lag
  Calibration.solve first second

/-- The lag of the magnitudes before calibration, and the calibration at that lag. -/
@[specialize] def align (e : Estimator α) : Except (Fault α) (Int × Mat3 α) := do
  let coarse ← e.correlate
  let lag := signedLag coarse.peak e.first.samples.length
  return (lag, ← e.calibrate lag)

/-- The estimator with its first copy mapped through a calibration. -/
@[specialize] def withCalibration (e : Estimator α) (m : Mat3 α) : Estimator α :=
  { e with
    first := ⟨Calibration.apply m e.first.samples, e.first.times⟩
    calibration := some m }

/-- The peak of the correlation curve of the magnitudes. -/
@[specialize] def locate (e : Estimator α) : Except (Fault α) (Correlation.Peak α) := do
  let curve ← e.correlate
  let segments ← curve.segments
  Correlation.refine segments.toArray curve.peak e.settings.rootPolicy

/-- The delay in seconds that a peak stands for. -/
def delayOf (peak : Correlation.Peak α) (firstLength : Nat) (interval : α) : α :=
  (ofInt (signedLag peak.index firstLength) + peak.offset) * interval

/-- The estimation once the working interval is fixed. -/
@[specialize] def estimateAt (e : Estimator α) (interval : α) :
    Except (Fault α) (Estimate α) × Estimator α :=
  match e.align with
  | .error fault => (.error fault, e)
  | .ok (lag, m) =>
    let e := e.withCalibration m
    match e.locate with
    | .error fault => (.error fault, e)
    | .ok peak =>
      let estimate : Estimate α :=
        { delay := delayOf peak e.first.samples.length interval
          interval := interval
          coarseLag := lag
          peakIndex := peak.index
          corrected := peak.corrected
          offset := peak.offset
          calibration := m }
      (.ok estimate, { e with estimate := some estimate })

/-- What is measured of the result of an estimation. -/
def measure : Except (Fault α) (Estimate α) → Event α
  | .ok estimate => .estimated estimate.delay estimate.corrected
  | .error fault => .estimationFailed fault.kind

/-- Estimates the delay. If the working interval is not fixed yet, the copies are resampled
with the accuracy of the settings first. -/
@[specialize] def estimateDelay (e : Estimator α) : Attempt α (Estimate α) :=
  let prepared : Attempt α α := match e.interval with
    | some interval => ⟨.ok interval, e, []⟩
    | none => e.resample e.settings.accuracy
  match prepared.result with
  | .error fault =>
    ⟨.error fault, prepared.after, prepared.events ++ [.estimationFailed fault.kind]⟩
  | .ok interval =>
    let (result, after) := prepared.after.estimateAt interval
    ⟨result, after, prepared.events ++ [measure result]⟩

end Estimator

end GyroDelay
