import GyroDelay.ClockOffset
import GyroDelay.Estimation.Estimator

/-!
# From two recordings to a clock offset
-/

namespace GyroDelay

/-- The outcome of a run. -/
structure Report (α : Type) where
  /-- The estimate. -/
  estimate : Estimate α
  /-- How far the clock of the second device is ahead of the first one, in seconds. -/
  clockOffset : α
deriving Repr, BEq

/-- What came of a run, and what was measured. -/
structure Run (α : Type) where
  /-- The report or the fault. -/
  result : Except (Fault α) (Report α)
  /-- What was measured. -/
  events : List (Event α)

variable {α : Type} [Scalar α]

/-- Estimates the delay of two tracks and from it the offset of their clocks. -/
def Run.ofTracks (first second : Track α) (settings : Settings α) : Run α :=
  let resampled := (Estimator.ofTracks first second settings).resample settings.accuracy
  match resampled.result with
  | .error fault => ⟨.error fault, resampled.events⟩
  | .ok _ =>
    let attempt := resampled.after.estimateDelay
    let result := do
      let estimate ← attempt.result
      let offset ← clockOffset first.times second.times estimate.delay
      return ⟨estimate, offset⟩
    ⟨result, resampled.events ++ attempt.events⟩

/-- Estimates the delay of two recordings and the offset of their clocks. -/
def Run.ofRecordings (first second : Recording α) (settings : Settings α) : Run α :=
  match first.toTrack, second.toTrack with
  | .error fault, _ => ⟨.error fault, []⟩
  | _, .error fault => ⟨.error fault, []⟩
  | .ok first, .ok second => Run.ofTracks first second settings

/-- The clock offset in nanoseconds. -/
def Report.clockOffsetNanoseconds (r : Report α) : α := r.clockOffset * Scalar.ofNat 1000000000

end GyroDelay
