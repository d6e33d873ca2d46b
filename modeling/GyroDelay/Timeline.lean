import GyroDelay.Fault
import GyroDelay.Scalar

/-!
# Timestamps and uniform grids

Differences of consecutive timestamps, their mean, and half-open uniform grids
`start, start + step, …` below `stop`.
-/

namespace GyroDelay

variable {α : Type} [Scalar α]

open Scalar

/-- Each value less the one before it. -/
@[specialize] def differences (xs : List α) : List α := List.zipWith (fun a b => b - a) xs xs.tail

/-- The mean distance of consecutive timestamps. -/
@[specialize] def meanInterval (times : List α) : Except (Fault α) α :=
  let gaps := differences times
  if gaps.isEmpty then .error (.invalidInput .fewTimestamps)
  else .ok (sum gaps / ofNat gaps.length)

namespace Grid

/-- How many points the grid from `start` up to, but not including, `stop` has. -/
def size (start stop step : α) : Except (Fault α) Nat :=
  if !isFinite step || decide (step ≤ zero) then .error (.invalidInput (.gridStep step))
  else if !isFinite start || !isFinite stop then
    .error (.invalidInput (.gridBounds start stop))
  else .ok (ceilNat ((stop - start) / step))

/-- The first `count` points of the grid with the given start and step. -/
@[specialize] def points (start step : α) (count : Nat) : List α :=
  (List.range count).map fun i => start + ofNat i * step

/-- The points of the grid from `start` up to, but not including, `stop`. -/
@[specialize] def between (start stop step : α) : Except (Fault α) (List α) :=
  (size start stop step).map (points start step)

end Grid

end GyroDelay
