import GyroDelay.Fault
import GyroDelay.Scalar

/-!
# The offset of two clocks
-/

namespace GyroDelay

variable {α : Type} [Scalar α]

open Scalar

/-- How far the second clock is ahead of the first one: the mean difference of
timestamps at equal places, plus the delay between the starts of the streams. -/
@[specialize] def clockOffset (first second : List α) (delay : α) : Except (Fault α) α :=
  let gaps := List.zipWith (fun a b => b - a) first second
  if gaps.isEmpty then .error (.invalidInput .noTimestamps)
  else if !isFinite delay then .error (.invalidInput .delay)
  else .ok (signedSum gaps / ofNat gaps.length + delay)

end GyroDelay
