import GyroDelay.Correlation.Peak

/-!
# Settings of an estimation
-/

namespace GyroDelay

/-- How an estimation is carried out. -/
structure Settings (α : Type) where
  /-- The largest allowed working interval, in seconds. -/
  accuracy : α
  /-- Whether both tracks are moved onto a uniform grid first. -/
  resample : Bool
  /-- What happens when the peak segment has no real stationary point. -/
  rootPolicy : RootPolicy
  /-- The largest allowed number of rows of a grid. -/
  gridLimit : UInt64
deriving Repr, BEq, DecidableEq

/-- A millisecond of accuracy on a grid of at most four million rows. -/
def Settings.default {α : Type} [Scalar α] : Settings α :=
  { accuracy := Scalar.ofNat 1 / Scalar.ofNat 1000
    resample := true
    rootPolicy := .realPart
    gridLimit := 4000000 }

/-- Whether an accuracy is positive and finite. -/
def isAccuracy {α : Type} [Scalar α] (accuracy : α) : Bool :=
  Scalar.isFinite accuracy && !decide (accuracy ≤ Scalar.zero)

end GyroDelay
