import GyroDelay.Decimal.Layout
import GyroDelay.Scalar

/-!
# Running statistics

Count, extremes, mean and variance of values that arrive one by one, without keeping them.
-/

namespace GyroDelay

/-- The statistics of the values so far. -/
structure Running (α : Type) where
  /-- How many values there were. -/
  count : Nat
  /-- Their mean, zero if there were none. -/
  mean : α
  /-- The sum of their squared distances from the mean. -/
  spread : α
  /-- The least value, zero if there were none. -/
  least : α
  /-- The greatest value, zero if there were none. -/
  greatest : α
deriving Repr, BEq

variable {α : Type} [Scalar α]

open Scalar

namespace Running

/-- No values. -/
def empty : Running α := ⟨0, zero, zero, zero, zero⟩

/-- One more value. The mean moves by its share of the distance, and the spread grows by
the product of the distances from the old and the new mean. -/
def push (s : Running α) (x : α) : Running α :=
  if s.count = 0 then ⟨1, x, zero, x, x⟩
  else
    let count := s.count + 1
    let distance := x - s.mean
    let mean := s.mean + distance / ofNat count
    { count := count
      mean := mean
      spread := s.spread + distance * (x - mean)
      least := lesser s.least x
      greatest := greater s.greatest x }

/-- The statistics of a list. -/
def ofList (xs : List α) : Running α := xs.foldl push empty

/-- The unbiased variance, zero for fewer than two values. -/
def variance (s : Running α) : α :=
  if s.count < 2 then zero else s.spread / ofNat (s.count - 1)

/-- The standard deviation. -/
def deviation (s : Running α) : α := sqrt s.variance

end Running

/-- What is reported of running statistics. -/
structure Summary (α : Type) where
  count : Nat
  least : α
  greatest : α
  mean : α
  deviation : α
deriving Repr, BEq

/-- The summary of running statistics. -/
def Running.summary (s : Running α) : Summary α :=
  ⟨s.count, s.least, s.greatest, s.mean, s.deviation⟩

/-- A summary with three decimal places, or that there is nothing to report. The numbers are
written by a function of the places and the number. -/
def Summary.renderWith (fixed : Nat → α → String) (s : Summary α) : String :=
  if s.count = 0 then "N/A"
  else
    let least := fixed 3 s.least
    let greatest := fixed 3 s.greatest
    let mean := fixed 3 s.mean
    let deviation := fixed 3 s.deviation
    let count := s.count
    s!"min={least}, max={greatest}, mean={mean}, std={deviation} (n={count})"

/-- The text of a summary of doubles. -/
def Summary.render (s : Summary Float) : String := s.renderWith Decimal.fixed

end GyroDelay
