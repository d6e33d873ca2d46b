import GyroDelay.Fault
import GyroDelay.Linear

/-!
# Calibration of two sensors

Rows of two streams that belong to the same instant, and the matrix that maps the rows of
the first stream onto those of the second with least squared error.
-/

namespace GyroDelay.Calibration

variable {α : Type} [Scalar α]

open Scalar

/-- The fewest rows that determine a calibration. -/
def leastRows : Nat := 3

/-- The rows that face each other at a lag: row `m` of the first and row `m + lag` of the
second list, for all `m` with both in range. -/
def overlap (first second : List (Vec3 α)) (lag : Int) :
    Except (Fault α) (List (Vec3 α) × List (Vec3 α)) :=
  let offset := lag.natAbs
  let first := if 0 ≤ lag then first else first.drop offset
  let second := if 0 ≤ lag then second.drop offset else second
  let rows := min first.length second.length
  if rows < leastRows then .error (.insufficientOverlap rows)
  else .ok (first.take rows, second.take rows)

/-- The sum of all products of a coordinate of a row of `xs` with one of `ys`. -/
@[specialize] def crossMatrix (xs ys : List (Vec3 α)) : Mat3 α :=
  (List.zipWith Mat3.outer xs ys).foldl Mat3.add Mat3.zero

/-- The least-squares solution from the matrices of the normal equations. A determinant
that is tiny in proportion to the mean diagonal entry cubed counts as zero. -/
def solveNormal (normal cross : Mat3 α) : Except (Fault α) (Mat3 α) :=
  let determinant := normal.det
  let mean := normal.trace / ofNat 3
  let scale := mean * mean * mean
  if !isFinite determinant
      || decide (abs determinant ≤ ofNat 1 / ofNat 1000000000000 * abs scale) then
    .error (.singularSystem determinant)
  else match normal.inverse? with
    | none => .error (.singularSystem determinant)
    | some inverse => .ok (inverse.mul cross).transpose

/-- The matrix that maps the rows of `first` onto those of `second` with least squared
error. -/
@[specialize] def solve (first second : List (Vec3 α)) : Except (Fault α) (Mat3 α) :=
  if first.length ≠ second.length then
    .error (.invalidInput (.rowCount first.length second.length))
  else if first.length < leastRows then .error (.insufficientOverlap first.length)
  else solveNormal (crossMatrix first first) (crossMatrix first second)

/-- Maps every row through a calibration. -/
@[specialize] def apply (m : Mat3 α) (rows : List (Vec3 α)) : List (Vec3 α) := rows.map m.apply

end GyroDelay.Calibration
