import GyroDelay.Spline.Segment
import GyroDelay.Spline.Tridiagonal
import GyroDelay.Timeline

/-!
# Natural cubic splines

The natural spline through given points is cubic between neighbouring knots, has
continuous first and second derivatives, and no curvature at its two ends. Outside its
knots it goes on as a straight line.
-/

namespace GyroDelay.Spline

/-- One piece of a spline: its left knot and its cubic in the distance from that knot. -/
structure Piece (α : Type) where
  /-- The left knot. -/
  start : α
  /-- The cubic on the piece. -/
  cubic : Segment α
deriving Repr

/-- A spline: its pieces from left to right and its right end. -/
structure Natural (α : Type) where
  /-- The pieces, one between each two neighbouring knots. -/
  pieces : Array (Piece α)
  /-- The last knot. -/
  lastKnot : α
  /-- The value at the last knot. -/
  lastValue : α
  /-- The slope at the last knot. -/
  lastSlope : α
deriving Repr

variable {α : Type} [Scalar α]

open Scalar

/-- The equations for the second derivatives at the inner knots, from the widths of the
pieces and the slopes of the chords over them. -/
@[specialize] def curvatureSystem (widths chords : List α) : List (Equation α) :=
  List.zipWith (fun (h₀, h₁) (s₀, s₁) =>
      { sub := h₀, diag := ofNat 2 * (h₀ + h₁), sup := h₁, rhs := ofNat 6 * (s₁ - s₀) })
    (widths.zip widths.tail) (chords.zip chords.tail)

/-- The second derivatives at all knots; those at the ends are zero. -/
@[specialize] def curvatures (widths chords : List α) : List α :=
  zero :: solveTridiagonal (curvatureSystem widths chords) ++ [zero]

/-- The cubic over a piece of width `h` with the chord slope `chord`, the left value `y`
and the second derivatives `m₀` and `m₁` at its ends. -/
@[specialize] def pieceCubic (h chord y m₀ m₁ : α) : Segment α :=
  { d := (m₁ - m₀) / (ofNat 6 * h)
    c := m₀ / ofNat 2
    b := chord - h * (ofNat 2 * m₀ + m₁) / ofNat 6
    a := y }

/-- The slope of a cubic at the end of a piece of width `h`. -/
def endSlope (s : Segment α) (h : α) : α :=
  s.b + ofNat 2 * s.c * h + ofNat 3 * s.d * h * h

/-- The index of the first knot that is not after the one before it. -/
@[specialize] def disorder? (knots : List α) : Option Nat :=
  ((List.zipWith (fun a b => decide (a < b)) knots knots.tail).findIdx? (! ·)).map (· + 1)

/-- The natural spline through strictly increasing knots, without checks. -/
@[specialize] def Natural.through (knots values : List α) : Natural α :=
  let widths := differences knots
  let chords := List.zipWith (· / ·) (differences values) widths
  let bends := curvatures widths chords
  let cubics := List.zipWith (fun (h, chord) (y, m₀, m₁) => pieceCubic h chord y m₀ m₁)
    (widths.zip chords) (values.zip (bends.zip bends.tail))
  { pieces := (List.zipWith Piece.mk knots cubics).toArray
    lastKnot := knots.getLastD zero
    lastValue := values.getLastD zero
    lastSlope := endSlope (cubics.getLastD ⟨zero, zero, zero, zero⟩) (widths.getLastD zero) }

/-- The natural spline through `(knots[i], values[i])`. The knots must be strictly
increasing, as many as the values, and at least two. -/
@[specialize] def Natural.fit (knots values : List α) : Except (Fault α) (Natural α) :=
  if knots.length ≠ values.length then
    .error (.invalidInput (.knotCount knots.length values.length))
  else if knots.length < 2 then .error (.invalidInput (.fewKnots knots.length))
  else match disorder? knots with
    | some i => .error (.invalidInput (.knotOrder i))
    | none => .ok (Natural.through knots values)

namespace Natural

/-- How many of the pieces from `low` up to `high` start at or before `x`, counted from
the left end, by bisection. -/
@[specialize] def startsUpTo (pieces : Array (Piece α)) (x : α) (low high : Nat) : Nat :=
  if low < high then
    let mid := (low + high) / 2
    match pieces[mid]? with
    | none => low
    | some p =>
      if p.start ≤ x then startsUpTo pieces x (mid + 1) high else startsUpTo pieces x low mid
  else low
termination_by high - low

/-- The piece that an argument falls into; the first one for arguments on its left. -/
@[specialize] def pieceAt (s : Natural α) (x : α) : Piece α :=
  s.pieces.getD (startsUpTo s.pieces x 0 s.pieces.size - 1)
    ⟨s.lastKnot, ⟨zero, zero, s.lastSlope, s.lastValue⟩⟩

/-- The value at any argument. -/
@[specialize] def eval (s : Natural α) (x : α) : α :=
  let first := s.pieces.getD 0 ⟨s.lastKnot, ⟨zero, zero, s.lastSlope, s.lastValue⟩⟩
  if x < first.start then first.cubic.a + first.cubic.b * (x - first.start)
  else if s.lastKnot < x then s.lastValue + s.lastSlope * (x - s.lastKnot)
  else
    let p := s.pieceAt x
    p.cubic.eval (x - p.start)

/-- How many knots the spline has. -/
def size (s : Natural α) : Nat := s.pieces.size + 1

/-- The knots from left to right. -/
@[specialize] def knots (s : Natural α) : List α := s.pieces.toList.map (·.start) ++ [s.lastKnot]

/-- The values at the knots. -/
@[specialize] def values (s : Natural α) : List α :=
  s.pieces.toList.map (·.cubic.a) ++ [s.lastValue]

/-- The slopes at the knots. -/
@[specialize] def slopes (s : Natural α) : List α :=
  s.pieces.toList.map (·.cubic.b) ++ [s.lastSlope]

/-- The slopes at the knots, with both ends pinned to zero. -/
@[specialize] def pinnedSlopes (s : Natural α) : List α :=
  zero :: (s.slopes.drop 1).dropLast ++ [zero]

/-- The distance of the first two knots. -/
@[specialize] def spacing (s : Natural α) : α := (differences s.knots).headD zero

/-- The cubics that take the values of the spline and its pinned slopes at the knots, for
knots that are uniformly spaced. -/
@[specialize] def segments (s : Natural α) : List (Segment α) :=
  let dx := s.spacing
  let a := s.values
  let b := s.pinnedSlopes
  List.zipWith (fun (a₀, a₁) (b₀, b₁) => Segment.hermite dx a₀ a₁ b₀ b₁)
    (a.zip a.tail) (b.zip b.tail)

end Natural

/-- The values at `targets` of the natural spline through the given points. -/
@[specialize] def interpolate (knots values targets : List α) : Except (Fault α) (List α) :=
  (Natural.fit knots values).map fun s => targets.map s.eval

end GyroDelay.Spline
