import GyroDelay.Scalar

/-!
# Cubic segments
-/

namespace GyroDelay.Spline

/-- The cubic `d * t ^ 3 + c * t ^ 2 + b * t + a` of one segment, in the distance `t` from
its left knot. -/
structure Segment (α : Type) where
  d : α
  c : α
  b : α
  a : α
deriving Repr, DecidableEq, BEq, Inhabited

namespace Segment

variable {α : Type} [Scalar α]

open Scalar

/-- The degree of the polynomial. -/
def order : Nat := 3

/-- The coefficients from the highest power to the constant. -/
def coefficients (s : Segment α) : List α := [s.d, s.c, s.b, s.a]

/-- The value at a distance from the left knot. -/
@[specialize] def eval (s : Segment α) (t : α) : α := ((s.d * t + s.c) * t + s.b) * t + s.a

/-- The slope at a distance from the left knot. -/
def slope (s : Segment α) (t : α) : α := (ofNat 3 * s.d * t + ofNat 2 * s.c) * t + s.b

/-- The cubic over an interval of length `dx` with the given values and slopes at its
ends. -/
@[specialize] def hermite (dx a₀ a₁ b₀ b₁ : α) : Segment α :=
  let c := -(ofNat 2 * b₀ + b₁) / dx + ofNat 3 * (a₁ - a₀) / (dx * dx)
  let d := -(ofNat 2) * c / (ofNat 3 * dx) + (b₁ - b₀) / (ofNat 3 * dx * dx)
  ⟨d, c, b₀, a₀⟩

end Segment

end GyroDelay.Spline
