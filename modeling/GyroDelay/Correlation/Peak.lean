import GyroDelay.Correlation.Curve
import GyroDelay.Quadratic
import GyroDelay.Spline.Natural

/-!
# The peak between two samples

A spline through the correlation curve places its maximum between two indices. A negative
slope at the highest entry puts the maximum into the segment before it.
-/

namespace GyroDelay

/-- What happens when the slope of the peak segment has no real root. -/
inductive RootPolicy where
  /-- The real part of both roots is kept. -/
  | realPart
  /-- The estimation fails. -/
  | reject
deriving Repr, DecidableEq, Inhabited

namespace RootPolicy

/-- The name of a policy in configurations. -/
def name : RootPolicy → String
  | realPart => "real_part"
  | reject => "reject"

/-- The policy of a name. -/
def ofName? (s : String) : Option RootPolicy := [realPart, reject].find? fun p => p.name == s

/-- The name of a policy in reports. -/
def title : RootPolicy → String
  | realPart => "RealPart"
  | reject => "Reject"

end RootPolicy

variable {α : Type} [Scalar α]

open Scalar Spline

namespace Spline.Segment

/-- Real candidates for the two stationary points, from the roots of the slope. -/
def realRoots (policy : RootPolicy) (roots : Rect α × Rect α) : Except (Fault α) (α × α) :=
  let imaginary := greater (abs roots.1.im) (abs roots.2.im)
  if imaginary == zero then .ok (roots.1.re, roots.2.re)
  else match policy with
    | .realPart => .ok (roots.1.re, roots.2.re)
    | .reject => .error (.complexRoots roots.1.re imaginary)

/-- The slope at a place, summed from the highest power. -/
def slopeSum (s : Segment α) (t : α) : α :=
  zero + ofNat 3 * s.d * (t * t) + ofNat 2 * s.c * t + ofNat 1 * s.b

/-- The stationary point that is the maximum: the smaller one if the cubic falls between
both, otherwise the larger one. -/
def maximum (s : Segment α) (policy : RootPolicy) : Except (Fault α) α := do
  let roots ← Quadratic.roots (ofNat 3 * s.d) (ofNat 2 * s.c) s.b
  let (r₀, r₁) ← realRoots policy roots
  let middle := (r₀ + r₁) / ofNat 2
  return if s.slopeSum middle < zero then lesser r₀ r₁ else greater r₀ r₁

end Spline.Segment

namespace Correlation

/-- Where the maximum of a correlation curve lies. -/
structure Peak (α : Type) where
  /-- The index of the segment that holds the maximum. -/
  index : Nat
  /-- Whether that is the segment before the highest entry. -/
  corrected : Bool
  /-- The place of the maximum inside the segment, in samples. -/
  offset : α
deriving Repr, BEq

/-- The cubics over the unit intervals of a correlation curve. -/
@[specialize] def Curve.segments (c : Curve α) : Except (Fault α) (List (Segment α)) := do
  let knots ← Grid.between zero (ofNat c.values.length) (ofNat 1)
  let spline ← Natural.fit knots c.values
  return spline.segments

/-- The maximum near the highest entry of a curve, from the segments of the curve. -/
def refine (segments : Array (Segment α)) (peak : Nat) (policy : RootPolicy) :
    Except (Fault α) (Peak α) :=
  match segments[peak]? with
  | none => .error (.peakAtBoundary peak (segments.size + 1))
  | some segment =>
    if segment.b < zero then
      match peak with
      | 0 => .error (.peakAtBoundary (-1) (segments.size + 1))
      | before + 1 =>
        ((segments.getD before segment).maximum policy).map (⟨before, true, ·⟩)
    else (segment.maximum policy).map (⟨peak, false, ·⟩)

end Correlation

end GyroDelay
