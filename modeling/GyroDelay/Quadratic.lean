import GyroDelay.Fault
import GyroDelay.Linear

/-!
# Roots of quadratics

Both roots of `c₂ * x ^ 2 + c₁ * x + c₀`, in a form without cancellation: the root with
the larger magnitude is computed directly and the other one from the product of both.
-/

namespace GyroDelay.Quadratic

variable {α : Type} [Scalar α]

open Scalar

/-- The real number `x` as a complex one. -/
def real (x : α) : Rect α := ⟨x, zero⟩

/-- Both roots of a quadratic whose leading coefficient is not zero. -/
def properRoots (c₂ c₁ c₀ : α) : Rect α × Rect α :=
  let discriminant := c₁ * c₁ - ofNat 4 * c₂ * c₀
  if zero ≤ discriminant then
    let q := -(ofNat 1 / ofNat 2) * (c₁ + sign c₁ * sqrt discriminant)
    if q == zero then (real zero, real zero) else (real (q / c₂), real (c₀ / q))
  else
    let re := -c₁ / (ofNat 2 * c₂)
    let im := sqrt (-discriminant) / (ofNat 2 * abs c₂)
    (⟨re, im⟩, ⟨re, -im⟩)

/-- Both roots; the root of a linear equation counts twice. -/
def roots (c₂ c₁ c₀ : α) : Except (Fault α) (Rect α × Rect α) :=
  if c₂ == zero then
    if c₁ == zero then .error .degenerateQuadratic
    else .ok (real (-c₀ / c₁), real (-c₀ / c₁))
  else .ok (properRoots c₂ c₁ c₀)

end GyroDelay.Quadratic
