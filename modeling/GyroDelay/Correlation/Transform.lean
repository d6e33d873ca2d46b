import GyroDelay.Linear

/-!
# The discrete Fourier transform

The transform of a sequence whose length is a power of two, by recursion on the entries
at even and at odd places. The roots of unity are computed once, for the full length, and
thinned out at each level.
-/

namespace GyroDelay

variable {α : Type} [Scalar α]

open Scalar

namespace Rect

/-- The sum of two complex numbers. -/
@[specialize] def add (u v : Rect α) : Rect α := ⟨u.re + v.re, u.im + v.im⟩

/-- The difference of two complex numbers. -/
@[specialize] def sub (u v : Rect α) : Rect α := ⟨u.re - v.re, u.im - v.im⟩

/-- The product of two complex numbers. -/
@[specialize] def mul (u v : Rect α) : Rect α :=
  ⟨u.re * v.re - u.im * v.im, u.re * v.im + u.im * v.re⟩

/-- The complex conjugate. -/
@[specialize] def conj (u : Rect α) : Rect α := ⟨u.re, -u.im⟩

/-- The complex number zero. -/
def zero : Rect α := ⟨Scalar.zero, Scalar.zero⟩

end Rect

namespace Transform

/-- The roots of unity for length `n`, clockwise, up to half a turn. -/
@[specialize] def clockwiseRoots (n : Nat) : Array (Rect α) :=
  (Array.range (n / 2)).map fun k =>
    let (c, s) := turn k n
    ⟨c, -s⟩

/-- The transform of the `2 ^ level` entries of `x` at `offset`, `offset + stride`, …;
`roots` are the roots of unity for `2 ^ level * stride` entries. -/
@[specialize] def level (roots x : Array (Rect α)) : (level offset stride : Nat) → Array (Rect α)
  | 0, offset, _ => #[x.getD offset Rect.zero]
  | k + 1, offset, stride =>
    let even := level roots x k offset (2 * stride)
    let odd := level roots x k (offset + stride) (2 * stride)
    let turned := odd.mapIdx fun j v => (roots.getD (j * stride) Rect.zero).mul v
    Array.zipWith Rect.add even turned ++ Array.zipWith Rect.sub even turned

/-- The transform of `2 ^ k` entries: entry `j` is the sum of all `x m` times the clockwise
root of unity to the power of `j * m`. -/
@[specialize] def forward (k : Nat) (x : Array (Rect α)) : Array (Rect α) :=
  level (clockwiseRoots (Nat.pow 2 k)) x k 0 1

/-- The same with counterclockwise roots: the inverse of `forward`, times the length. -/
@[specialize] def backward (k : Nat) (x : Array (Rect α)) : Array (Rect α) :=
  level ((clockwiseRoots (Nat.pow 2 k)).map Rect.conj) x k 0 1

end Transform

end GyroDelay
