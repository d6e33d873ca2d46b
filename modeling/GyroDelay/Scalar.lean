/-!
# Numbers of the estimation

The estimation is written once, over any type with the operations of `Scalar`.
Programs run it on IEEE doubles through the instance below. Statements in exact
arithmetic read the same definitions over a field with an exact square root.

Every operation is used in the order in which the formulas are written, so the
instance on doubles fixes each result to the last bit.
-/

namespace GyroDelay

/-- The operations that the estimation performs on its numbers. Comparisons may be
false both ways, as they are for a value that is not a number. -/
class Scalar (α : Type) extends Add α, Sub α, Mul α, Div α, Neg α, LT α, LE α, BEq α where
  /-- The number nearest to a natural number. -/
  ofNat : Nat → α
  /-- The number nearest to an integer. -/
  ofInt : Int → α
  /-- Whether a number is neither infinite nor undefined. -/
  isFinite : α → Bool
  /-- The magnitude. -/
  abs : α → α
  /-- The square root. -/
  sqrt : α → α
  /-- One with the sign of the argument, where zero counts as positive. -/
  sign : α → α
  /-- The smaller of two numbers, the other one if one is undefined, the second one if they are
  equal. -/
  lesser : α → α → α
  /-- The larger of two numbers, the other one if one is undefined, the second one if they are
  equal. -/
  greater : α → α → α
  /-- The least natural number that is not below the argument, within 64 bits. -/
  ceilNat : α → Nat
  /-- The nearest integer, halves away from zero, within 64 signed bits. -/
  roundInt : α → Int
  /-- Whether a number is above minus infinity, if there is one. -/
  isAboveLeast : α → Bool
  /-- The cosine and the sine of the angle that is `k` of `n` parts of a full turn. -/
  turn : (k n : Nat) → α × α
  /-- Strict order is decidable. -/
  decLt : DecidableLT α
  /-- Order is decidable. -/
  decLe : DecidableLE α

namespace Scalar

variable {α : Type} [Scalar α]

instance : DecidableLT α := decLt

instance : DecidableLE α := decLe

/-- The number zero. -/
@[inline] def zero : α := ofNat 0

/-- Sums a list from the left, starting at zero. -/
@[specialize] def sum (xs : List α) : α := xs.foldl (· + ·) zero

/-- Sums a list from the left, starting at minus zero. No number changes when minus zero is
added to it, so a list of minus zeros has the sum minus zero. -/
@[specialize] def signedSum (xs : List α) : α := xs.foldl (· + ·) (-zero)

end Scalar

/-- The least word of 64 bits that is not below a double, from the one that the double is cut
off to. -/
def ceilWord (x : Float) : Nat :=
  let floor := x.toUInt64.toNat
  if Float.ofNat floor < x then min (floor + 1) 18446744073709551615 else floor

/-- The cosine and the sine of the angle that is `k` of `n` parts of a full turn. Every eighth of
a turn lies on an axis or on a diagonal. -/
def turnFloat (k n : Nat) : Float × Float :=
  let diagonal : Float := (0.5 : Float).sqrt
  if 8 * k % n = 0 then
    match 8 * k / n % 8 with
    | 0 => (1, 0)
    | 1 => (diagonal, diagonal)
    | 2 => (0, 1)
    | 3 => (-diagonal, diagonal)
    | 4 => (-1, 0)
    | 5 => (-diagonal, -diagonal)
    | 6 => (0, -1)
    | _ => (diagonal, -diagonal)
  else
    let angle := 6.283185307179586 * Float.ofNat k / Float.ofNat n
    (angle.cos, angle.sin)

/-- Doubles. A comparison with a value that is not a number is false, the minimum and
the maximum leave such a value out, and the sign of negative zero is negative. Zeros are equal
whatever their signs, so the minimum of two zeros is the second one. -/
instance : Scalar Float where
  ofNat n := Float.ofNat n
  ofInt i := Float.ofInt i
  isFinite x := x.isFinite
  abs x := x.abs
  sqrt x := x.sqrt
  sign x := if x.isNaN then x else if x.toBits >>> 63 == 1 then -1 else 1
  lesser a b := if b.isNaN || a < b then a else b
  greater a b := if b.isNaN || b < a then a else b
  ceilNat := ceilWord
  roundInt x := x.round.toInt64.toInt
  isAboveLeast x := -1 / 0 < x
  turn := turnFloat
  decLt := inferInstance
  decLe := inferInstance

end GyroDelay
