import GyroDelay.Bits

/-!
# The fewest decimal digits that read back

A positive double is `m · 2 ^ q` with natural `m`. The reals that round to it form an
interval around it. Among the decimals with the fewest digits inside that interval, the
one nearest to the double is its shortest text.

Digits are found in exact natural arithmetic: for 1, 2, … 17 digits the two neighbours
of the value on that decimal grid are tried, and the first grid with a hit decides.
-/

namespace GyroDelay.Decimal

/-- A positive decimal `coefficient · 10 ^ exponent`. -/
structure Digits where
  /-- The digits, read as one number. -/
  coefficient : Nat
  /-- The power of ten that the last digit counts. -/
  exponent : Int
deriving Repr, DecidableEq

/-- What an exact tie between two equally short decimals becomes. -/
inductive Tie where
  /-- The larger one. -/
  | up
  /-- The one with an even last digit. -/
  | even
deriving Repr, DecidableEq

/-- How many decimal digits a natural number has; zero has one. -/
def digitCount (n : Nat) : Nat := (Nat.toDigits 10 n).length

/-- The digit count before the point of `num / den`, counted downwards below one: the
`k` with `10 ^ (k - 1) ≤ num / den < 10 ^ k`. -/
def magnitude (num den : Nat) : Int :=
  if den ≤ num then digitCount (num / den)
  else
    let l := digitCount (den / num)
    if den ≤ num * Nat.pow 10 (l - 1) then 2 - (l : Int) else 1 - (l : Int)

/-- A positive double taken apart: `m · 2 ^ q`, and whether its lower neighbour is at
half the distance of its upper one. -/
structure Binary where
  /-- The integer significand. -/
  m : Nat
  /-- The power of two that it counts. -/
  q : Int
  /-- Whether the neighbour below is nearer than the one above. -/
  narrow : Bool
deriving Repr, DecidableEq

/-- The parts of the magnitude of a finite double. -/
def Binary.ofFloat (x : Float) : Binary :=
  let bits : Nat := x.toBits.toNat % wordCount 63
  let field : Nat := bits / wordCount 52
  let fraction : Nat := bits % wordCount 52
  if field = 0 then ⟨fraction, -1074, false⟩
  else ⟨wordCount 52 + fraction, (field : Int) - 1075, fraction = 0 && 1 < field⟩

/-- `m · 2 ^ q` as a fraction of natural numbers. -/
def Binary.fraction (m : Nat) (q : Int) : Nat × Nat :=
  (m * Nat.pow 2 q.toNat, Nat.pow 2 (-q).toNat)

/-- The numerators of the ends of the rounding interval and of the value itself, over
one denominator. -/
structure Interval where
  /-- Numerator of the lower end. -/
  low : Nat
  /-- Numerator of the value. -/
  mid : Nat
  /-- Numerator of the upper end. -/
  high : Nat
  /-- The common denominator. -/
  den : Nat
  /-- Whether the ends belong to the interval. -/
  closed : Bool

/-- The reals that round to a double: up to half the distance to its neighbours, the
ends included when the significand is even. -/
def Binary.interval (b : Binary) : Interval :=
  let (scale, den) := Binary.fraction 1 (b.q - 2)
  { low := (4 * b.m - if b.narrow then 1 else 2) * scale
    mid := 4 * b.m * scale
    high := (4 * b.m + 2) * scale
    den := den
    closed := b.m % 2 = 0 }

/-- Whether `num / den` lies in the interval. -/
def Interval.holds (i : Interval) (num den : Nat) : Bool :=
  if i.closed then i.low * den ≤ num * i.den && num * i.den ≤ i.high * den
  else i.low * den < num * i.den && num * i.den < i.high * den

/-- The decimal on the grid of step `10 ^ e` that lies in the interval nearest to its
value, if one of the two neighbours does. -/
def Interval.onGrid (i : Interval) (tie : Tie) (e : Int) : Option Nat :=
  let (num, den) := (Nat.pow 10 e.toNat, Nat.pow 10 (-e).toNat)
  let floor := i.mid * den / (i.den * num)
  let below := 0 < floor && i.holds (floor * num) den
  let above := i.holds ((floor + 1) * num) den
  let rest := 2 * (i.mid * den % (i.den * num))
  let step := i.den * num
  match below, above with
  | false, false => none
  | true, false => some floor
  | false, true => some (floor + 1)
  | true, true =>
    if rest < step then some floor
    else if step < rest then some (floor + 1)
    else match tie with
      | .up => some (floor + 1)
      | .even => some (floor + floor % 2)

/-- Tries grids from coarse to fine, beginning at `e`. -/
def Interval.firstGrid (i : Interval) (tie : Tie) (e : Int) : Nat → Digits
  | 0 => ⟨0, 0⟩
  | fuel + 1 =>
    match i.onGrid tie e with
    | some c => ⟨c, e⟩
    | none => i.firstGrid tie (e - 1) fuel

/-- A coefficient without trailing zeros. -/
def Digits.trim (d : Digits) : Nat → Digits
  | 0 => d
  | fuel + 1 =>
    if d.coefficient ≠ 0 ∧ d.coefficient % 10 = 0 then
      Digits.trim ⟨d.coefficient / 10, d.exponent + 1⟩ fuel
    else d

/-- The shortest decimal that rounds to the double. -/
def Binary.shortest (b : Binary) (tie : Tie) : Digits :=
  let i := b.interval
  (i.firstGrid tie (magnitude i.mid i.den) 20).trim 20

end GyroDelay.Decimal
