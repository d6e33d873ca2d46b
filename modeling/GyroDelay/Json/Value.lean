import GyroDelay.Bits
import GyroDelay.Decimal.Reading

/-!
# JSON values

Numbers keep the digits that were written, because the same literal is read as an integer
or as a double depending on what is expected in its place. A string that holds half of a
surrogate pair is a JSON string but not a text.
-/

namespace GyroDelay

/-- A number as it was written. -/
structure Numeral where
  /-- Whether a minus sign was written. -/
  negative : Bool
  /-- The digits before the point. -/
  whole : List Char
  /-- The digits after the point, empty if there is no point. -/
  fraction : List Char
  /-- The exponent, if there is one. -/
  exponent : Option Int
deriving Repr, DecidableEq

/-- A JSON value. -/
inductive Json where
  | null
  | bool (value : Bool)
  | number (value : Numeral)
  /-- A string; `none` if it is not a text. -/
  | string (value : Option String)
  | array (items : List Json)
  /-- The members in the order in which they were written. -/
  | object (members : List (Option String × Json))
deriving Repr

namespace Numeral

/-- The numeral of a natural number. -/
def ofNat (n : Nat) : Numeral := ⟨false, (toString n).toList, [], none⟩

/-- Whether a numeral has neither a point nor an exponent. -/
def isInteger (n : Numeral) : Bool := n.fraction.isEmpty && n.exponent.isNone

/-- All digits of a numeral as one number. -/
def digits (n : Numeral) : Nat := Decimal.ofDigits (n.whole ++ n.fraction)

/-- The double nearest to a numeral. -/
def nearest (n : Numeral) : Float :=
  Decimal.nearest n.negative n.digits (n.exponent.getD 0 - n.fraction.length)

/-- The integer that a numeral writes within 64 bits, signed or unsigned. Negative zero is
no integer. -/
def toInt? (n : Numeral) : Option Int :=
  if !n.isInteger then none
  else
    let m := n.digits
    if n.negative then if m ≠ 0 ∧ isSigned 64 (-(m : Int)) then some (-(m : Int)) else none
    else if isUnsigned 64 m then some m else none

/-- Appends digits to a number for as long as it fits into 64 bits, and counts those that
were appended. -/
def appendDigits (taken value : Nat) : List Char → Nat × Nat
  | [] => (value, taken)
  | c :: cs =>
    let next := 10 * value + Decimal.digitValue c
    if next < wordCount 64 then appendDigits (taken + 1) next cs else (value, taken)

/-- The double `10 ^ n` for `n ≤ 308`. -/
def powerOfTen (n : Nat) : Float := Float.ofScientific 1 false n

/-- A double times a power of ten, by one multiplication or division with the nearest
double to that power, or by several if the power has no double. `none` if the result is
too large. -/
def scale : (fuel : Nat) → Float → Int → Option Float
  | 0, _, _ => none
  | fuel + 1, x, e =>
    if e.natAbs ≤ 308 then
      if 0 ≤ e then
        let y := x * powerOfTen e.natAbs
        if y.isInf then none else some y
      else some (x / powerOfTen e.natAbs)
    else if x == 0 then some x
    else if 0 ≤ e then none
    else scale fuel (x / powerOfTen 308) (e + 308)

/-- The double of a numeral from its leading digits that fit into 64 bits and one power of
ten. It can differ from the nearest double in the last bit. `none` if it is too large. -/
def leading (n : Numeral) : Option Float :=
  let (whole, wholeTaken) := appendDigits 0 0 n.whole
  let (value, fractionTaken) := appendDigits 0 whole n.fraction
  let point : Int := ((n.whole.length - wholeTaken : Nat) : Int) - fractionTaken
  let exponent := n.exponent.getD 0
  let magnitude :=
    if exponent.natAbs < wordCount 31 then scale 8 (Float.ofNat value) (point + exponent)
    else if value ≠ 0 ∧ 0 < exponent then none
    else some 0
  magnitude.map fun x => if n.negative then -x else x

end Numeral

end GyroDelay
