import GyroDelay.Decimal.Shortest

/-!
# Decimal text of doubles

A `Layout` says how shortest digits are laid out: where positional notation ends, how an
exponent is written, and what whole numbers, infinities and undefined values read as.
Fixed places round the exact binary value, a half to the even neighbour.
-/

namespace GyroDelay.Decimal

/-- The decisions of one text format for doubles. -/
structure Layout where
  /-- Positional notation is used from `10 ^ low` on; `none` for all small numbers. -/
  low : Option Int
  /-- Positional notation is used below `10 ^ high`; `none` for all large numbers. -/
  high : Option Int
  /-- What follows the digits of a whole number in positional notation. -/
  whole : String
  /-- What stands before a non-negative exponent. -/
  plus : String
  /-- The text of zero, without its sign. -/
  zero : String
  /-- The text of a value that is not a number. -/
  nan : String
  /-- Which way an exact tie between shortest decimals goes. -/
  tie : Tie

/-- Positional digits, never an exponent, whole numbers without a point. -/
def Layout.plain : Layout :=
  { low := none, high := none, whole := "", plus := "", zero := "0", nan := "NaN", tie := .up }

/-- One digit before the point and always an exponent, without a plus sign. -/
def Layout.scientific : Layout :=
  { low := some 400, high := some (-400), whole := "", plus := "", zero := "0e0"
    nan := "NaN", tie := .up }

/-- The digits of `n`, left-padded with zeros to at least `width`. -/
def padded (width n : Nat) : String :=
  let s := toString n
  "".pushn '0' (width - s.length) ++ s

/-- Positional text of `coefficient · 10 ^ exponent`. -/
def Digits.positional (whole : String) (d : Digits) : String :=
  if 0 ≤ d.exponent then toString (d.coefficient * Nat.pow 10 d.exponent.toNat) ++ whole
  else
    let unit := Nat.pow 10 (-d.exponent).toNat
    toString (d.coefficient / unit) ++ "." ++
      padded (-d.exponent).toNat (d.coefficient % unit)

/-- Text with one digit before the point and an exponent. -/
def Digits.exponential (plus : String) (d : Digits) : String :=
  let n := digitCount d.coefficient
  let unit := Nat.pow 10 (n - 1)
  let lead := toString (d.coefficient / unit)
  let tail := if n = 1 then "" else "." ++ padded (n - 1) (d.coefficient % unit)
  let e := d.exponent + (n - 1 : Nat)
  lead ++ tail ++ "e" ++ (if 0 ≤ e then plus else "") ++ toString e

/-- The text of shortest digits in a layout. -/
def Layout.digits (l : Layout) (d : Digits) : String :=
  let top := d.exponent + (digitCount d.coefficient : Nat) - 1
  let small := match l.low with
    | none => true
    | some low => low ≤ top
  let large := match l.high with
    | none => true
    | some high => top < high
  if small && large then d.positional l.whole else d.exponential l.plus

/-- Whether the sign bit of a double is set. -/
def signBit (x : Float) : Bool := x.toBits >>> 63 == 1

/-- The text of a double in a layout. -/
def Layout.text (l : Layout) (x : Float) : String :=
  if x.isNaN then l.nan
  else
    let sign := if signBit x then "-" else ""
    if x.isInf then sign ++ "inf"
    else if x == 0 then sign ++ l.zero
    else sign ++ l.digits ((Binary.ofFloat x).shortest l.tie)

/-- `num / den` rounded to the nearest natural number, a half to the even one. -/
def roundHalfEven (num den : Nat) : Nat :=
  let floor := num / den
  let rest := 2 * (num % den)
  if rest < den then floor
  else if den < rest then floor + 1
  else floor + floor % 2

/-- The magnitude of a finite double in units of `10 ^ -places`, rounded. -/
def fixedUnits (places : Nat) (x : Float) : Nat :=
  let b := Binary.ofFloat x
  let (num, den) := Binary.fraction b.m b.q
  roundHalfEven (num * Nat.pow 10 places) den

/-- A double with a fixed number of decimal places. A result of zeros only has no sign. -/
def fixedUnsignedZero (places : Nat) (x : Float) : String :=
  if x.isNaN then "NaN"
  else if x.isInf then if signBit x then "-inf" else "inf"
  else
    let units := fixedUnits places x
    let unit := Nat.pow 10 places
    let sign := if signBit x && units != 0 then "-" else ""
    sign ++ toString (units / unit) ++
      if places = 0 then "" else "." ++ padded places (units % unit)

/-- A double with a fixed number of decimal places. What is negative keeps its sign even if the
result has zeros only. -/
def fixed (places : Nat) (x : Float) : String :=
  let zeroSign := if x.isFinite && signBit x && fixedUnits places x == 0 then "-" else ""
  zeroSign ++ fixedUnsignedZero places x

/-- A double in plain positional digits. -/
def display (x : Float) : String := Layout.plain.text x

/-- A double with one digit before the point and an exponent. -/
def scientific (x : Float) : String := Layout.scientific.text x

/-- Pads a text with blanks on the left. -/
def padLeft (width : Nat) (s : String) : String := "".pushn ' ' (width - s.length) ++ s

end GyroDelay.Decimal
