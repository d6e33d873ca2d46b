import GyroDelay.Bits

/-!
# Reading decimal numbers

The texts that read as a number are an optional sign followed either by `inf`,
`infinity` or `nan` in any case, or by digits with an optional point (one side of which
may be empty) and an optional exponent. The value is the double nearest to the decimal.
Integers have an optional sign and digits only.
-/

namespace GyroDelay.Decimal

/-- The value of a decimal digit. -/
def digitValue (c : Char) : Nat := c.toNat - '0'.toNat

/-- The number that decimal digits write. -/
def ofDigits (cs : List Char) : Nat := cs.foldl (fun n c => 10 * n + digitValue c) 0

/-- An optional sign and what follows it; true for a minus sign. -/
def splitSign : List Char → Bool × List Char
  | '-' :: cs => (true, cs)
  | '+' :: cs => (false, cs)
  | cs => (false, cs)

/-- Digits only, at least one. -/
def readNat? (cs : List Char) : Option Nat :=
  if cs.isEmpty || !cs.all Char.isDigit then none else some (ofDigits cs)

/-- An integer with an optional sign. -/
def readInt? (cs : List Char) : Option Int :=
  match splitSign cs with
  | (negative, digits) =>
    (readNat? digits).map fun n => if negative then -(n : Int) else n

/-- An integer of 64 signed bits. -/
def readInt64? (s : String) : Option Int :=
  (readInt? s.toList).filter (isSigned 64)

/-- An integer from 0 up to, but not including, `bound`; a plus sign is allowed. -/
def readBounded? (bound : Nat) (s : String) : Option Nat :=
  match s.toList with
  | '+' :: cs => (readNat? cs).filter (· < bound)
  | cs => (readNat? cs).filter (· < bound)

/-- The double nearest to `mantissa · 10 ^ exponent`. Exponents that leave the range of
doubles on either side are cut short. -/
def nearest (negative : Bool) (mantissa : Nat) (exponent : Int) : Float :=
  let size : Int := (Nat.toDigits 10 mantissa).length
  let magnitude : Float :=
    if mantissa = 0 then 0
    else if 310 < exponent + size then 1 / 0
    else if exponent + size < -330 then 0
    else if 0 ≤ exponent then Float.ofScientific mantissa false exponent.toNat
    else Float.ofScientific mantissa true (-exponent).toNat
  if negative then -magnitude else magnitude

/-- An optional exponent that ends the text. -/
def readExponent? : List Char → Option Int
  | [] => some 0
  | c :: cs => if c = 'e' || c = 'E' then readInt? cs else none

/-- Digits, an optional point and an optional exponent. -/
def readUnsigned? (negative : Bool) (cs : List Char) : Option Float :=
  let whole := cs.takeWhile Char.isDigit
  let afterWhole := cs.dropWhile Char.isDigit
  let (fraction, rest) := match afterWhole with
    | '.' :: after => (after.takeWhile Char.isDigit, after.dropWhile Char.isDigit)
    | after => ([], after)
  if whole.isEmpty && fraction.isEmpty then none
  else (readExponent? rest).map fun e =>
    nearest negative (ofDigits (whole ++ fraction)) (e - fraction.length)

/-- The double that a text writes, if it writes one. -/
def readFloat? (s : String) : Option Float :=
  match splitSign s.toList with
  | (negative, body) =>
    let word := body.map Char.toLower
    if word = "inf".toList || word = "infinity".toList then
      some (if negative then -1 / 0 else 1 / 0)
    else if word = "nan".toList then some (0 / 0)
    else readUnsigned? negative body

end GyroDelay.Decimal
