import GyroDelay.Bits
import GyroDelay.Config.Tree
import GyroDelay.Text.Hex
import GyroDelay.Text.Lines

/-!
# Plain values in TOML

Numbers, truth values and dates: everything that is written without quotes or brackets.
-/

namespace GyroDelay.Toml

open Config (Tree)

/-- Digits with single underscores between them, without the underscores. -/
def digits? (isDigit : Char → Bool) (cs : List Char) : Option (List Char) :=
  let groups := Text.fields '_' cs
  if groups.all fun g => !g.isEmpty && g.all isDigit then some groups.flatten else none

/-- Digits of a base up to 16 as a number. -/
def based? (base : Nat) (cs : List Char) : Option Int :=
  match digits? (fun c => (Text.ofBase? base [c]).isSome) cs with
  | none => none
  | some ds => (Text.ofBase? base ds).map fun n => (n : Int)

/-- Digits of a whole number in base ten: no leading zero. -/
def whole? (cs : List Char) : Option (List Char) :=
  match digits? Char.isDigit cs with
  | some ('0' :: _ :: _) => none
  | digits => digits

/-- An integer; signs only in base ten. Integers that need more than 128 bits are refused. -/
def integer? (cs : List Char) : Option Int :=
  let value : Option Int := match cs with
    | '0' :: 'x' :: cs => based? 16 cs
    | '0' :: 'o' :: cs => based? 8 cs
    | '0' :: 'b' :: cs => based? 2 cs
    | cs =>
      let (negative, body) := Decimal.splitSign cs
      (whole? body).map fun ds =>
        let n : Int := Decimal.ofDigits ds
        if negative then -n else n
  value.filter fun i => isSigned 128 i || isUnsigned 128 i

/-- An optional exponent, which may have leading zeros. -/
def exponent? : List Char → Option Int
  | [] => some 0
  | c :: cs =>
    if c = 'e' || c = 'E' then
      let (negative, body) := Decimal.splitSign cs
      (digits? Char.isDigit body).map fun ds =>
        let n : Int := Decimal.ofDigits ds
        if negative then -n else n
    else none

/-- A finite double: a whole number followed by a fraction, an exponent or both. -/
def finite? (cs : List Char) : Option Float := do
  let (negative, body) := Decimal.splitSign cs
  let isPart (c : Char) : Bool := c.isDigit || c = '_'
  let whole ← whole? (body.takeWhile isPart)
  let rest := body.dropWhile isPart
  let (fraction, rest) ← match rest with
    | '.' :: rest => do
      let fraction ← digits? Char.isDigit (rest.takeWhile isPart)
      pure (fraction, rest.dropWhile isPart)
    | rest => if rest.isEmpty then none else pure ([], rest)
  let exponent ← exponent? rest
  let x := Decimal.nearest negative (Decimal.ofDigits (whole ++ fraction))
    (exponent - fraction.length)
  if x.isInf then none else return x

/-- An infinity or a value that is not a number, with an optional sign. -/
def special? (cs : List Char) : Option Float :=
  let (negative, body) := Decimal.splitSign cs
  if body = "inf".toList then some (if negative then -1 / 0 else 1 / 0)
  else if body = "nan".toList then some (0 / 0)
  else none

/-- A number of exactly `count` digits up to `last`. -/
def part? (count last : Nat) (cs : List Char) : Option Nat :=
  if cs.length = count && cs.all Char.isDigit && Decimal.ofDigits cs ≤ last then
    some (Decimal.ofDigits cs)
  else none

/-- How many days a month has. -/
def daysIn (year month : Nat) : Nat :=
  if month = 2 then
    if year % 4 = 0 && (year % 100 ≠ 0 || year % 400 = 0) then 29 else 28
  else if [4, 6, 9, 11].contains month then 30 else 31

/-- Whether a text is a date of the calendar. -/
def isDate (cs : List Char) : Bool :=
  match Text.fields '-' cs with
  | [y, m, d] =>
    match part? 4 9999 y, part? 2 12 m, part? 2 31 d with
    | some year, some month, some day => 1 ≤ month && 1 ≤ day && day ≤ daysIn year month
    | _, _, _ => false
  | _ => false

/-- Whether a text is the seconds of a time, with an optional fraction. -/
def isSeconds (cs : List Char) : Bool :=
  match Text.fields '.' cs with
  | [s] => (part? 2 60 s).isSome
  | [s, fraction] => (part? 2 60 s).isSome && !fraction.isEmpty && fraction.all Char.isDigit
  | _ => false

/-- Whether a text is a time of the day. -/
def isTime (cs : List Char) : Bool :=
  match Text.fields ':' cs with
  | [h, m] => (part? 2 23 h).isSome && (part? 2 59 m).isSome
  | [h, m, s] => (part? 2 23 h).isSome && (part? 2 59 m).isSome && isSeconds s
  | _ => false

/-- Whether a text is a time of the day with an optional offset. -/
def isOffsetTime (cs : List Char) : Bool :=
  let clock := cs.takeWhile fun c => c.isDigit || c = ':' || c = '.'
  let offset := cs.dropWhile fun c => c.isDigit || c = ':' || c = '.'
  isTime clock && match offset with
    | [] => true
    | ['Z'] | ['z'] => true
    | sign :: rest =>
      (sign = '+' || sign = '-') && match Text.fields ':' rest with
        | [h, m] => (part? 2 23 h).isSome && (part? 2 59 m).isSome
        | _ => false

/-- Whether a text is a date, a time or both. -/
def isDateTime (cs : List Char) : Bool :=
  isDate cs || isTime cs ||
    (isDate (cs.take 10) && match cs.drop 10 with
      | c :: rest => (c = 'T' || c = 't' || c = ' ') && isOffsetTime rest
      | [] => false)

/-- The tree of a date: a record of its text, under a name that no setting has. -/
def dateTree (cs : List Char) : Tree := .record [(some "date", .text (String.ofList cs))]

/-- The tree of a plain value. -/
def scalar? (cs : List Char) : Option Tree :=
  if cs = "true".toList then some (.bool true)
  else if cs = "false".toList then some (.bool false)
  else match integer? cs with
    | some i => some (.integer i)
    | none =>
      match (special? cs).or (finite? cs) with
      | some x => some (.double x)
      | none => if isDateTime cs then some (dateTree cs) else none

/-- Whether a character may belong to a plain value. -/
def isPlain (c : Char) : Bool := c.isAlphanum || c = '+' || c = '-' || c = '_' || c = '.' || c = ':'

/-- Reads a plain value. A date goes on after one blank if a digit follows. -/
def readScalar (cs : List Char) : Option (Tree × List Char) :=
  let word := cs.takeWhile isPlain
  let rest := cs.dropWhile isPlain
  match isDate word, rest with
  | true, ' ' :: c :: more =>
    if c.isDigit then
      let tail := (c :: more).takeWhile isPlain
      (scalar? (word ++ ' ' :: tail)).map (·, (c :: more).dropWhile isPlain)
    else (scalar? word).map (·, rest)
  | _, _ => (scalar? word).map (·, rest)

end GyroDelay.Toml
