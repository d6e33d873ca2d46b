import GyroDelay.Json.Value
import GyroDelay.Text.Hex

/-!
# Reading JSON

The strict grammar: four blank characters, no leading zeros, no trailing commas, no
control characters inside strings, and nothing after the value.
-/

namespace GyroDelay.Json

/-- Whether a character may stand between tokens. -/
def isSpace (c : Char) : Bool := c = ' ' || c = '\n' || c = '\t' || c = '\r'

/-- A text without its leading blanks. -/
def skipSpace (cs : List Char) : List Char := cs.dropWhile isSpace

/-- One unit of a string: a character or half of a surrogate pair. -/
inductive StringUnit where
  | char (c : Char)
  | half (code : Nat)
deriving Repr

/-- The unit of a 16-bit code. -/
def StringUnit.ofCode (code : Nat) : StringUnit :=
  if 0xD800 ≤ code ∧ code < 0xE000 then .half code else .char (Char.ofNat code)

/-- The character after a backslash that stands for itself or for a control character. -/
def simpleEscape? (c : Char) : Option Char :=
  match c with
  | '"' => some '"'
  | '\\' => some '\\'
  | '/' => some '/'
  | 'b' => some '\x08'
  | 'f' => some '\x0c'
  | 'n' => some '\n'
  | 'r' => some '\r'
  | 't' => some '\t'
  | _ => none

/-- Reads the rest of a string after its opening quote; `units` are the units so far, the
last one first. -/
def readUnits : (units : List StringUnit) → List Char → Option (List StringUnit × List Char)
  | units, '"' :: rest => some (units.reverse, rest)
  | units, '\\' :: 'u' :: a :: b :: c :: d :: rest =>
    match Text.ofBase? 16 [a, b, c, d] with
    | some code => readUnits (.ofCode code :: units) rest
    | none => none
  | units, '\\' :: c :: rest =>
    match simpleEscape? c with
    | some c => readUnits (.char c :: units) rest
    | none => none
  | units, c :: rest =>
    if c = '\\' || c.toNat < 0x20 then none else readUnits (.char c :: units) rest
  | _, [] => none

/-- The characters of units in which every high half is followed by a low one and no other
half occurs. -/
def joinUnits : List StringUnit → Option (List Char)
  | [] => some []
  | .char c :: rest => (joinUnits rest).map (c :: ·)
  | .half high :: .half low :: rest =>
    if high < 0xDC00 ∧ 0xDC00 ≤ low then
      (joinUnits rest).map
        (Char.ofNat (0x10000 + 1024 * (high - 0xD800) + (low - 0xDC00)) :: ·)
    else none
  | .half _ :: _ => none

/-- Reads the rest of a string after its opening quote. -/
def readString (cs : List Char) : Option (Option String × List Char) :=
  (readUnits [] cs).map fun (units, rest) => ((joinUnits units).map String.ofList, rest)

/-- Reads the digits of an integer part: a zero alone, or digits without a leading zero. -/
def readWhole (cs : List Char) : Option (List Char × List Char) :=
  let digits := cs.takeWhile Char.isDigit
  match digits with
  | [] => none
  | '0' :: _ :: _ => none
  | _ => some (digits, cs.dropWhile Char.isDigit)

/-- Reads the digits after a point, if there is one. -/
def readFraction : List Char → Option (List Char × List Char)
  | '.' :: cs =>
    let digits := cs.takeWhile Char.isDigit
    if digits.isEmpty then none else some (digits, cs.dropWhile Char.isDigit)
  | cs => some ([], cs)

/-- Reads an exponent, if there is one. -/
def readExponent : List Char → Option (Option Int × List Char)
  | c :: cs =>
    if c = 'e' || c = 'E' then
      let (negative, cs) := Decimal.splitSign cs
      let digits := cs.takeWhile Char.isDigit
      if digits.isEmpty then none
      else
        let n : Int := Decimal.ofDigits digits
        some (some (if negative then -n else n), cs.dropWhile Char.isDigit)
    else some (none, c :: cs)
  | [] => some (none, [])

/-- Reads a number. -/
def readNumeral (cs : List Char) : Option (Numeral × List Char) := do
  let (negative, cs) := match cs with
    | '-' :: cs => (true, cs)
    | cs => (false, cs)
  let (whole, cs) ← readWhole cs
  let (fraction, cs) ← readFraction cs
  let (exponent, cs) ← readExponent cs
  return (⟨negative, whole, fraction, exponent⟩, cs)

/-- The rest of a text after a word. -/
def expect? (word : List Char) (cs : List Char) : Option (List Char) :=
  if word.isPrefixOf cs then some (cs.drop word.length) else none

mutual

/-- Reads a value and returns it with the text after it. -/
def readValue : (fuel : Nat) → List Char → Option (Json × List Char)
  | 0, _ => none
  | fuel + 1, cs =>
    match skipSpace cs with
    | '"' :: rest => (readString rest).map fun (s, rest) => (.string s, rest)
    | '[' :: rest =>
      match skipSpace rest with
      | ']' :: rest => some (.array [], rest)
      | rest => readItems fuel [] rest
    | '\x7b' :: rest =>
      match skipSpace rest with
      | '\x7d' :: rest => some (.object [], rest)
      | rest => readMembers fuel [] rest
    | 'n' :: rest => (expect? "ull".toList rest).map (.null, ·)
    | 't' :: rest => (expect? "rue".toList rest).map (.bool true, ·)
    | 'f' :: rest => (expect? "alse".toList rest).map (.bool false, ·)
    | rest => (readNumeral rest).map fun (n, rest) => (.number n, rest)

/-- Reads the items of an array up to its end; `items` are those so far, the last one
first. -/
def readItems : (fuel : Nat) → (items : List Json) → List Char → Option (Json × List Char)
  | 0, _, _ => none
  | fuel + 1, items, cs =>
    match readValue fuel cs with
    | none => none
    | some (item, rest) =>
      match skipSpace rest with
      | ',' :: rest => readItems fuel (item :: items) rest
      | ']' :: rest => some (.array (item :: items).reverse, rest)
      | _ => none

/-- Reads the members of an object up to its end; `members` are those so far, the last one
first. -/
def readMembers : (fuel : Nat) → (members : List (Option String × Json)) → List Char →
    Option (Json × List Char)
  | 0, _, _ => none
  | fuel + 1, members, cs =>
    match skipSpace cs with
    | '"' :: rest =>
      match readString rest with
      | none => none
      | some (key, rest) =>
        match skipSpace rest with
        | ':' :: rest =>
          match readValue fuel rest with
          | none => none
          | some (value, rest) =>
            match skipSpace rest with
            | ',' :: rest => readMembers fuel ((key, value) :: members) rest
            | '\x7d' :: rest => some (.object ((key, value) :: members).reverse, rest)
            | _ => none
        | _ => none
    | _ => none

end

/-- The value that a text writes, if it writes one and nothing else. -/
def parse? (text : List Char) : Option Json :=
  match readValue (2 * text.length + 2) text with
  | some (value, rest) => if (skipSpace rest).isEmpty then some value else none
  | none => none

end GyroDelay.Json
