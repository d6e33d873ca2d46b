import GyroDelay.Text.Hex

/-!
# Quoted texts in TOML

Basic strings have escapes, literal strings have none. Both also come over several lines,
between three quotes, and keep their line breaks as they are written. A line break right
after the opening quotes is dropped, and a backslash at the end of a line of a basic string
drops all blanks up to the next character.
-/

namespace GyroDelay.Toml

/-- Whether a character may stand for itself in a comment or in a quoted text. -/
def isPrintable (c : Char) : Bool := c = '\t' || (0x20 ≤ c.toNat && c.toNat ≠ 0x7F)

/-- The character of hexadecimal digits, unless they name none. -/
def hexChar? (cs : List Char) : Option Char := do
  let n ← Text.ofBase? 16 cs
  if n < 0xD800 ∨ (0xE000 ≤ n ∧ n < 0x110000) then some (Char.ofNat n) else none

/-- The character behind a backslash. -/
def escape? (c : Char) : Option Char :=
  match c with
  | 'b' => some '\x08'
  | 't' => some '\t'
  | 'n' => some '\n'
  | 'f' => some '\x0c'
  | 'r' => some '\r'
  | 'e' => some '\x1b'
  | '"' => some '"'
  | '\\' => some '\\'
  | _ => none

/-- Reads the rest of a basic string after its opening quote; `done` are the characters so
far, the last one first. -/
def readBasic (done : List Char) : List Char → Option (List Char × List Char)
  | '"' :: rest => some (done.reverse, rest)
  | '\\' :: 'u' :: a :: b :: c :: d :: rest =>
    match hexChar? [a, b, c, d] with
    | some c => readBasic (c :: done) rest
    | none => none
  | '\\' :: 'U' :: a :: b :: c :: d :: e :: f :: g :: h :: rest =>
    match hexChar? [a, b, c, d, e, f, g, h] with
    | some c => readBasic (c :: done) rest
    | none => none
  | '\\' :: 'x' :: a :: b :: rest =>
    match hexChar? [a, b] with
    | some c => readBasic (c :: done) rest
    | none => none
  | '\\' :: c :: rest =>
    match escape? c with
    | some c => readBasic (c :: done) rest
    | none => none
  | c :: rest => if isPrintable c && c ≠ '\\' then readBasic (c :: done) rest else none
  | [] => none

/-- Whether the line ends after blanks. -/
def endsLine (cs : List Char) : Bool :=
  match cs.dropWhile fun c => c = ' ' || c = '\t' with
  | '\n' :: _ => true
  | '\r' :: '\n' :: _ => true
  | _ => false

/-- Reads the rest of a basic string over several lines; `joining` while blanks after a
backslash are dropped. -/
def readBasicLines (joining : Bool) (done : List Char) :
    List Char → Option (List Char × List Char)
  | '"' :: '"' :: '"' :: '"' :: '"' :: rest => some (('"' :: '"' :: done).reverse, rest)
  | '"' :: '"' :: '"' :: '"' :: rest => some (('"' :: done).reverse, rest)
  | '"' :: '"' :: '"' :: rest => some (done.reverse, rest)
  | '\n' :: rest => readBasicLines joining (if joining then done else '\n' :: done) rest
  | '\r' :: '\n' :: rest =>
    readBasicLines joining (if joining then done else '\n' :: '\r' :: done) rest
  | '\\' :: 'u' :: a :: b :: c :: d :: rest =>
    match hexChar? [a, b, c, d] with
    | some c => readBasicLines false (c :: done) rest
    | none => none
  | '\\' :: 'U' :: a :: b :: c :: d :: e :: f :: g :: h :: rest =>
    match hexChar? [a, b, c, d, e, f, g, h] with
    | some c => readBasicLines false (c :: done) rest
    | none => none
  | '\\' :: 'x' :: a :: b :: rest =>
    match hexChar? [a, b] with
    | some c => readBasicLines false (c :: done) rest
    | none => none
  | '\\' :: c :: rest =>
    match escape? c with
    | some c => readBasicLines false (c :: done) rest
    | none => if endsLine (c :: rest) then readBasicLines true done (c :: rest) else none
  | c :: rest =>
    if joining && (c = ' ' || c = '\t') then readBasicLines true done rest
    else if isPrintable c && c ≠ '\\' then readBasicLines false (c :: done) rest
    else none
  | [] => none

/-- Reads the rest of a literal string. -/
def readLiteral (done : List Char) : List Char → Option (List Char × List Char)
  | [] => none
  | c :: rest =>
    if c = '\'' then some (done.reverse, rest)
    else if isPrintable c then readLiteral (c :: done) rest
    else none

/-- Reads the rest of a literal string over several lines. -/
def readLiteralLines (done : List Char) : List Char → Option (List Char × List Char)
  | '\'' :: '\'' :: '\'' :: '\'' :: '\'' :: rest => some (('\'' :: '\'' :: done).reverse, rest)
  | '\'' :: '\'' :: '\'' :: '\'' :: rest => some (('\'' :: done).reverse, rest)
  | '\'' :: '\'' :: '\'' :: rest => some (done.reverse, rest)
  | '\n' :: rest => readLiteralLines ('\n' :: done) rest
  | '\r' :: '\n' :: rest => readLiteralLines ('\n' :: '\r' :: done) rest
  | c :: rest => if isPrintable c then readLiteralLines (c :: done) rest else none
  | [] => none

/-- A text without the line break that it begins with. -/
def dropFirstBreak : List Char → List Char
  | '\n' :: cs => cs
  | '\r' :: '\n' :: cs => cs
  | cs => cs

/-- Reads a quoted text on one line, as it may stand for a key. -/
def readQuotedKey : List Char → Option (List Char × List Char)
  | '"' :: rest => readBasic [] rest
  | '\'' :: rest => readLiteral [] rest
  | _ => none

/-- Reads a quoted text. -/
def readQuoted : List Char → Option (List Char × List Char)
  | '"' :: '"' :: '"' :: rest => readBasicLines false [] (dropFirstBreak rest)
  | '\'' :: '\'' :: '\'' :: rest => readLiteralLines [] (dropFirstBreak rest)
  | cs => readQuotedKey cs

end GyroDelay.Toml
