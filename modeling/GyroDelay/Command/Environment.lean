import GyroDelay.Text.Alphanumeric
import GyroDelay.Text.Blank
import GyroDelay.Text.Lines
import GyroDelay.Text.Utf8

/-!
# The environment

Variables and their values, and how a file sets further ones.

A line of such a file is a name, an equals sign and a value; the word `export` may stand in
front. A value may be put in quotes, and quotes may go over several lines. Inside double
quotes and outside of quotes a backslash escapes one character, and a dollar sign with a
name, in braces or not, stands for the value of that variable. A number sign after a blank
begins a comment. Variables that have a value keep it. The first faulty line ends the
reading; what was set before it stays. A value with the character NUL, which no environment
can hold, aborts the program.
-/

namespace GyroDelay.Command

/-- Variables and their values. The first entry of a name counts. -/
structure Environment where
  /-- The variables with their values. -/
  entries : List (String × String)
deriving Repr

namespace Environment

/-- What stands behind a text in another one that begins with it. -/
def behind? (start text : List Char) : Option (List Char) :=
  if start.isPrefixOf text then some (text.drop start.length) else none

/-- The value of a variable. A variable is kept as one text, its name, an equals sign and its
value; so a name that holds an equals sign finds the rest of a value that begins with what
follows the sign. The empty name has no value. -/
def get? (env : Environment) (name : String) : Option String :=
  if name.isEmpty then none
  else env.entries.findSome? fun e =>
    (behind? (name.toList ++ ['=']) (e.1.toList ++ '=' :: e.2.toList)).map String.ofList

/-- Sets a variable that has no value yet; `none` for a value that no environment can hold,
since the character NUL ends each text in it. -/
def supply? (env : Environment) (name value : String) : Option Environment :=
  match env.get? name with
  | some _ => some env
  | none => if value.contains '\x00' then none else some ⟨env.entries ++ [(name, value)]⟩

/-! ## Lines -/

/-- Where the end of a line leaves its quotes. -/
inductive Quoting where
  | outside
  /-- Outside of quotes and behind a blank, where a comment may begin. -/
  | blank
  | escaped
  | single
  | singleEscaped
  | double
  | doubleEscaped
deriving DecidableEq

/-- The quoting behind one more character. -/
def Quoting.next : Quoting → Char → Quoting
  | .outside, c | .blank, c =>
    if c = '\\' then .escaped
    else if c = '"' then .double
    else if c = '\'' then .single
    else .outside
  | .escaped, _ => .outside
  | .single, c => if c = '\\' then .singleEscaped else if c = '\'' then .outside else .single
  | .singleEscaped, _ => .single
  | .double, c => if c = '\\' then .doubleEscaped else if c = '"' then .outside else .double
  | .doubleEscaped, _ => .double

/-- Whether a character is a blank that a comment may follow. -/
def Quoting.admitsComment (q : Quoting) (c : Char) : Bool :=
  q = .outside && Text.isBlank c && c ≠ '\n' && c ≠ '\r'

/-- Adds a line to the reversed text `read`. The quoting at its end is `none` if a comment
ends the line. -/
def scanLine (q : Quoting) (read : List Char) : List Char → List Char × Option Quoting
  | [] => (read, some q)
  | c :: cs =>
    if q = .blank && c = '#' then (read, none)
    else scanLine (if q.admitsComment c then .blank else q.next c) (c :: read) cs

/-- Drops the line end of a reversed line. -/
def dropLineEnd : List Char → List Char
  | '\n' :: '\r' :: cs => cs
  | '\n' :: cs => cs
  | cs => cs

/-- Joins lines whose quotes go on in the next one. `read` is the reversed beginning of the
first line and `q` its quoting. Quotes that stay open give a last line that is `none`. -/
def joined (q : Quoting) (read : List Char) : List (List Char) → List (Option (List Char))
  | [] => if q = .outside then [] else [none]
  | line :: rest =>
    if read = [] && (line.dropWhile Text.isBlank).head? = some '#' then
      some [] :: joined .outside [] rest
    else
      match scanLine q read line with
      | (text, none) => some text.reverse :: joined .outside [] rest
      | (text, some .outside) => some (dropLineEnd text).reverse :: joined .outside [] rest
      | (text, some q) => joined q text rest

/-- Bytes with their line feeds, given the reversed beginning of the first line. -/
def byteLines (read : List UInt8) : List UInt8 → List (List UInt8)
  | [] => if read.isEmpty then [] else [read.reverse]
  | b :: bytes =>
    if b = 10 then (b :: read).reverse :: byteLines [] bytes else byteLines (b :: read) bytes

/-- The lines of a file, without the byte order mark. A line that is not text is `none`. -/
def fileLines (bytes : List UInt8) : List (Option (List Char)) :=
  let bytes := match bytes with
    | 0xEF :: 0xBB :: 0xBF :: rest => rest
    | bytes => bytes
  let decoded := (byteLines [] bytes).map fun line => (Text.decode line).toOption
  let texts := decoded.takeWhile Option.isSome
  let lines := joined .outside [] (texts.filterMap id)
  if texts.length = decoded.length then lines
  else lines ++ [none]

/-! ## Values -/

/-- What the next character of a value belongs to. -/
inductive Place where
  /-- The value itself, inside double quotes or not. -/
  | plain
  /-- Single quotes, in which nothing is special. -/
  | single
  /-- An escape. -/
  | escaped
  /-- The blanks behind the value. -/
  | ended
  /-- A name of letters and digits behind a dollar sign, reversed. -/
  | name (read : List Char)
  /-- A name in braces, reversed. -/
  | braced (read : List Char)
deriving DecidableEq

/-- The reversed value `read`, followed by that of a variable with a reversed name. -/
def insertValue (env : Environment) (read name : List Char) : List Char :=
  ((env.get? (String.ofList name.reverse)).getD "").toList.reverse ++ read

/-- Reads a value. `quoted` tells whether double quotes are open, and `read` is the reversed
value so far. -/
def valueFrom (env : Environment) (quoted : Bool) (read : List Char) :
    Place → List Char → Option (List Char)
  | place, [] =>
    if quoted then none
    else match place with
      | .single | .braced _ => none
      | .name name => some (insertValue env read name).reverse
      | _ => some read.reverse
  | .ended, c :: cs =>
    if c = ' ' || c = '\t' then valueFrom env quoted read .ended cs
    else if c = '#' then some read.reverse
    else none
  | .escaped, c :: cs =>
    if ['\\', '\'', '"', '$', ' '].contains c then valueFrom env quoted (c :: read) .plain cs
    else if c = 'n' then valueFrom env quoted ('\n' :: read) .plain cs
    else none
  | .single, c :: cs =>
    if c = '\'' then valueFrom env quoted read .plain cs
    else valueFrom env quoted (c :: read) .single cs
  | .name name, c :: cs =>
    if Text.isAlphanumeric c then valueFrom env quoted read (.name (c :: name)) cs
    else if c = '\x7b' && name = [] then valueFrom env quoted read (.braced []) cs
    else if c = '$' then valueFrom env quoted (insertValue env read name) (.name []) cs
    else valueFrom env quoted (c :: insertValue env read name) .plain cs
  | .braced name, c :: cs =>
    if c = '\x7d' then valueFrom env quoted (insertValue env read name) .plain cs
    else valueFrom env quoted read (.braced (c :: name)) cs
  | .plain, c :: cs =>
    if c = '$' then valueFrom env quoted read (.name []) cs
    else if c = '\\' then valueFrom env quoted read .escaped cs
    else if c = '"' then valueFrom env (!quoted) read .plain cs
    else if quoted then valueFrom env quoted (c :: read) .plain cs
    else if c = '\'' then valueFrom env quoted read .single cs
    else if c = ' ' || c = '\t' then valueFrom env quoted read .ended cs
    else valueFrom env quoted (c :: read) .plain cs

/-! ## Definitions -/

/-- A text without its leading blanks. -/
def dropBlanks (cs : List Char) : List Char := cs.dropWhile Text.isBlank

/-- A name and what follows it. -/
def readName? (cs : List Char) : Option (List Char × List Char) :=
  let inName (c : Char) : Bool := c.isAlphanum || c = '_' || c = '.'
  match cs with
  | [] => none
  | c :: _ =>
    if c.isAlpha || c = '_' then some (cs.takeWhile inName, dropBlanks (cs.dropWhile inName))
    else none

/-- What follows an equals sign and blanks. -/
def readEquals? : List Char → Option (List Char)
  | '=' :: cs => some (dropBlanks cs)
  | _ => none

/-- The name that a line defines and the text of its value. -/
def readDefinition? (line : List Char) : Option (List Char × List Char) := do
  let (name, rest) ← readName? line
  match readEquals? rest with
  | some value => return (name, value)
  | none =>
    if name = "export".toList then
      let (name, rest) ← readName? rest
      return (name, ← readEquals? rest)
    else none

/-- The variable that a line defines, with its value; `none` inside if the line is void, and
`none` if it is faulty. -/
def definition? (env : Environment) (line : List Char) : Option (Option (String × String)) :=
  let line := Text.trim line
  if line = [] || line.head? = some '#' then some none
  else do
    let (name, value) ← readDefinition? line
    let value ←
      if value.head? = some '#' then some [] else valueFrom env false [] .plain value
    return some (String.ofList name, String.ofList value)

/-- Carries out lines up to the first faulty one; `none` if a value cannot be held. -/
def defineAll? (env : Environment) : List (Option (List Char)) → Option Environment
  | some line :: rest =>
    match env.definition? line with
    | none => some env
    | some none => defineAll? env rest
    | some (some (name, value)) =>
      match env.supply? name value with
      | none => none
      | some env => defineAll? env rest
  | _ => some env

/-- The runs of characters that satisfy `inWord`, given the reversed beginning of the first
one. -/
def words (inWord : Char → Bool) (read : List Char) : List Char → List (List Char)
  | [] => [read.reverse]
  | c :: cs =>
    if inWord c then words inWord (c :: read) cs else read.reverse :: words inWord [] cs

/-- The names of variables that a file may set or refer to. -/
def mentioned (content : List UInt8) : List String :=
  let text := ((fileLines content).filterMap id).flatMap (· ++ ['\n'])
  let inDefinition (c : Char) : Bool := Text.isAlphanumeric c || c = '_' || c = '.'
  ((words inDefinition [] text ++ words Text.isAlphanumeric [] text).map String.ofList).eraseDups

/-- The environment with the variables that a file sets, if it can hold their values. -/
def withFile? (env : Environment) (content : List UInt8) : Option Environment :=
  env.defineAll? (fileLines content)

end Environment

end GyroDelay.Command
