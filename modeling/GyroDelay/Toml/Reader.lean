import GyroDelay.Toml.Quoted
import GyroDelay.Toml.Scalar
import GyroDelay.Toml.Table

/-!
# Reading TOML

A document is a sequence of headers and assignments, one a line. Arrays and inline tables
may go over several lines, hold comments and end with a comma. Neither may be nested more
than 80 levels deep, and no key may have more than 80 parts.
-/

namespace GyroDelay.Toml

open Config (Tree)

/-- Whether a character is blank within a line. -/
def isLineBlank (c : Char) : Bool := c = ' ' || c = '\t'

/-- A text without its leading blanks. -/
def skipBlank (cs : List Char) : List Char := cs.dropWhile isLineBlank

/-- A text without the blanks, line breaks and comments in front of it. -/
def skipVoid (inComment : Bool) : List Char → Option (List Char)
  | [] => some []
  | '\n' :: cs => skipVoid false cs
  | '\r' :: '\n' :: cs => skipVoid false cs
  | c :: cs =>
    if inComment then if isPrintable c then skipVoid true cs else none
    else if isLineBlank c then skipVoid false cs
    else if c = '#' then skipVoid true cs
    else some (c :: cs)

/-- What follows the end of a line, which may hold blanks and a comment. -/
def endLine (cs : List Char) : Option (List Char) :=
  match skipBlank cs with
  | [] => some []
  | '\n' :: rest => skipVoid false ('\n' :: rest)
  | '\r' :: '\n' :: rest => skipVoid false ('\n' :: rest)
  | '#' :: rest => skipVoid true rest
  | _ => none

/-- Whether a character may stand in a key without quotes. -/
def isBareKey (c : Char) : Bool := c.isAlphanum || c = '_' || c = '-'

/-- Reads one part of a key. -/
def readSimpleKey (cs : List Char) : Option (String × List Char) :=
  match readQuotedKey cs with
  | some (key, rest) => some (String.ofList key, rest)
  | none =>
    let key := cs.takeWhile isBareKey
    if key.isEmpty then none else some (String.ofList key, cs.dropWhile isBareKey)

/-- How many levels values may be nested, and how many parts a key may have. -/
def depthLimit : Nat := 80

/-- Reads a key of at most `limit` parts. -/
def readKeyParts : (limit : Nat) → List Char → Option (List String × List Char)
  | 0, _ => none
  | limit + 1, cs =>
    match readSimpleKey (skipBlank cs) with
    | none => none
    | some (key, rest) =>
      match skipBlank rest with
      | '.' :: rest => (readKeyParts limit rest).map fun (path, rest) => (key :: path, rest)
      | rest => some ([key], rest)

/-- Reads a key with its dots. -/
def readKey (cs : List Char) : Option (List String × List Char) := readKeyParts depthLimit cs

/-- Reads the key of a member of an inline table up to its value. The equals sign and the
value may stand on lines of their own. -/
def readAssigned (cs : List Char) : Option (List String × List Char) :=
  match readKey cs with
  | none => none
  | some (path, rest) =>
    match skipVoid false rest with
    | some ('=' :: rest) => (skipVoid false rest).map (path, ·)
    | _ => none

mutual

/-- Reads a value that may go `depth` levels deep, and returns it with the text after it. -/
def readValue : (fuel depth : Nat) → List Char → Option (Tree × List Char)
  | 0, _, _ => none
  | fuel + 1, depth, cs =>
    match cs, depth with
    | '[' :: rest, depth + 1 => readItems fuel depth [] rest
    | '\x7b' :: rest, depth + 1 => readMembers fuel depth [] rest
    | '"' :: _, _ => (readQuoted cs).map fun (text, rest) => (.text (String.ofList text), rest)
    | '\'' :: _, _ => (readQuoted cs).map fun (text, rest) => (.text (String.ofList text), rest)
    | _, _ => readScalar cs

/-- Reads the items of an array up to its end; `items` are those so far, the last one
first. -/
def readItems :
    (fuel depth : Nat) → (items : List Tree) → List Char → Option (Tree × List Char)
  | 0, _, _, _ => none
  | fuel + 1, depth, items, cs =>
    match skipVoid false cs with
    | none => none
    | some (']' :: rest) => some (.list items.reverse, rest)
    | some rest =>
      match readValue fuel depth rest with
      | none => none
      | some (item, rest) =>
        match skipVoid false rest with
        | some (',' :: rest) => readItems fuel depth (item :: items) rest
        | some (']' :: rest) => some (.list (item :: items).reverse, rest)
        | _ => none

/-- Reads the members of an inline table up to its end, in addition to `entries`. -/
def readMembers :
    (fuel depth : Nat) → (entries : Entries) → List Char → Option (Tree × List Char)
  | 0, _, _, _ => none
  | fuel + 1, depth, entries, cs =>
    match skipVoid false cs with
    | none => none
    | some ('\x7d' :: rest) => some (.record (entriesToMembers entries), rest)
    | some rest =>
      match readAssigned rest with
      | none => none
      | some (path, rest) =>
        match readValue fuel depth rest with
        | none => none
        | some (value, rest) =>
          match assign path value entries, skipVoid false rest with
          | some entries, some (',' :: rest) => readMembers fuel depth entries rest
          | some entries, some ('\x7d' :: rest) =>
            some (.record (entriesToMembers entries), rest)
          | _, _ => none

end

/-- A line of a document. -/
inductive Statement where
  /-- The header of a table. -/
  | header (path : List String)
  /-- The header of one more table in an array. -/
  | arrayHeader (path : List String)
  /-- A value for a key of the current table. -/
  | assignment (path : List String) (value : Tree)

/-- Reads one line that is not void, up to the next one. -/
def readStatement (cs : List Char) : Option (Statement × List Char) :=
  match cs with
  | '[' :: '[' :: rest =>
    match readKey rest with
    | some (path, ']' :: ']' :: rest) => (endLine rest).map (.arrayHeader path, ·)
    | _ => none
  | '[' :: rest =>
    match readKey rest with
    | some (path, ']' :: rest) => (endLine rest).map (.header path, ·)
    | _ => none
  | cs =>
    match readKey cs with
    | some (path, '=' :: rest) =>
      match readValue (2 * cs.length + 2) depthLimit (skipBlank rest) with
      | some (value, rest) => (endLine rest).map (.assignment path value, ·)
      | none => none
    | _ => none

/-- Reads the lines of a document; `fuel` bounds their number. -/
def readStatements : (fuel : Nat) → List Char → Option (List Statement)
  | 0, _ => none
  | fuel + 1, cs =>
    match skipVoid false cs with
    | none => none
    | some [] => some []
    | some cs =>
      match readStatement cs with
      | none => none
      | some (statement, rest) => (readStatements fuel rest).map (statement :: ·)

/-- A document that is being read: its tables and the path of the current one. -/
structure Draft where
  root : Entries
  current : List String

/-- The document after one more line. -/
def Draft.apply (d : Draft) : Statement → Option Draft
  | .header path => (openTable path d.root).map fun root => ⟨root, path⟩
  | .arrayHeader path => (openArrayTable path d.root).map fun root => ⟨root, path⟩
  | .assignment path value =>
    (enter false (fun _ entries => assign path value entries) d.current .opened d.root).map
      fun root => { d with root := root }

/-- The document of a sequence of lines. -/
def build? (statements : List Statement) : Option Tree :=
  (statements.foldlM Draft.apply ⟨[], []⟩).map fun d => .record (entriesToMembers d.root)

/-- A text without the byte order mark in front of it. -/
def dropMark : List Char → List Char
  | '\ufeff' :: cs => cs
  | cs => cs

/-- The tree that a TOML text holds. -/
def parse? (text : List Char) : Option Tree :=
  let text := dropMark text
  (readStatements (text.length + 1) text).bind build?

end GyroDelay.Toml
