import GyroDelay.Decimal.Layout
import GyroDelay.Json.Value
import GyroDelay.Text.Hex

/-!
# Writing JSON

Values are laid out over several lines, two blanks for each level. Doubles are written with
the fewest digits that read back, positional from `1e-5` up to `1e16`; a double that is not
finite has no JSON and is written as `null`.
-/

namespace GyroDelay.Json

/-- A value to be written. Unlike `Json` it holds doubles, not their digits. -/
inductive Document where
  | null
  | bool (value : Bool)
  | integer (value : Int)
  | double (value : Float)
  | text (value : String)
  | list (items : List Document)
  | record (members : List (String × Document))

/-- The layout of doubles. -/
def doubleLayout : Decimal.Layout :=
  { low := some (-5), high := some 16, whole := ".0", plus := "+", zero := "0.0"
    nan := "null", tie := .even }

/-- A double, or `null`. -/
def renderDouble (x : Float) : String := if x.isFinite then doubleLayout.text x else "null"

/-- A character inside a string. Quotes, backslashes and control characters are escaped. -/
def escapeChar (c : Char) : List Char :=
  match c with
  | '"' => ['\\', '"']
  | '\\' => ['\\', '\\']
  | '\x08' => ['\\', 'b']
  | '\x0c' => ['\\', 'f']
  | '\n' => ['\\', 'n']
  | '\r' => ['\\', 'r']
  | '\t' => ['\\', 't']
  | c => if c.toNat < 0x20 then '\\' :: 'u' :: Text.hex4 false c.toNat else [c]

/-- A text in quotes. -/
def renderText (s : String) : String :=
  String.ofList ('"' :: s.toList.flatMap escapeChar ++ ['"'])

/-- A line break followed by the indentation of a level. -/
def newline (level : Nat) : String := "\n".pushn ' ' (2 * level)

mutual

/-- A value at a level of indentation. -/
def Document.render (level : Nat) : Document → String
  | .null => "null"
  | .bool b => if b then "true" else "false"
  | .integer i => toString i
  | .double x => renderDouble x
  | .text s => renderText s
  | .list [] => "[]"
  | .list (item :: items) =>
    "[" ++ newline (level + 1) ++ item.render (level + 1) ++ renderItems (level + 1) items ++
      newline level ++ "]"
  | .record [] => "\x7b\x7d"
  | .record ((key, value) :: members) =>
    "\x7b" ++ newline (level + 1) ++ renderText key ++ ": " ++ value.render (level + 1) ++
      renderMembers (level + 1) members ++ newline level ++ "\x7d"

/-- The items of a list after the first one. -/
def renderItems (level : Nat) : List Document → String
  | [] => ""
  | item :: items => "," ++ newline level ++ item.render level ++ renderItems level items

/-- The members of a record after the first one. -/
def renderMembers (level : Nat) : List (String × Document) → String
  | [] => ""
  | (key, value) :: members =>
    "," ++ newline level ++ renderText key ++ ": " ++ value.render level ++
      renderMembers level members

end

/-- The text of a document. -/
def Document.pretty (d : Document) : String := d.render 0

end GyroDelay.Json
