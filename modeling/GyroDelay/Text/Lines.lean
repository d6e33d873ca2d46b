/-!
# Lines and fields

A line ends at a line feed or at the end of the text. A carriage return right before the
line feed belongs to the line end. Nothing follows the last line feed, so a text that
ends with one has no empty last line.
-/

namespace GyroDelay.Text

/-- Drops the carriage return that ends a reversed line. -/
def dropReturn : List Char → List Char
  | '\r' :: cs => cs
  | cs => cs

/-- Lines of a text, given the reversed beginning of its first line. -/
def linesFrom (current : List Char) : List Char → List (List Char)
  | [] => if current.isEmpty then [] else [current.reverse]
  | c :: cs =>
    if c = '\n' then (dropReturn current).reverse :: linesFrom [] cs
    else linesFrom (c :: current) cs

/-- The lines of a text, in order. -/
def lines (cs : List Char) : List (List Char) := linesFrom [] cs

/-- Fields of a text, given the reversed beginning of its first field. -/
def fieldsFrom (separator : Char) (current : List Char) : List Char → List (List Char)
  | [] => [current.reverse]
  | c :: cs =>
    if c = separator then current.reverse :: fieldsFrom separator [] cs
    else fieldsFrom separator (c :: current) cs

/-- The texts between the separators; there is always at least one. -/
def fields (separator : Char) (cs : List Char) : List (List Char) :=
  fieldsFrom separator [] cs

end GyroDelay.Text
