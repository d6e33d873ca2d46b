/-!
# Blank characters

The characters with the Unicode property `White_Space`, and texts without the blanks at
their ends.
-/

namespace GyroDelay.Text

/-- The ranges of code points that are blank, first and last of each. -/
def blankRanges : List (Nat × Nat) :=
  [(0x09, 0x0D), (0x20, 0x20), (0x85, 0x85), (0xA0, 0xA0), (0x1680, 0x1680),
   (0x2000, 0x200A), (0x2028, 0x2029), (0x202F, 0x202F), (0x205F, 0x205F),
   (0x3000, 0x3000)]

/-- Whether a character is blank. -/
def isBlank (c : Char) : Bool := blankRanges.any fun (first, last) =>
  first ≤ c.toNat && c.toNat ≤ last

/-- A text without its leading and trailing blanks. -/
def trim (cs : List Char) : List Char :=
  ((cs.dropWhile isBlank).reverse.dropWhile isBlank).reverse

/-- Whether a text holds blanks only. -/
def isBlankText (s : String) : Bool := s.toList.all isBlank

/-- A text with its characters lowered, for letters of the Latin alphabet only. -/
def lowerLatin (s : String) : String := s.map Char.toLower

end GyroDelay.Text
