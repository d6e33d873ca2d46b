import GyroDelay.Decimal.Layout
import GyroDelay.Decimal.Reading

/-!
# Numbers with a text
-/

namespace GyroDelay

/-- Numbers that can be written and read as text. -/
class NumberText (α : Type) where
  /-- The text of a number. -/
  display : α → String
  /-- The number that a text writes, if it writes one. -/
  read? : String → Option α

/-- Doubles are written with the fewest digits that read back. -/
instance : NumberText Float where
  display := Decimal.display
  read? := Decimal.readFloat?

end GyroDelay
