import Folio.Error
import Folio.Number.Binary

/-!
# Measuring text

The width of a text is the sum of the widths of its characters, which are whole thousandths of the
font size. The sum is taken in a machine word, and the program panics where the word is too small.
-/

set_option autoImplicit false

namespace Folio

/-- The sum of two machine words. -/
def addUnits (a b : UInt32) : Checked UInt32 :=
  if a.toNat + b.toNat < UInt32.size then .ok (a + b) else .error .overflow

/-- The width of a text in thousandths of the font size, as a machine word. -/
def textUnits (charWidth : Char → UInt16) (text : List Char) : Checked UInt32 :=
  text.foldlM (fun sum c => addUnits sum (charWidth c).toUInt32) 0

/-- The width of a text at a font size. -/
def textWidth (charWidth : Char → UInt16) (fontSize : Float32) (text : List Char) :
    Checked Float32 := do
  return Binary32.ofInt (← textUnits charWidth text).toNat / 1000 * fontSize

end Folio
