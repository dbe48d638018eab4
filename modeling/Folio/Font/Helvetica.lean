import Folio.Font.WinAnsi
import Folio.Text.Ranges

/-!
# Helvetica

The font that every reader of PDF brings along. Its widths are known for ASCII; other characters
count as half or as full width.
-/

set_option autoImplicit false

namespace Folio.Helvetica

/-- The widths of the characters from a space to a tilde, in thousandths of the font size. -/
def asciiWidths : Array UInt16 := #[
  278, 278, 355, 556, 556, 889, 667, 191, 333, 333, 389, 584, 278, 333, 278, 278,
  556, 556, 556, 556, 556, 556, 556, 556, 556, 556, 278, 278, 584, 584, 584, 556,
  1015, 667, 667, 722, 722, 667, 611, 778, 722, 278, 500, 667, 556, 833, 722, 778,
  667, 778, 722, 667, 611, 722, 667, 944, 667, 667, 611, 278, 278, 278, 469, 556,
  333, 556, 556, 500, 556, 556, 278, 556, 556, 222, 222, 500, 222, 833, 556, 556,
  556, 556, 333, 500, 278, 556, 500, 722, 500, 500, 500, 334, 260, 334, 584]

/-- The code points of characters that are as wide as the font is high. -/
def wideRanges : List (Nat × Nat) := [
  (0x1100, 0x115F), (0x2E80, 0xA4CF), (0xAC00, 0xD7A3), (0xF900, 0xFAFF), (0xFE30, 0xFE4F),
  (0xFF00, 0xFF60), (0xFFE0, 0xFFE6), (0x20000, 0x3FFFD)]

/-- The width of a character, in thousandths of the font size. -/
def charWidth (c : Char) : UInt16 :=
  if 0x20 ≤ c.toNat ∧ c.toNat ≤ 0x7E then asciiWidths.getD (c.toNat - 0x20) 556
  else if Text.inRanges wideRanges c.toNat then 1000
  else 556

end Folio.Helvetica
