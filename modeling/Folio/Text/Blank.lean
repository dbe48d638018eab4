import Folio.Text.Ranges

/-!
# White space

`isBlank` is the Unicode property White_Space. Texts are trimmed at both ends by it; a text made of
blanks alone counts as no text at all.
-/

set_option autoImplicit false

namespace Folio.Text

/-- The ranges of the Unicode property White_Space. -/
def blankRanges : List (Nat × Nat) := [
  (0x9, 0xD), (0x20, 0x20), (0x85, 0x85), (0xA0, 0xA0), (0x1680, 0x1680), (0x2000, 0x200A),
  (0x2028, 0x2029), (0x202F, 0x202F), (0x205F, 0x205F), (0x3000, 0x3000)]

/-- Whether a character has the Unicode property White_Space. -/
def isBlank (c : Char) : Bool :=
  inRanges blankRanges c.toNat

/-- Drops the blanks a text starts with. -/
def trimStart (text : List Char) : List Char :=
  text.dropWhile isBlank

/-- Drops the blanks a text ends with. -/
def trimEnd (text : List Char) : List Char :=
  (text.reverse.dropWhile isBlank).reverse

/-- Drops the blanks at both ends of a text. -/
def trim (text : List Char) : List Char :=
  trimEnd (trimStart text)

/-- A text without the blanks at its ends. -/
def trimmed (text : String) : String :=
  String.ofList (trim text.toList)

/-- Whether a text holds a character that is not blank. -/
def hasContent (text : String) : Bool :=
  text.toList.any fun c => !isBlank c

/-- The trimmed text, if anything is left of it. -/
def nonBlank? (text : String) : Option String :=
  if hasContent text then some (trimmed text) else none

end Folio.Text
