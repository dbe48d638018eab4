import Folio.Layout.Measure
import Folio.Text.Blank
import Folio.Text.Split

/-!
# Columns of text

Text is broken into lines that fit the width of a column. Text with characters of a script that has
no spaces between its words may be broken at any character; other text is broken between words, and
only a word that does not fit a line of its own is broken inside.

How text is broken is told for any way of asking whether a line fits. A column asks by measuring the
line, at which the program may panic.
-/

set_option autoImplicit false

namespace Folio

/-- A line of text; one without characters is blank. -/
abbrev Line := List Char

/-- A column that text is set in. -/
structure Column where
  /-- The width of each character, in thousandths of the font size. -/
  charWidth : Char → UInt16
  fontSize : Float32
  /-- The greatest width of a line, in points. -/
  maxWidth : Float32

namespace Column

/-! ### Words and paragraphs -/

/-- Whether a character separates words: the blanks of ASCII do, no-break spaces do not. -/
def isSeparator (c : Char) : Bool :=
  c = ' ' || c = '\t' || c = '\n' || c = '\x0b' || c = '\x0c' || c = '\r'

/-- The words of a text. -/
def words (text : List Char) : List (List Char) :=
  (Text.splitWhere isSeparator text).filter fun word => !word.isEmpty

/-- A line followed by a word. -/
def append (line word : Line) : Line :=
  if line.isEmpty then word else line ++ ' ' :: word

/-- The code points of Han, Hiragana, Katakana, Hangul and Thai. -/
def unspacedRanges : List (Nat × Nat) := [
  (0x2E80, 0x2FDF), (0x3005, 0x3005), (0x3007, 0x3007), (0x3021, 0x3029), (0x3038, 0x303B),
  (0x3400, 0x4DBF), (0x4E00, 0x9FFF), (0xF900, 0xFAFF), (0x20000, 0x3134F),
  (0x3040, 0x309F), (0x1B001, 0x1B11F),
  (0x30A0, 0x30FF), (0x31F0, 0x31FF), (0xFF66, 0xFF9F),
  (0x1100, 0x11FF), (0x3130, 0x318F), (0xA960, 0xA97F), (0xAC00, 0xD7FF), (0xFFA0, 0xFFDC),
  (0x0E00, 0x0E7F)]

/-- Whether a text has a character of a script without spaces between words. -/
def isUnspaced (text : List Char) : Bool :=
  text.any fun c => Text.inRanges unspacedRanges c.toNat

/-- The paragraphs of a text, one a line, without the blanks at their ends. -/
def paragraphs (text : List Char) : List (List Char) :=
  (Text.splitWhere (· == '\n') (Text.replaceAll ['\r', '\n'] ['\n'] text)).map Text.trim

/-! ### Breaking text -/

section
variable {m : Type → Type} [Monad m] (fits : Line → m Bool)

/-- Breaks a text that follows the characters of a line. -/
def breakCharsFrom (line : Line) : List Char → m (List Line)
  | [] => return if line.isEmpty then [] else [line]
  | c :: cs => do
    if ← fits (line ++ [c]) then breakCharsFrom (line ++ [c]) cs
    else if line.isEmpty then breakCharsFrom [c] cs
    else return line :: (← breakCharsFrom [c] cs)

/-- Breaks a text at any character, with as much on each line as fits; a character that does not fit
has a line of its own. -/
def breakChars (text : List Char) : m (List Line) :=
  breakCharsFrom fits [] text

/-- Breaks words that follow the words of a line. -/
def breakWordsFrom (line : Line) : List (List Char) → m (List Line)
  | [] => return if line.isEmpty then [] else [line]
  | word :: words => do
    if ← fits (append line word) then breakWordsFrom (append line word) words
    else
      let before := if line.isEmpty then [] else [line]
      if ← fits word then return before ++ (← breakWordsFrom word words)
      else return before ++ (← breakChars fits word) ++ (← breakWordsFrom [] words)

/-- Breaks a text between words, with as much on each line as fits; a word that does not fit is
broken at characters and starts and ends a line. -/
def breakWords (text : List Char) : m (List Line) :=
  breakWordsFrom fits [] (words text)

/-- Breaks a paragraph in the way of its script. -/
def breakParagraph (paragraph : List Char) : m (List Line) :=
  if isUnspaced paragraph then breakChars fits paragraph else breakWords fits paragraph

/-- Breaks a paragraph that may be blank; then it becomes a blank line. -/
def breakLine (paragraph : List Char) : m (List Line) :=
  if paragraph.isEmpty then return [[]] else breakParagraph fits paragraph

/-- Breaks paragraphs one after the other. -/
def breakParagraphs : List (List Char) → m (List Line)
  | [] => return []
  | paragraph :: paragraphs => return (← breakLine fits paragraph) ++ (← breakParagraphs paragraphs)

/-- Breaks the paragraphs of a text; a text that is blank altogether has no lines. -/
def breakText (text : List Char) : m (List Line) :=
  if (Text.trim text).isEmpty then return [] else breakParagraphs fits (paragraphs text)

end

/-! ### Columns -/

/-- The width of a line, in points. -/
def width (column : Column) (line : Line) : Checked Float32 :=
  if line.isEmpty then return 0 else textWidth column.charWidth column.fontSize line

/-- Whether a line is not wider than the column. -/
def fits (column : Column) (line : Line) : Checked Bool := do
  return (← column.width line) ≤ column.maxWidth

/-- Breaks a text at any character. -/
def wrapChars (column : Column) (text : List Char) : Checked (List Line) :=
  breakChars column.fits text

/-- Breaks a text between words. -/
def wrapWords (column : Column) (text : List Char) : Checked (List Line) :=
  breakWords column.fits text

/-- Breaks a paragraph in the way of its script. -/
def wrapParagraph (column : Column) (paragraph : List Char) : Checked (List Line) :=
  breakParagraph column.fits paragraph

/-- Breaks the paragraphs of a text. -/
def wrapText (column : Column) (text : List Char) : Checked (List Line) :=
  breakText column.fits text

end Column

end Folio
