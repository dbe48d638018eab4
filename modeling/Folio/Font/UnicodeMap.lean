import Folio.Text.Quoted
import Folio.Text.Utf16

/-!
# Maps from glyphs to Unicode

A document that draws glyphs by number carries a map that leads back from glyphs to characters, so
that its text can be searched and copied. The map is a text of its own, with the entries in blocks
of at most a hundred.
-/

set_option autoImplicit false

namespace Folio.UnicodeMap

/-- What stands before the entries. -/
def head : String :=
  "/CIDInit /ProcSet findresource begin\n12 dict begin\nbegincmap\n/CIDSystemInfo\n" ++
  "<< /Registry (Adobe)\n/Ordering (UCS)\n/Supplement 0\n>> def\n" ++
  "/CMapName /Adobe-Identity-UCS def\n/CMapType 2 def\n1 begincodespacerange\n" ++
  "<0000> <FFFF>\nendcodespacerange\n"

/-- What stands behind the entries. -/
def foot : String :=
  "endcmap\nCMapName currentdict /CMap defineresource pop\nend\nend\n"

/-- How many entries a block holds at most. -/
def blockSize : Nat := 100

/-- The line that maps a glyph to a character. -/
def entryText (entry : UInt16 × Char) : List Char :=
  '<' :: Text.hexUpper 4 entry.1.toNat ++ ['>', ' ', '<'] ++
    (Text.Utf16.units entry.2).flatMap (Text.hexUpper 4) ++ ['>', '\n']

/-- A block of entries. -/
def blockText (block : List (UInt16 × Char)) : List Char :=
  Nat.toDigits 10 block.length ++ " beginbfchar\n".toList ++ block.flatMap entryText ++
    "endbfchar\n".toList

/-- Cuts a list into blocks of `size + 1` entries, the last of which may be shorter. -/
def blocks {α : Type} (size : Nat) : List α → List (List α)
  | [] => []
  | a :: rest => (a :: rest.take size) :: blocks size (rest.drop size)
termination_by entries => entries.length
decreasing_by simp only [List.length_drop, List.length_cons]; omega

/-- The text of a map. -/
def text (entries : List (UInt16 × Char)) : List Char :=
  head.toList ++ (blocks (blockSize - 1) entries).flatMap blockText ++ foot.toList

end Folio.UnicodeMap
