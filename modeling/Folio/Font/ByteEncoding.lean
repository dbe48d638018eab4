import Folio.Font.WinAnsi

/-!
# Encodings of one byte

Three sets of characters are known by name, each with one byte for a character. They agree on the
letters and digits of ASCII and differ in quotes and above.
-/

set_option autoImplicit false

namespace Folio

/-- A set of characters with one byte each. -/
inductive ByteEncoding where
  | standard
  | macRoman
  | winAnsi
deriving DecidableEq, Repr

namespace ByteEncoding

/-- The encoding with a name. -/
def ofName? (name : String) : Option ByteEncoding :=
  [("StandardEncoding", standard), ("MacRomanEncoding", macRoman), ("WinAnsiEncoding", winAnsi)]
    |>.lookup name

/-- The characters of the standard set outside ASCII, in runs of neighbouring bytes. -/
def standardRuns : List (Nat × String) := [
  (0xA1, "¡¢£⁄¥ƒ§¤\x27“«‹›ﬁﬂ"), (0xB1, "–†‡·"), (0xB6, "¶•‚„”»…‰"), (0xBF, "¿"), (0xC1, "`´ˆ˜¯˘˙¨"),
  (0xCA, "˚¸"), (0xCD, "˝˛ˇ—"), (0xE1, "Æ"), (0xE3, "ª"), (0xE8, "ŁØŒº"), (0xF1, "æ"), (0xF5, "ı"),
  (0xF8, "łøœß")]

/-- The characters of the Macintosh set outside ASCII, in runs of neighbouring bytes. -/
def macRomanRuns : List (Nat × String) := [
  (0x80, "ÄÅÇÉÑÖÜáàâäãåçéèêëíìîïñóòôöõúùûü†°¢£§•¶ß®©™´¨"), (0xAE, "ÆØ"), (0xB1, "±"), (0xB4, "¥µ"),
  (0xBB, "ªº"), (0xBE, "æø¿¡¬"), (0xC4, "ƒ"), (0xC7, "«»… ÀÃÕŒœ–—“”‘’÷"),
  (0xD8, "ÿŸ⁄¤‹›ﬁﬂ‡·‚„‰ÂÊÁËÈÍÎÏÌÓÔ"), (0xF1, "ÒÚÛÙıˆ˜¯˘˙˚¸˝˛ˇ")]

/-- The character of a byte in runs. -/
def find? (runs : List (Nat × String)) (byte : UInt8) : Option Char :=
  runs.findSome? fun (first, text) =>
    if first ≤ byte.toNat then text.toList[byte.toNat - first]? else none

/-- The character that a byte is read as. -/
def char? (encoding : ByteEncoding) (byte : UInt8) : Option Char :=
  let ascii : Option Char :=
    if 0x20 ≤ byte ∧ byte ≤ 0x7E then some (Char.ofNat byte.toNat) else none
  match encoding with
  | .winAnsi => WinAnsi.char? byte
  | .macRoman => ascii.or (find? macRomanRuns byte)
  | .standard =>
    if byte = 0x27 then some '’'
    else if byte = 0x60 then some '‘'
    else ascii.or (find? standardRuns byte)

end ByteEncoding

end Folio
