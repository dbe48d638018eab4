/-!
# The WinAnsi encoding

One byte for each character of western European text. Most bytes are the code points of Latin-1; the
bytes from `0x80` to `0x9F` stand for typographic characters, and a few stand for none.
-/

set_option autoImplicit false

namespace Folio.WinAnsi

/-- The characters with a byte from `0x80` to `0x9F`. -/
def high : List (Char × UInt8) := [
  ('\u20AC', 0x80), ('\u201A', 0x82), ('\u0192', 0x83), ('\u201E', 0x84), ('\u2026', 0x85),
  ('\u2020', 0x86), ('\u2021', 0x87), ('\u02C6', 0x88), ('\u2030', 0x89), ('\u0160', 0x8A),
  ('\u2039', 0x8B), ('\u0152', 0x8C), ('\u017D', 0x8E), ('\u2018', 0x91), ('\u2019', 0x92),
  ('\u201C', 0x93), ('\u201D', 0x94), ('\u2022', 0x95), ('\u2013', 0x96), ('\u2014', 0x97),
  ('\u02DC', 0x98), ('\u2122', 0x99), ('\u0161', 0x9A), ('\u203A', 0x9B), ('\u0153', 0x9C),
  ('\u017E', 0x9E), ('\u0178', 0x9F)]

/-- The byte of a character. -/
def byte? (c : Char) : Option UInt8 :=
  if 0x20 ≤ c.toNat ∧ c.toNat ≤ 0x7E ∨ 0xA0 ≤ c.toNat ∧ c.toNat ≤ 0xFF then
    some (UInt8.ofNat c.toNat)
  else high.lookup c

/-- The bytes of a text: a tab counts as a space, and a question mark stands for what has no
byte. -/
def encode (text : List Char) : List UInt8 :=
  text.map fun c => if c = '\t' then 0x20 else (byte? c).getD 0x3F

/-- The character that a byte is read as; soft hyphens and no-break spaces are read as plain
ones. -/
def char? (byte : UInt8) : Option Char :=
  if byte = 0xA0 then some ' '
  else if byte = 0xAD then some '-'
  else if 0x20 ≤ byte ∧ byte ≤ 0x7E ∨ 0xA1 ≤ byte then some (Char.ofNat byte.toNat)
  else (high.find? fun entry => entry.2 = byte).map Prod.fst

end Folio.WinAnsi
