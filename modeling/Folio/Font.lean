import Folio.Font.Helvetica
import Folio.Font.TrueType
import Folio.Font.UnicodeMap
import Folio.Pdf.Document

/-!
# Fonts

A job sets its output in one font: either Helvetica, which readers bring along, or a font from a
file that is embedded whole. The layout measures with it and the document is written with it.
-/

set_option autoImplicit false

namespace Folio

/-- The font of a job. -/
inductive Font where
  | helvetica
  | trueType (font : TrueType)

namespace Font

open Pdf

/-- The name of the font in a document. -/
def baseFont : Font → String
  | .helvetica => "Helvetica"
  | .trueType font => font.baseFont

/-- The width of a character, in thousandths of the font size. -/
def charWidth : Font → Char → UInt16
  | .helvetica => Helvetica.charWidth
  | .trueType font => font.charWidth

/-- The bytes that draw a text. -/
def encode : Font → List Char → Bytes
  | .helvetica => WinAnsi.encode
  | .trueType font => font.encode

end Font

namespace TrueType

open Pdf

/-- The glyphs that are drawn for characters, in ascending order, each with the first of its
characters. -/
def drawn (font : TrueType) (used : List Char) : List (UInt16 × Char) :=
  used.foldl (fun drawn c =>
    let glyph := font.glyphOf c
    if glyph = 0 then drawn else Sorted.insertNew glyph (drawnChar c) drawn) []

/-- What a document says about the shape of a font whose file has the number `file`. -/
def descriptor (font : TrueType) (file : Nat) : Object :=
  .dictionary [
    ("Type", .name "FontDescriptor"),
    ("FontName", .name font.baseFont),
    ("Flags", .integer 4),
    ("FontBBox", .array (font.box.map .integer)),
    ("ItalicAngle", .integer 0),
    ("Ascent", .integer font.ascent),
    ("Descent", .integer font.descent),
    ("CapHeight", .integer font.capHeight),
    ("StemV", .integer 80),
    ("FontFile2", .reference file)]

/-- The widths of the drawn glyphs, each behind the number of its glyph. -/
def widths (font : TrueType) (drawn : List (UInt16 × Char)) : List Object :=
  drawn.flatMap fun (glyph, _) =>
    [.integer glyph.toNat, .array [.integer (font.glyphWidth glyph).toNat]]

/-- What a document says about the glyphs of a font. -/
def glyphFont (font : TrueType) (drawn : List (UInt16 × Char)) (descriptor : Nat) : Object :=
  .dictionary [
    ("Type", .name "Font"),
    ("Subtype", .name "CIDFontType2"),
    ("BaseFont", .name font.baseFont),
    ("CIDSystemInfo", .dictionary [
      ("Registry", .string (asciiBytes "Adobe".toList)),
      ("Ordering", .string (asciiBytes "Identity".toList)),
      ("Supplement", .integer 0)]),
    ("FontDescriptor", .reference descriptor),
    ("DW", .integer (font.glyphWidth 0).toNat),
    ("W", .array (font.widths drawn)),
    ("CIDToGIDMap", .name "Identity")]

/-- The dictionary of a font, with the objects that describe its glyphs and lead back from them to
characters. -/
def dictionary (font : TrueType) (glyphs unicode : Nat) : Dictionary := [
  ("Type", .name "Font"),
  ("Subtype", .name "Type0"),
  ("BaseFont", .name font.baseFont),
  ("Encoding", .name "Identity-H"),
  ("DescendantFonts", .array [.reference glyphs]),
  ("ToUnicode", .reference unicode)]

/-- Adds the objects that a font needs for the characters used: the dictionary of the font and the
document with them. -/
def embed (font : TrueType) (used : List Char) (doc : Document) : Dictionary × Document :=
  let drawn := font.drawn used
  let (file, doc) := doc.add
    (.stream [("Length1", .integer font.data.size)] font.data.toList)
  let (descriptor, doc) := doc.add (font.descriptor file)
  let (glyphs, doc) := doc.add (font.glyphFont drawn descriptor)
  let (unicode, doc) := doc.add (.stream [] (asciiBytes (UnicodeMap.text drawn)))
  (font.dictionary glyphs unicode, doc)

end TrueType

namespace Font

open Pdf

/-- The dictionary of Helvetica, which needs no other objects. -/
def helveticaDictionary : Dictionary := [
  ("Type", .name "Font"),
  ("Subtype", .name "Type1"),
  ("BaseFont", .name helvetica.baseFont),
  ("Encoding", .name "WinAnsiEncoding")]

/-- Adds the objects that a font needs for the characters used: the dictionary of the font and the
document with them. -/
def embed (font : Font) (used : List Char) (doc : Document) : Dictionary × Document :=
  match font with
  | .helvetica => (helveticaDictionary, doc)
  | .trueType font => font.embed used doc

end Font

end Folio
