import Folio.Error
import Folio.Font.CharacterMap
import Folio.Font.Measures
import Folio.Font.Naming
import Folio.Number.Binary
import Folio.Text.Blank
import Folio.Text.Quoted

/-!
# TrueType fonts

A font that is read from a file: which glyph each character has, how far each glyph advances, and
the measures that a reader of PDF needs. Sizes are in thousandths of the font size.
-/

set_option autoImplicit false

namespace Folio

/-- A font that is embedded in the documents that use it. -/
structure TrueType where
  baseFont : String
  /-- The bytes of the file. -/
  data : ByteArray
  glyphs : Sfnt.GlyphMap
  /-- The advance of each glyph. -/
  advances : Array UInt16
  ascent : Int
  descent : Int
  capHeight : Int
  /-- The box around all glyphs: left, bottom, right, top. -/
  box : List Int

namespace TrueType

/-- What a font without a usable name is called. -/
def namelessName : String := "EmbeddedFont"

/-- The characters of a font's name that may stand in its name in a document; blanks turn into
hyphens and other characters are left out. -/
def sanitizedName (name : String) : String :=
  let chars := name.toList.filterMap fun c =>
    if c.isAlphanum || c = '-' || c = '_' then some c
    else if Text.isBlank c then some '-'
    else none
  if chars.isEmpty then namelessName else String.ofList chars

/-- A measure in units of the font's grid, in thousandths of the font size. -/
def scaled (unitsPerEm : Nat) (units : Int) : Int :=
  Binary32.roundToInt (Binary32.ofInt units * 1000 / Binary32.ofInt unitsPerEm)

/-- An advance in units of the font's grid, in thousandths of the font size. -/
def scaledAdvance (unitsPerEm : Nat) (units : Nat) : UInt16 :=
  UInt16.ofNat (min (scaled unitsPerEm units).toNat 0xFFFF)

/-- The font that a file holds, or the first of a collection. -/
def parse (data : ByteArray) (fallbackName : String) : Except Sfnt.Fault TrueType := do
  let tables ← Sfnt.directory data
  let some head := (tables.table? "head").bind Sfnt.Head.ofTable? | throw .noHead
  let some line := (tables.table? "hhea").bind Sfnt.HorizontalHeader.ofTable?
    | throw .noHorizontalHeader
  let some count := (tables.table? "maxp").bind Sfnt.glyphCount? | throw .noMaximums
  let own := ((tables.table? "hmtx").bind (Sfnt.ownAdvances? line.metrics)).getD #[]
  let typographic? := (tables.table? "OS/2").bind Sfnt.Typographic.ofTable?
  let scaled := scaled head.unitsPerEm
  let ascent := scaled (Sfnt.lineMeasure line.ascent typographic? (·.ascent) (·.windowsAscent))
  return {
    baseFont := sanitizedName
      (((tables.table? "name").bind Sfnt.postScriptName?).getD fallbackName)
    data
    glyphs := ((tables.table? "cmap").map Sfnt.glyphMap).getD ∅
    advances := (Array.range count).map fun glyph =>
      scaledAdvance head.unitsPerEm (Sfnt.advanceOf own glyph)
    ascent
    descent := scaled (Sfnt.lineMeasure line.descent typographic? (·.descent) (·.windowsDescent))
    capHeight := ((typographic?.bind (·.capHeight?)).map scaled).getD ascent
    box := head.box.map scaled }

/-- The font that a file holds; it must map at least one character. -/
def ofBytes (data : ByteArray) (fallbackName : String) : Except RenderError TrueType :=
  match parse data fallbackName with
  | .error fault => .error (.font ("Failed to parse TrueType font: " ++ fault.message))
  | .ok font =>
    if font.glyphs.isEmpty then .error (.font "TrueType font has no Unicode character map")
    else .ok font

/-- The character that is drawn for a character: a space for a tab. -/
def drawnChar (c : Char) : Char :=
  if c = '\t' then ' ' else c

/-- The glyph that is drawn for a character; zero if the font has none. -/
def glyphOf (font : TrueType) (c : Char) : UInt16 :=
  font.glyphs.getD (drawnChar c).toNat 0

/-- The width of a glyph; zero if the font does not know it. -/
def glyphWidth (font : TrueType) (glyph : UInt16) : UInt16 :=
  font.advances.getD glyph.toNat 0

def charWidth (font : TrueType) (c : Char) : UInt16 :=
  font.glyphWidth (font.glyphOf c)

/-- The bytes of a text: two for each glyph, the high one first. -/
def encode (font : TrueType) (text : List Char) : List UInt8 :=
  text.flatMap fun c =>
    let glyph := (font.glyphOf c).toNat
    [UInt8.ofNat (glyph / 256), UInt8.ofNat (glyph % 256)]

/-- A short description for messages. -/
def description (font : TrueType) : String :=
  s!"TrueTypeFont \x7b base_font: {Text.quoted font.baseFont}, glyphs: {font.glyphs.size}, " ++
    s!"bytes: {font.data.size}, .. \x7d"

end TrueType

end Folio
